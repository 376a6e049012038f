import Strij.Gateway.ProbeScheduler

/-! Conservation of receivers in the gateway's probe scheduler: a receiver given to `Schedule` is
owned by its round, or was moved to the storage with the one grant of its task, or was dropped with
one error. -/
namespace Strij.Gateway
open Strij.Wire
variable {scheduled : List (String × Receiver)} {r : Receiver}

namespace Effect

def isGrant (id : String) : Effect → Bool
  | .write _ (.grant t) => t.id = id
  | _ => false

def isPut (r : Receiver) : Effect → Bool
  | .put _ receiver _ => receiver = r
  | _ => false

def isError (r : Receiver) : Effect → Bool
  | .deliverError receiver _ _ => receiver = r
  | _ => false

end Effect

def grants (effects : List Effect) (id : String) : ℕ := effects.countP (Effect.isGrant id)

def puts (effects : List Effect) (r : Receiver) : ℕ := effects.countP (Effect.isPut r)

def errors (effects : List Effect) (r : Receiver) : ℕ := effects.countP (Effect.isError r)

section Counting
variable (a b : List Effect)

@[simp] lemma grants_nil (id : String) : grants [] id = 0 := rfl
@[simp] lemma puts_nil (r : Receiver) : puts [] r = 0 := rfl
@[simp] lemma errors_nil (r : Receiver) : errors [] r = 0 := rfl

@[simp] lemma grants_append (id : String) : grants (a ++ b) id = grants a id+grants b id :=
  List.countP_append
@[simp] lemma puts_append (r : Receiver) : puts (a ++ b) r = puts a r+puts b r := List.countP_append
@[simp] lemma errors_append (r : Receiver) : errors (a ++ b) r = errors a r+errors b r :=
  List.countP_append

@[simp] lemma grants_cons (e : Effect) (id : String) :
    grants (e :: a) id = grants a id+(if e.isGrant id then 1 else 0) := List.countP_cons
@[simp] lemma puts_cons (e : Effect) (r : Receiver) :
    puts (e :: a) r = puts a r+(if e.isPut r then 1 else 0) := List.countP_cons
@[simp] lemma errors_cons (e : Effect) (r : Receiver) :
    errors (e :: a) r = errors a r+(if e.isError r then 1 else 0) := List.countP_cons

def Quiet (effects : List Effect) : Prop :=
  (∀ id, grants effects id = 0) ∧ (∀ r, puts effects r = 0) ∧ ∀ r, errors effects r = 0

lemma quiet_of_writes {effects : List Effect} (h : ∀ e ∈ effects, ∃ (node : Node) (frame : GatewayFrame),
      e = node.write frame ∧ ∀ t, frame ≠ .grant t) : Quiet effects := by
  refine ⟨fun i => ?_,fun r => ?_,fun r => ?_⟩ <;>
    refine List.countP_eq_zero.mpr fun e he => ?_ <;>
    obtain ⟨⟨n,conn⟩,frame,rfl,hframe⟩ := h e he <;>
    cases conn <;> cases frame <;> simp_all [Node.write,Effect.isGrant,Effect.isPut,Effect.isError]

lemma quiet_cancelNodes (directory : NodeDirectory) (id : String) (nodeIds : List String) :
    Quiet (ProbeScheduler.cancelNodes directory id nodeIds) := by
  have hcancel : ∀ e ∈ ProbeScheduler.cancelNodes directory id nodeIds,
      ∃ node : Node, e = node.write (.cancel id) := by
    intro e he
    obtain ⟨n,-,hn⟩ := List.mem_filterMap.mp he
    obtain ⟨node,-,rfl⟩ := Option.map_eq_some_iff.mp hn
    exact ⟨node,rfl⟩
  refine quiet_of_writes fun e he => ?_
  obtain ⟨node,rfl⟩ := hcancel e he
  exact ⟨node,_,rfl,fun t => nofun⟩

lemma quiet_probes (task : Task) (nodes : List Node) :
    Quiet (nodes.map (fun n => n.write (.probe task.probe))) := by
  refine quiet_of_writes fun e he => ?_
  obtain ⟨n,-,rfl⟩ := List.mem_map.mp he
  exact ⟨n,_,rfl,fun t => nofun⟩

end Counting

/-- Where a receiver given to `Schedule` can be. -/
inductive Place
  | pending
  | stored
  | dropped
  deriving DecidableEq

/-- The receiver `r` of task `id` is at the given place: what the table, the storage, the task's
grants and the receiver's errors have to say for it. -/
def Placed (s : ProbeScheduler) (effects : List Effect) (id : String) (r : Receiver) : Place → Prop
  | .pending => (∃ round, s.pending.lookup id = some round ∧ round.receiver = r) ∧
      puts effects r = 0 ∧ grants effects id = 0 ∧ errors effects r = 0
  | .stored => (∀ i round, s.pending.lookup i = some round → round.receiver ≠ r) ∧
      puts effects r = 1 ∧ grants effects id = 1 ∧ errors effects r = 0
  | .dropped => (∀ i round, s.pending.lookup i = some round → round.receiver ≠ r) ∧
      puts effects r = 0 ∧ grants effects id = 0 ∧ errors effects r = 1

lemma Placed.unique {s : ProbeScheduler} {effects : List Effect} {id : String}
    {p q : Place} (hp : Placed s effects id r p) (hq : Placed s effects id r q) : p = q := by
  cases p <;> cases q <;> simp only [Placed] at hp hq <;> first | rfl | omega

/-- The books of a run in which the given tasks were scheduled with the given receivers. -/
structure Ledger (scheduled : List (String × Receiver)) (s : ProbeScheduler)
    (effects : List Effect) : Prop where
  owned : ∀ id round, s.pending.lookup id = some round →
    (id,round.receiver) ∈ scheduled ∧ round.task.id = id ∧ round.probedNodeIds ≠ []
  placed : ∀ id r, (id,r) ∈ scheduled → ∃ p, Placed s effects id r p
  fresh : ∀ id, id ∉ scheduled.map Prod.fst → grants effects id = 0
  unknown : ∀ r, r ∉ scheduled.map Prod.snd → puts effects r = 0 ∧ errors effects r = 0

structure Distinct (scheduled : List (String × Receiver)) : Prop where
  ids : (scheduled.map Prod.fst).Nodup
  receivers : (scheduled.map Prod.snd).Nodup

lemma Distinct.receiver_eq (h : Distinct scheduled)
    {id : String} {r' : Receiver} (h₁ : (id,r) ∈ scheduled) (h₂ : (id,r') ∈ scheduled) : r = r' := by
  have := List.inj_on_of_nodup_map h.ids h₁ h₂ rfl
  exact (Prod.mk.inj this).2

lemma Distinct.id_eq (h : Distinct scheduled)
    {id id' : String} (h₁ : (id,r) ∈ scheduled) (h₂ : (id',r) ∈ scheduled) : id = id' := by
  have := List.inj_on_of_nodup_map h.receivers h₁ h₂ rfl
  exact (Prod.mk.inj this).1

lemma Distinct.left {a b : List (String × Receiver)} (h : Distinct (a ++ b)) : Distinct a where
  ids := (List.nodup_append.mp (List.map_append ▸ h.ids)).1
  receivers := (List.nodup_append.mp (List.map_append ▸ h.receivers)).1

namespace Ledger
variable {scheduled : List (String × Receiver)} {s s' : ProbeScheduler} {effects more : List Effect}
  {id : String}

lemma start (h : s.pending = ∅) : Ledger [] s [] := by
  refine ⟨fun id round hround => ?_,fun id r hr => ?_,fun id _ => rfl,fun r _ => ⟨rfl,rfl⟩⟩
  · simp [h] at hround
  · cases hr

variable (h : Ledger scheduled s effects)
include h

/-- No task is granted twice. -/
lemma grants_le_one (id : String) : grants effects id ≤ 1 := by
  by_cases hid : id ∈ scheduled.map Prod.fst
  · obtain ⟨⟨i,r⟩,hmem,rfl⟩ := List.mem_map.mp hid
    obtain ⟨p,hplaced⟩ := h.placed i r hmem
    cases p with
    | pending => exact hplaced.2.2.1.le.trans (by omega)
    | stored => exact hplaced.2.2.1.le
    | dropped => exact hplaced.2.2.1.le.trans (by omega)
  · exact (h.fresh id hid).le.trans (by omega)

lemma keep (hq : Quiet more) (hsame : ∀ id, (s'.pending.lookup id).map (fun x => (x.task,x.receiver)) =
      (s.pending.lookup id).map (fun x => (x.task,x.receiver)))
    (hprobed : ∀ id round, s'.pending.lookup id = some round → round.probedNodeIds ≠ []) :
    Ledger scheduled s' (effects ++ more) := by
  obtain ⟨hg,hp,he⟩ := hq
  have hback : ∀ id round, s'.pending.lookup id = some round →
      ∃ old, s.pending.lookup id = some old ∧ old.task = round.task ∧
        old.receiver = round.receiver := by
    intro id round hround
    have hmap := hsame id
    rw [hround,Option.map_some] at hmap
    obtain ⟨old,hold,heq⟩ := Option.map_eq_some_iff.mp hmap.symm
    obtain ⟨ht,hr⟩ := Prod.mk.inj heq
    exact ⟨old,hold,ht,hr⟩
  constructor
  · intro id round hround
    obtain ⟨old,hold,ht,hr⟩ := hback id round hround
    obtain ⟨hmem,hid,-⟩ := h.owned id old hold
    exact ⟨hr ▸ hmem,ht ▸ hid,hprobed id round hround⟩
  · intro id r hmem
    obtain ⟨p,hplaced⟩ := h.placed id r hmem
    refine ⟨p,?_⟩
    cases p with
    | pending =>
      obtain ⟨⟨old,hold,hr⟩,hcounts⟩ := hplaced
      refine ⟨?_,by simpa [hg,hp,he] using hcounts⟩
      have hmap := hsame id
      rw [hold,Option.map_some] at hmap
      obtain ⟨round,hround,heq⟩ := Option.map_eq_some_iff.mp hmap
      exact ⟨round,hround,(Prod.mk.inj heq).2.trans hr⟩
    | stored =>
      refine ⟨?_,by simpa [hg,hp,he] using hplaced.2⟩
      intro i round hround
      obtain ⟨old,hold,-,hr⟩ := hback i round hround
      exact hr ▸ hplaced.1 i old hold
    | dropped =>
      refine ⟨?_,by simpa [hg,hp,he] using hplaced.2⟩
      intro i round hround
      obtain ⟨old,hold,-,hr⟩ := hback i round hround
      exact hr ▸ hplaced.1 i old hold
  · intro id hid
    simp [h.fresh id hid,hg]
  · intro r hr
    simp [h.unknown r hr,hp,he]

lemma settle (hd : Distinct scheduled)
    {round : PendingProbe} (hround : s.pending.lookup id = some round) (stored : Bool)
    (hg : ∀ i, grants more i = if stored ∧ id = i then 1 else 0)
    (hp : ∀ r, puts more r = if stored ∧ round.receiver = r then 1 else 0)
    (he : ∀ r, errors more r = if ¬stored ∧ round.receiver = r then 1 else 0) :
    Ledger scheduled (s.erase id) (effects ++ more) := by
  obtain ⟨hmem,-,-⟩ := h.owned id round hround
  have hback : ∀ i x, (s.erase id).pending.lookup i = some x →
      i ≠ id ∧ s.pending.lookup i = some x := by
    intro i x hx
    by_cases hi : i = id
    · subst hi
      simp [ProbeScheduler.erase] at hx
    · exact ⟨hi,by rwa [ProbeScheduler.erase,AList.lookup_erase_ne hi] at hx⟩
  constructor
  · exact fun i x hx => h.owned i x (hback i x hx).2
  · intro i r hr
    obtain ⟨p,hplaced⟩ := h.placed i r hr
    by_cases hi : i = id
    · subst hi
      have hreceiver := hd.receiver_eq hmem hr
      have howner : ∀ j x, (s.erase i).pending.lookup j = some x → x.receiver ≠ r := by
        intro j x hx hxr
        obtain ⟨hne,hold⟩ := hback j x hx
        have hj := (h.owned j x hold).1
        rw [hxr] at hj
        exact hne (hd.id_eq hj hr)
      have hpending : p = .pending := by
        cases p with
        | pending => rfl
        | stored => exact absurd hreceiver (hplaced.1 i round hround)
        | dropped => exact absurd hreceiver (hplaced.1 i round hround)
      subst hpending
      obtain ⟨-,hputs,hgrants,herrors⟩ := hplaced
      cases stored with
      | true => exact ⟨.stored,howner,by simp [hputs,hp,hreceiver],by simp [hgrants,hg],
          by simp [herrors,he]⟩
      | false => exact ⟨.dropped,howner,by simp [hputs,hp],by simp [hgrants,hg],
          by simp [herrors,he,hreceiver]⟩
    · have hne : round.receiver ≠ r := fun heq => hi (hd.id_eq (heq ▸ hr) hmem)
      have hid : id ≠ i := Ne.symm hi
      refine ⟨p,?_⟩
      cases p with
      | pending =>
        obtain ⟨⟨x,hx,hxr⟩,hcounts⟩ := hplaced
        refine ⟨⟨x,?_,hxr⟩,by simpa [hg,hp,he,hid,hne] using hcounts⟩
        rwa [ProbeScheduler.erase,AList.lookup_erase_ne hi]
      | stored => exact ⟨fun j x hx => hplaced.1 j x (hback j x hx).2,
          by simpa [hg,hp,he,hid,hne] using hplaced.2⟩
      | dropped => exact ⟨fun j x hx => hplaced.1 j x (hback j x hx).2,
          by simpa [hg,hp,he,hid,hne] using hplaced.2⟩
  · intro i hi
    have hne : id ≠ i := fun heq => hi (heq ▸ List.mem_map_of_mem hmem)
    simp [h.fresh i hi,hg,hne]
  · intro r hr
    have hne : round.receiver ≠ r := fun heq => hr (heq ▸ List.mem_map_of_mem hmem)
    simp [h.unknown r hr,hp,he,hne]

lemma enroll {r : Receiver} (hd : Distinct (scheduled ++ [(id,r)]))
    (hkeep : ∀ i, i ≠ id → s'.pending.lookup i = s.pending.lookup i)
    (hg : ∀ i, grants more i = 0) (hp : ∀ x, puts more x = 0) (he : ∀ x, r ≠ x → errors more x = 0)
    (hnew : (∃ round, s'.pending.lookup id = some round ∧ round.receiver = r ∧
        round.task.id = id ∧ round.probedNodeIds ≠ [] ∧ errors more r = 0) ∨
      s'.pending.lookup id = none ∧ errors more r = 1) :
    Ledger (scheduled ++ [(id,r)]) s' (effects ++ more) := by
  have hid : id ∉ scheduled.map Prod.fst := by
    have := hd.ids
    rw [List.map_append,List.map_singleton] at this
    exact fun hmem => (List.nodup_append.mp this).2.2 _ hmem _ (List.mem_singleton_self id) rfl
  have hr : r ∉ scheduled.map Prod.snd := by
    have := hd.receivers
    rw [List.map_append,List.map_singleton] at this
    exact fun hmem => (List.nodup_append.mp this).2.2 _ hmem _ (List.mem_singleton_self r) rfl
  obtain ⟨hputs,herrors⟩ := h.unknown r hr
  have hgrants := h.fresh id hid
  -- a round of another task is an old one, and its receiver is not the new one
  have hold : ∀ i round, s'.pending.lookup i = some round → i ≠ id →
      s.pending.lookup i = some round ∧ round.receiver ≠ r := by
    intro i round hround hi
    rw [hkeep i hi] at hround
    refine ⟨hround,fun heq => hr ?_⟩
    rw [← heq]
    exact List.mem_map_of_mem (h.owned i round hround).1
  constructor
  · intro i round hround
    by_cases hi : i = id
    · subst hi
      obtain ⟨x,hx,hxr,hxt,hxp,-⟩ | ⟨hnone,-⟩ := hnew
      · rw [hround] at hx
        cases hx
        exact ⟨by simp [hxr],hxt,hxp⟩
      · rw [hnone] at hround
        cases hround
    · obtain ⟨hmem,hrest⟩ := h.owned i round (hold i round hround hi).1
      exact ⟨List.mem_append_left _ hmem,hrest⟩
  · intro i x hx
    rcases List.mem_append.mp hx with hx | hx
    · have hi : i ≠ id := fun heq => hid (heq ▸ List.mem_map_of_mem hx)
      have hxr : r ≠ x := fun heq => hr (heq ▸ List.mem_map_of_mem hx)
      obtain ⟨p,hplaced⟩ := h.placed i x hx
      have hother : ∀ (hno : ∀ j round, s.pending.lookup j = some round → round.receiver ≠ x),
          ∀ j round, s'.pending.lookup j = some round → round.receiver ≠ x := by
        intro hno j round hround
        by_cases hj : j = id
        · subst hj
          obtain ⟨y,hy,hyr,-⟩ | ⟨hnone,-⟩ := hnew
          · rw [hround] at hy
            cases hy
            rwa [hyr]
          · rw [hnone] at hround
            cases hround
        · exact hno j round (hold j round hround hj).1
      refine ⟨p,?_⟩
      cases p with
      | pending =>
        obtain ⟨⟨round,hround,hreceiver⟩,hcounts⟩ := hplaced
        exact ⟨⟨round,by rw [hkeep i hi,hround],hreceiver⟩,by simpa [hg,hp,he x hxr] using hcounts⟩
      | stored => exact ⟨hother hplaced.1,by simpa [hg,hp,he x hxr] using hplaced.2⟩
      | dropped => exact ⟨hother hplaced.1,by simpa [hg,hp,he x hxr] using hplaced.2⟩
    · obtain ⟨rfl,rfl⟩ := Prod.mk.inj (List.mem_singleton.mp hx)
      obtain ⟨round,hround,hreceiver,-,-,hnone⟩ | ⟨hlookup,hone⟩ := hnew
      · exact ⟨.pending,⟨round,hround,hreceiver⟩,by simp [hputs,hp],by simp [hgrants,hg],
          by simp [herrors,hnone]⟩
      · refine ⟨.dropped,?_,by simp [hputs,hp],by simp [hgrants,hg],by simp [herrors,hone]⟩
        intro j round hround
        have hj : j ≠ i := by
          rintro rfl
          rw [hlookup] at hround
          cases hround
        exact (hold j round hround hj).2
  · intro i hi
    simp only [List.map_append,List.mem_append,not_or] at hi
    simp [h.fresh i hi.1,hg]
  · intro x hx
    simp only [List.map_append,List.mem_append,List.map_singleton,List.mem_singleton,not_or] at hx
    simp [h.unknown x hx.1,hp,he x (Ne.symm hx.2)]

end Ledger

namespace ProbeScheduler
variable {scheduled : List (String × Receiver)} {s : ProbeScheduler} {effects : List Effect}

variable (h : Ledger scheduled s effects)
include h

lemma schedule_ledger (directory : NodeDirectory) (now : ℤ)
    (task : Task) (receiver : Receiver) (hd : Distinct (scheduled ++ [(task.id,receiver)]))
    (hid : s.pending.lookup task.id = none) :
    Ledger (scheduled ++ [(task.id,receiver)]) (s.schedule directory now task receiver).1
      (effects ++ (s.schedule directory now task receiver).2) := by
  rw [schedule]
  split
  · exact h.enroll hd (fun i _ => rfl) (fun i => by simp [Effect.isGrant])
      (fun x => by simp [Effect.isPut]) (fun x hx => by simp [Effect.isError,hx])
      (.inr ⟨hid,by simp [Effect.isError]⟩)
  · next hk =>
    obtain ⟨hg,hp,he⟩ := quiet_probes task
      (sampleCandidates (s.rng task.id) directory.candidates
        (min s.candidateCount directory.candidates.length))
    refine h.enroll hd (fun i hi => AList.lookup_insert_ne hi) hg hp (fun x _ => he x)
      (.inl ⟨_,AList.lookup_insert _,rfl,rfl,?_,he _⟩)
    intro hnil
    have hlen := sampleCandidates_length (s.rng task.id) directory.candidates
      (min s.candidateCount directory.candidates.length)
    rw [List.map_eq_nil_iff.mp hnil] at hlen
    simp only [List.length_nil] at hlen
    omega

lemma handleTaskPullFrame_ledger (hd : Distinct scheduled)
    (directory : NodeDirectory) (id : String) (conn : Connection) :
    Ledger scheduled (s.handleTaskPullFrame directory id conn).2.1
      (effects ++ (s.handleTaskPullFrame directory id conn).2.2) := by
  have hprobed := fun i round hi => (h.owned i round hi).2.2
  have hrevoke : Quiet [.write conn (.cancel id)] := by
    refine ⟨fun i => ?_,fun r => ?_,fun r => ?_⟩ <;>
      simp [Effect.isGrant,Effect.isPut,Effect.isError]
  rw [handleTaskPullFrame]
  split
  · exact h.keep hrevoke (fun _ => rfl) hprobed
  next round hround =>
  split
  · simpa using h
  next winner hwinner =>
  split
  · exact h.keep hrevoke (fun _ => rfl) hprobed
  obtain ⟨hg,hp,he⟩ := quiet_cancelNodes directory id (round.probedNodeIds.filter (· ≠ winner))
  generalize cancelNodes directory id (round.probedNodeIds.filter (· ≠ winner)) = cancels at hg hp he
  have htask := (h.owned id round hround).2.1
  refine h.settle hd hround true (fun i => ?_) (fun r => ?_) (fun r => ?_)
  · simp [hg,Effect.isGrant,htask]
  · simp [hp,Effect.isPut]
  · simp [he,Effect.isError]

lemma handleTaskDeclineFrame_ledger (hd : Distinct scheduled)
    (id reason : String) (conn : Connection) : Ledger scheduled (s.handleTaskDeclineFrame id reason conn).2.1
      (effects ++ (s.handleTaskDeclineFrame id reason conn).2.2) := by
  have hprobed := fun i round hi => (h.owned i round hi).2.2
  rw [handleTaskDeclineFrame]
  split
  · simpa using h
  next round hround =>
  generalize dropDecliner conn round.probedNodeIds = probed
  dsimp only
  split
  · exact h.settle hd hround false (fun i => by simp [Effect.isGrant])
      (fun r => by simp [Effect.isPut]) (fun r => by simp [Effect.isError])
  next hne =>
  refine h.keep ⟨fun _ => rfl,fun _ => rfl,fun _ => rfl⟩ (fun i => ?_) (fun i x hx => ?_)
  · by_cases hi : i = id
    · subst hi
      simp [assign,hround]
    · rw [assign,AList.lookup_insert_ne hi]
  · by_cases hi : i = id
    · subst hi
      simp only [assign,AList.lookup_insert,Option.some.injEq] at hx
      subst hx
      exact hne
    · rw [assign,AList.lookup_insert_ne hi] at hx
      exact hprobed i x hx

lemma handleFrame_ledger (hd : Distinct scheduled)
    (directory : NodeDirectory) (frame : NodeFrame) (conn : Connection) :
    Ledger scheduled (s.handleFrame directory frame conn).2.1
      (effects ++ (s.handleFrame directory frame conn).2.2) := by
  cases frame with
  | pull id => exact handleTaskPullFrame_ledger h hd directory id conn
  | decline id reason => exact handleTaskDeclineFrame_ledger h hd id reason conn
  | malformed kind => simpa [handleFrame] using h
  | other typeId => simpa [handleFrame] using h

omit h

lemma sweep_ledger (directory : NodeDirectory) (now : ℤ) (hd : Distinct scheduled)
    {entries : List (Sigma (fun _ : String => PendingProbe))} (hkeys : entries.NodupKeys)
    (hentries : ∀ x ∈ entries, s.pending.lookup x.1 = some x.2) (h : Ledger scheduled s effects) :
    Ledger scheduled (sweep directory now entries s).1 (effects ++ (sweep directory now entries s).2) := by
  induction entries generalizing s effects with
  | nil => simpa [sweep] using h
  | cons x rest ih =>
    obtain ⟨id,round⟩ := x
    obtain ⟨hid,hkeys⟩ := List.nodupKeys_cons.mp hkeys
    have hrest := fun y hy => hentries y (List.mem_cons_of_mem _ hy)
    rw [sweep]
    split
    · exact ih hkeys hrest h
    have hround := hentries ⟨id,round⟩ List.mem_cons_self
    obtain ⟨hg,hp,he⟩ := quiet_cancelNodes directory id round.probedNodeIds
    have hsettled : Ledger scheduled (s.erase id) (effects ++ expire directory id round) :=
      h.settle hd hround false
      (fun i => by simp [expire,hg,Effect.isGrant])
      (fun r => by simp [expire,hp,Effect.isPut]) (fun r => by simp [expire,he,Effect.isError])
    have hnext := ih hkeys (s := s.erase id) (fun y hy => ?_) hsettled
    · rw [List.append_assoc] at hnext
      exact hnext
    · have hkey : y.1 ∈ rest.keys := List.mem_map_of_mem hy
      have hne : y.1 ≠ id := fun heq => hid (heq ▸ hkey)
      rw [erase,AList.lookup_erase_ne hne]
      exact hrest y hy

def scheduledBy : List GatewayEvent → List (String × Receiver)
  | [] => []
  | .schedule _ _ task receiver :: events => (task.id,receiver) :: scheduledBy events
  | .frame _ _ _ :: events => scheduledBy events
  | .sweep _ _ :: events => scheduledBy events

lemma run_ledger {events : List GatewayEvent} (hd : Distinct (scheduled ++ scheduledBy events))
    (h : Ledger scheduled s effects) :
    Ledger (scheduled ++ scheduledBy events) (s.run events).1 (effects ++ (s.run events).2) := by
  induction events generalizing scheduled s effects with
  | nil => simpa [scheduledBy,run] using h
  | cons e events ih =>
    rw [run,← List.append_assoc]
    cases e with
    | schedule directory now task receiver =>
      rw [scheduledBy,← List.singleton_append,← List.append_assoc] at hd ⊢
      have hid : s.pending.lookup task.id = none := by
        cases hround : s.pending.lookup task.id with
        | none => rfl
        | some round =>
          have hids := hd.left.ids
          rw [List.map_append] at hids
          exact absurd rfl ((List.nodup_append.mp hids).2.2 _
            (List.mem_map_of_mem (h.owned _ _ hround).1) _ (List.mem_singleton_self task.id))
      exact ih hd (schedule_ledger h directory now task receiver hd.left hid)
    | frame directory frame conn =>
      exact ih hd (handleFrame_ledger h hd.left directory frame conn)
    | sweep directory now =>
      exact ih hd (sweep_ledger directory now hd.left s.pending.nodupKeys
        (fun x hx => AList.mem_lookup_iff.mpr hx) h)

/-- At every moment each receiver given to `Schedule` is in exactly one place, and every pending
round still waits for a node. -/
theorem receiver_conserved (s : ProbeScheduler) (hs : s.pending = ∅) (events : List GatewayEvent)
    (hids : ((scheduledBy events).map Prod.fst).Nodup)
    (hreceivers : ((scheduledBy events).map Prod.snd).Nodup) : (∀ id r, (id,r) ∈ scheduledBy events →
      ∃! p, Placed (s.run events).1 (s.run events).2 id r p) ∧
    ∀ id round, (s.run events).1.pending.lookup id = some round → round.probedNodeIds ≠ [] := by
  have h : Ledger ([] ++ scheduledBy events) (s.run events).1 ([] ++ (s.run events).2) :=
    run_ledger ⟨hids,hreceivers⟩ (.start hs)
  rw [List.nil_append,List.nil_append] at h
  refine ⟨fun id r hr => ?_,fun id round hround => (h.owned id round hround).2.2⟩
  obtain ⟨p,hp⟩ := h.placed id r hr
  exact ⟨p,hp,fun q hq => hq.unique hp⟩

/-- Two nodes probed for a task, of which the second wins; the receiver ends in the storage. -/
def twoNodes : NodeDirectory where
  candidates := [⟨"a",some ⟨1,some "a"⟩⟩,⟨"b",some ⟨2,some "b"⟩⟩]
  node n := if n = "a" then some ⟨"a",some ⟨1,some "a"⟩⟩ else some ⟨"b",some ⟨2,some "b"⟩⟩

def twoNodesRun : List GatewayEvent :=
  [.schedule twoNodes 0 ⟨"t","echo",⟨[],List.nodup_nil⟩,[]⟩ (.client 5),.frame twoNodes (.pull "t") ⟨2,some "b"⟩,
    .frame twoNodes (.pull "t") ⟨1,some "a"⟩,.sweep twoNodes 9]

theorem receiver_conserved_two : (∀ id r, (id,r) ∈ scheduledBy twoNodesRun → ∃! p,
      Placed (run ⟨2,3,fun _ _ => 0,∅⟩ twoNodesRun).1 (run ⟨2,3,fun _ _ => 0,∅⟩ twoNodesRun).2 id r p) ∧
    ∀ id round, (run ⟨2,3,fun _ _ => 0,∅⟩ twoNodesRun).1.pending.lookup id = some round →
      round.probedNodeIds ≠ [] :=
  receiver_conserved ⟨2,3,fun _ _ => 0,∅⟩ rfl twoNodesRun (by decide) (by decide)

end ProbeScheduler
end Strij.Gateway
