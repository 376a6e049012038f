import Strij.Gateway.ProbedNodes

/-! Which scheduler gets the pulls and declines. Tasks are routed by their type and frames by the frame type;
with one probe scheduler the two agree. -/
namespace Strij.Gateway
open Strij.Lib Strij.Wire

section Owner
variable {schedulers : List RoutedScheduler} {routed : RoutedScheduler} {i : ℕ}

lemma findIdx?_of_countP_le_one {α : Type*} {p : α → Bool} {l : List α} {x : α} (h : l.countP p ≤ 1)
    (hi : l[i]? = some x) (hx : p x = true) : l.findIdx? p = some i := by
  induction l generalizing i with
  | nil => cases hi
  | cons y l ih =>
    rw [List.findIdx?_cons]
    cases i with
    | zero =>
      cases hi
      rw [if_pos hx]
    | succ i =>
      have hmem : x ∈ l := List.mem_of_getElem? hi
      have hpos : 0 < l.countP p := List.countP_pos_iff.mpr ⟨x,hmem,hx⟩
      rw [List.countP_cons] at h
      have hy : ¬p y = true := by
        intro hy
        rw [if_pos hy] at h
        omega
      rw [if_neg hy,ih (by omega) hi,Option.map_some]

def typesOf (schedulers : List RoutedScheduler) : List (List UInt8) :=
  schedulers.map (fun r => r.scheduler.handledFrameTypes)

lemma typesOf_set (hrouted : schedulers[i]? = some routed) {s : GatewayScheduler}
    (h : s.handledFrameTypes = routed.scheduler.handledFrameTypes) :
    typesOf (schedulers.set i { routed with scheduler := s }) = typesOf schedulers := by
  obtain ⟨hi,rfl⟩ := List.getElem?_eq_some_iff.mp hrouted
  rw [typesOf,List.map_set]
  refine List.ext_getElem? fun j => ?_
  rw [List.getElem?_set]
  split
  · next heq =>
    subst heq
    simp [typesOf,hi,h]
  · rfl

lemma findFrameOwner_eq (typeId : UInt8) :
    findFrameOwner schedulers typeId = (typesOf schedulers).findIdx? (typeId ∈ ·) := by
  rw [findFrameOwner,typesOf,List.findIdx?_map]
  rfl

lemma findFrameOwner_of_single (h : (typesOf schedulers).countP (· ≠ []) ≤ 1)
    (hrouted : schedulers[i]? = some routed) {p : ProbeScheduler} (hp : routed.scheduler = .probe p) :
    findFrameOwner schedulers 8 = some i ∧ findFrameOwner schedulers 10 = some i := by
  have hi : (typesOf schedulers)[i]? = some [8,10] := by
    simp [typesOf,hrouted,hp,GatewayScheduler.handledFrameTypes]
  have hle (typeId : UInt8) : (typesOf schedulers).countP (typeId ∈ ·) ≤ 1 := by
    refine le_trans (List.countP_mono_left fun types _ hmem => ?_) h
    simpa using List.ne_nil_of_mem (of_decide_eq_true hmem)
  rw [findFrameOwner_eq,findFrameOwner_eq]
  exact ⟨findIdx?_of_countP_le_one (hle 8) hi (by decide),findIdx?_of_countP_le_one (hle 10) hi (by decide)⟩

end Owner

section Config

def SchedulerExtension.isProbe : SchedulerExtension → Bool
  | .probe _ _ _ => true
  | _ => false

lemma created {extension : SchedulerExtension} {s : GatewayScheduler}
    (h : createScheduler extension = .ok s) :
    s.handledFrameTypes = (if extension.isProbe then [8,10] else []) ∧ s.pending = ∅ := by
  cases extension with
  | roundRobin =>
    cases h
    exact ⟨rfl,rfl⟩
  | capabilityAware quotient =>
    cases h
    exact ⟨rfl,rfl⟩
  | probe candidateCount probeDeadline rng =>
    rw [createScheduler] at h
    split at h
    · cases h
    · cases h
      exact ⟨rfl,rfl⟩
  | unregistered name => cases h

lemma built {config : List SchedulerConfig} {boundTypes : List String} {hasDefault : Bool}
    {schedulers : List RoutedScheduler} (h : buildFrom boundTypes hasDefault config = .ok schedulers) :
    typesOf schedulers = config.map (fun c => if c.extension.isProbe then [8,10] else []) ∧
      ∀ routed ∈ schedulers, routed.scheduler.pending = ∅ := by
  induction config generalizing boundTypes hasDefault schedulers with
  | nil =>
    cases h
    exact ⟨rfl,by simp⟩
  | cons c config ih =>
    rw [buildFrom] at h
    split at h
    · cases h
    split at h
    · cases h
    cases hs : createScheduler c.extension with
    | error e =>
      rw [hs] at h
      cases h
    | ok s =>
    obtain ⟨htypes,hpending⟩ := created hs
    rw [hs] at h
    have hrest {b : List String} {d : Bool}
        (h : (do let routed ← buildFrom b d config; return (⟨c.taskType,s⟩ : RoutedScheduler) :: routed) =
          Except.ok schedulers) :
        ∃ rest, buildFrom b d config = .ok rest ∧ schedulers = ⟨c.taskType,s⟩ :: rest := by
      cases hb : buildFrom b d config with
      | error e =>
        rw [hb] at h
        cases h
      | ok rest =>
        rw [hb] at h
        cases h
        exact ⟨rest,rfl,rfl⟩
    have hcons : ∃ b d rest, buildFrom b d config = .ok rest ∧ schedulers = ⟨c.taskType,s⟩ :: rest := by
      change (if c.taskType = "" then _ else _) = _ at h
      split at h
      · exact ⟨_,_,hrest h⟩
      · exact ⟨_,_,hrest h⟩
    obtain ⟨b,d,rest,hb,rfl⟩ := hcons
    obtain ⟨hrests,hpendings⟩ := ih hb
    refine ⟨?_,List.forall_mem_cons.mpr ⟨hpending,hpendings⟩⟩
    rw [List.map_cons,← hrests,typesOf,List.map_cons,htypes]
    rfl

end Config

namespace Desk
variable {net : Network} {d d' : Desk} {effects : List Effect}

def ProbeSent (d : Desk) (key : ℕ) (id : String) : Prop :=
  ∃ w ∈ d.writes, w.node = some key ∧ ∃ p : TaskProbe, w.frame = .probe p ∧ p.id = id

structure Narrows (net : Network) (d d' : Desk) : Prop where
  types : typesOf d'.schedulers = typesOf d.schedulers
  writes : ∀ w ∈ d'.writes, w ∈ d.writes ∨ (∀ p, w.frame ≠ .probe p) ∧ ∃ e, written net e = some w
  rounds : ∀ routed' ∈ d'.schedulers, ∀ id round', routed'.scheduler.pending.lookup id = some round' →
    ∃ routed ∈ d.schedulers, ∃ round, routed.scheduler.pending.lookup id = some round ∧
      ∀ m ∈ round.probedNodeIds, m ∈ round'.probedNodeIds ∨
        ∃ n, net.getNode m = some n ∧ (n.key,id) ∈ d'.declined
  submitted : ∀ x ∈ d.submitted, x ∈ d'.submitted
  declined : ∀ x ∈ d.declined, x ∈ d'.declined

def Quiet (net : Network) (effects : List Effect) : Prop :=
  ∀ e ∈ effects, ∀ w, written net e = some w → ∀ p, w.frame ≠ .probe p

namespace Narrows
variable {i : ℕ}

lemma keep (hwrites : d'.writes = d.writes) (hschedulers : d'.schedulers = d.schedulers)
    (hsubmitted : ∀ x ∈ d.submitted, x ∈ d'.submitted) (hdeclined : ∀ x ∈ d.declined, x ∈ d'.declined) :
    Narrows net d d' where
  types := by rw [hschedulers]
  writes w hw := .inl (hwrites ▸ hw)
  rounds routed hrouted id round hround :=
    ⟨routed,hschedulers ▸ hrouted,round,hround,fun _ hm => .inl hm⟩
  submitted := hsubmitted
  declined := hdeclined

lemma trans {d'' : Desk} (h : Narrows net d d') (h' : Narrows net d' d'') : Narrows net d d'' where
  types := h'.types.trans h.types
  writes w hw := (h'.writes w hw).elim (h.writes w) .inr
  rounds routed hrouted id round hround := by
    obtain ⟨routed',hrouted',round',hround',hleft'⟩ := h'.rounds routed hrouted id round hround
    obtain ⟨routed,hrouted,round,hround,hleft⟩ := h.rounds routed' hrouted' id round' hround'
    refine ⟨routed,hrouted,round,hround,fun m hm => ?_⟩
    rcases hleft m hm with hm | ⟨n,hget,hdeclined⟩
    · exact hleft' m hm
    · exact .inr ⟨n,hget,h'.declined _ hdeclined⟩
  submitted x hx := h'.submitted x (h.submitted x hx)
  declined x hx := h'.declined x (h.declined x hx)

lemma performed {routed : RoutedScheduler} (hrouted : d.schedulers[i]? = some routed)
    {s : GatewayScheduler} (htypes : s.handledFrameTypes = routed.scheduler.handledFrameTypes)
    (hquiet : Quiet net effects) (hrounds : ∀ id round', s.pending.lookup id = some round' →
      ∃ round, routed.scheduler.pending.lookup id = some round ∧ ∀ m ∈ round.probedNodeIds,
        m ∈ round'.probedNodeIds ∨ ∃ n, net.getNode m = some n ∧ (n.key,id) ∈ d.declined) :
    Narrows net d ({ d with schedulers := d.schedulers.set i { routed with scheduler := s } }.perform
      net effects) := by
  have hext := perform_extends net
    { d with schedulers := d.schedulers.set i { routed with scheduler := s } } effects
  generalize Desk.perform net effects _ = d' at hext ⊢
  constructor
  case types => rw [hext.schedulers,typesOf_set hrouted htypes]
  case writes =>
    intro w hw
    obtain ⟨more,heq,hmore⟩ := hext.writes
    rw [heq] at hw
    refine (List.mem_append.mp hw).imp_right fun hw => ?_
    obtain ⟨e,he,hwritten⟩ := hmore w hw
    exact ⟨hquiet e he w hwritten,e,hwritten⟩
  case rounds =>
    intro routed' hrouted' id round' hround'
    rw [hext.schedulers] at hrouted'
    rcases List.mem_or_eq_of_mem_set hrouted' with hmem | rfl
    · exact ⟨routed',hmem,round',hround',fun _ hm => .inl hm⟩
    · obtain ⟨round,hround,hleft⟩ := hrounds id round' hround'
      refine ⟨routed,List.mem_of_getElem? hrouted,round,hround,fun m hm => ?_⟩
      rw [hext.declined]
      exact hleft m hm
  case submitted => exact fun x hx => hext.submitted ▸ hx
  case declined => exact fun x hx => hext.declined ▸ hx

lemma operate {op : GatewayScheduler → GatewayScheduler × List Effect}
    (hop : ∀ routed, d.schedulers[i]? = some routed →
      (op routed.scheduler).1.handledFrameTypes = routed.scheduler.handledFrameTypes ∧
      Quiet net (op routed.scheduler).2 ∧
      ∀ id round', (op routed.scheduler).1.pending.lookup id = some round' →
        ∃ round, routed.scheduler.pending.lookup id = some round ∧ ∀ m ∈ round.probedNodeIds,
          m ∈ round'.probedNodeIds ∨ ∃ n, net.getNode m = some n ∧ (n.key,id) ∈ d.declined) :
    Narrows net d (d.withScheduler net i op) := by
  rw [withScheduler]
  split
  · exact .keep rfl rfl (fun _ hx => hx) (fun _ hx => hx)
  next routed hrouted =>
  obtain ⟨htypes,hquiet,hrounds⟩ := hop routed hrouted
  exact performed hrouted htypes hquiet hrounds

lemma sweep (i : ℕ) (now : ℤ) : Narrows net d (d.withScheduler net i (·.sweepExpired net.directory now)) := by
  refine operate fun routed hrouted => ⟨(GatewayScheduler.sweepExpired_shrinks _).1,?_,?_⟩
  · intro e he w hw p hp
    obtain ⟨id,hcancel⟩ := written_sweep he hw
    rw [hcancel] at hp
    cases hp
  · intro id round hround
    refine ⟨round,?_,fun _ hm => .inl hm⟩
    cases hs : routed.scheduler with
    | roundRobin nextIndex => rwa [hs] at hround
    | capabilityAware quotient => rwa [hs] at hround
    | probe p =>
      rw [hs] at hround
      exact ProbeScheduler.sweep_lookup hround

end Narrows

lemma quiet_pushTask (n : NodeRecord) (task : Task) (r : Receiver) : Quiet net (pushTask n task r) := by
  intro e he w hw p hp
  rcases List.mem_cons.mp he with rfl | he
  · cases hw
  · cases List.mem_singleton.mp he
    rw [written_write hw] at hp
    cases hp

end Desk

namespace EventLoop
variable {g g' : EventLoop} {e : LoopEvent} {n : NodeRecord} {id : String}

lemma narrows_routeFrame (hsound : g.net.Sound) {nodeId : String} {conn : ℕ}
    (hreads : Reads g.net nodeId n conn) (frame : NodeFrame) :
    Desk.Narrows g.net g.desk (g.desk.routeFrame g.net frame n ⟨conn,some n.nodeId⟩) := by
  have hnoted : Desk.Narrows g.net g.desk (g.desk.noteDecline n.key frame) := by
    cases frame with
    | decline id reason =>
      exact .keep rfl rfl (fun _ hx => hx) (fun _ hx => List.mem_append_left _ hx)
    | _ => exact .keep rfl rfl (fun _ hx => hx) (fun _ hx => hx)
  rw [Desk.routeFrame]
  split
  · exact hnoted
  next i howner =>
  refine hnoted.trans (.operate fun routed hrouted => ?_)
  rw [Desk.noteDecline_schedulers] at hrouted
  have hout := routed.scheduler.framed g.net.directory frame ⟨conn,some n.nodeId⟩
    fun id hid => List.ne_nil_of_mem (mem_handledFrameTypes howner hrouted)
  generalize routed.scheduler.handleFrame g.net.directory frame ⟨conn,some n.nodeId⟩ = out at hout ⊢
  refine ⟨hout.shrinks.1,?_,?_⟩
  · intro e he w hw p hp
    rcases Desk.written_framed hout he hw with ⟨id,hframe⟩ | ⟨task,hframe⟩ <;> rw [hframe] at hp <;> cases hp
  · intro k round' hround'
    cases hout with
    | ignored _ => exact ⟨round',hround',fun _ hm => .inl hm⟩
    | revoked hs hframe _ => exact ⟨round',hround',fun _ hm => .inl hm⟩
    | exhausted hs hframe hround =>
      rw [hs]
      exact ⟨round',(lookup_erase_eq_some hround').2,fun _ hm => .inl hm⟩
    | granted hs hframe hround hwinner hprobed =>
      rw [hs]
      exact ⟨round',(lookup_erase_eq_some hround').2,fun _ hm => .inl hm⟩
    | @declined p hs id reason hframe round hround =>
      rw [hs]
      by_cases hk : k = id
      · subst hk
        subst hframe
        cases Option.some.inj ((AList.lookup_insert _).symm.trans hround')
        refine ⟨round,hround,fun m hm => ?_⟩
        -- the node that is dropped is the one that declined
        by_cases hm' : m = n.nodeId
        · subst hm'
          have hget : g.net.getNode n.nodeId = some n := by
            rw [hsound.named nodeId n hreads.node]
            exact hreads.node
          exact .inr ⟨n,hget,List.mem_append_right _ (List.mem_singleton_self _)⟩
        · exact .inl (List.mem_filter.mpr ⟨hm,by simpa using hm'⟩)
      · exact ⟨round',(AList.lookup_insert_ne hk).symm.trans hround',fun _ hm => .inl hm⟩

structure Tracked (types : List (List UInt8)) (g : EventLoop) : Prop where
  sound : g.net.Sound
  types : typesOf g.desk.schedulers = types
  known : ∀ w ∈ g.desk.writes, ∀ k, w.node = some k → k < g.net.nextKey
  ids : ∀ key id, g.desk.ProbeSent key id → id ∈ g.desk.submitted.map Prod.fst
  pending : ∀ routed ∈ g.desk.schedulers, ∀ id round, routed.scheduler.pending.lookup id = some round →
    id ∈ g.desk.submitted.map Prod.fst
  probed : ∀ routed ∈ g.desk.schedulers, ∀ id round, routed.scheduler.pending.lookup id = some round →
    ∀ nodeId n, g.net.getNode nodeId = some n → g.desk.ProbeSent n.key id →
      nodeId ∈ round.probedNodeIds ∨ (n.key,id) ∈ g.desk.declined

namespace Tracked
variable {types : List (List UInt8)} {d : Desk} {task : Task}

lemma written_known (h : g.net.Sound) {e : Effect} {w : Write} (hw : Desk.written g.net e = some w) {k : ℕ}
    (hk : w.node = some k) : k < g.net.nextKey := by
  cases e with
  | write conn frame =>
    cases hw
    obtain ⟨n,hn,rfl⟩ := Option.map_eq_some_iff.mp hk
    obtain ⟨id,-,hget⟩ := Option.bind_eq_some_iff.mp (Option.filter_eq_some_iff.mp hn).1
    exact h.keys id n hget
  | nullWrite nodeId frame => cases hw
  | put id r nodeId => cases hw
  | deliverError r message status => cases hw

variable (h : Tracked types g)
include h

lemma narrow (hd : Desk.Narrows g.net g.desk d) : Tracked types ⟨g.net,d⟩ := by
  have hsent {key : ℕ} {id : String} (hs : d.ProbeSent key id) : g.desk.ProbeSent key id := by
    obtain ⟨w,hw,hnode,p,hp,hid⟩ := hs
    rcases hd.writes w hw with hw | ⟨hquiet,-⟩
    · exact ⟨w,hw,hnode,p,hp,hid⟩
    · exact absurd hp (hquiet p)
  have hids {id : String} (hid : id ∈ g.desk.submitted.map Prod.fst) : id ∈ d.submitted.map Prod.fst :=
    List.map_subset _ hd.submitted hid
  constructor
  case sound => exact h.sound
  case types => exact hd.types.trans h.types
  case known =>
    intro w hw k hk
    rcases hd.writes w hw with hw | ⟨-,e,hwritten⟩
    · exact h.known w hw k hk
    · exact written_known h.sound hwritten hk
  case ids => exact fun key id hs => hids (h.ids key id (hsent hs))
  case pending =>
    intro routed hrouted id round hround
    obtain ⟨routed',hrouted',round',hround',-⟩ := hd.rounds routed hrouted id round hround
    exact hids (h.pending routed' hrouted' id round' hround')
  case probed =>
    intro routed hrouted id round hround nodeId n hget hs
    obtain ⟨routed',hrouted',round',hround',hleft⟩ := hd.rounds routed hrouted id round hround
    rcases h.probed routed' hrouted' id round' hround' nodeId n hget (hsent hs) with hmem | hdeclined
    · refine (hleft nodeId hmem).imp_right fun ⟨m,hm,hdeclined⟩ => ?_
      cases Option.some.inj (hget.symm.trans hm)
      exact hdeclined
    · exact .inr (hd.declined _ hdeclined)

lemma network {net : Network} {closed : List String} (hnet : g.net.Evolves net closed)
    (hd : Desk.Narrows g.net g.desk d) : Tracked types ⟨net,d⟩ := by
  have hdesk := h.narrow hd
  constructor
  case sound => exact hnet.sound
  case types => exact hdesk.types
  case known => exact fun w hw k hk => (hdesk.known w hw k hk).trans_le hnet.grows
  case ids => exact hdesk.ids
  case pending => exact hdesk.pending
  case probed =>
    intro routed hrouted id round hround nodeId n hget hs
    rcases hnet.origin nodeId n hget with ⟨m,hm,hkey⟩ | hnew
    · rw [← hkey] at hs ⊢
      exact hdesk.probed routed hrouted id round hround nodeId m hm hs
    · obtain ⟨w,hw,hnode,-⟩ := hs
      exact absurd (hdesk.known w hw n.key hnode) hnew.not_gt

lemma rekey {nodeId : String} {n : NodeRecord} {conn : ℕ}
    (hreads : Reads g.net nodeId n conn) {a : Advertisement} (hrekeys : g.net.Rekeys n a)
    (hfree : ∀ routed ∈ g.desk.schedulers, ∀ id round, routed.scheduler.pending.lookup id = some round →
      nodeId ∉ round.probedNodeIds) : Tracked types ⟨g.net.advertise n a,g.desk⟩ := by
  constructor
  case sound => exact h.sound.advertise hreads.node hrekeys
  case types => exact h.types
  case known => exact h.known
  case ids => exact h.ids
  case pending => exact h.pending
  case probed =>
    intro routed hrouted id round hround k m hget hs
    rw [Network.getNode_advertise hrekeys] at hget
    split at hget
    · cases hget
      refine (h.probed routed hrouted id round hround nodeId n hreads.node hs).imp_left fun hmem => ?_
      exact absurd hmem (hfree routed hrouted id round hround)
    split at hget
    · cases hget
    · exact h.probed routed hrouted id round hround k m hget hs

lemma probe (hid : task.id ∈ g.desk.submitted.map Prod.fst) (hsent : ∀ key, ¬g.desk.ProbeSent key task.id)
    (hnone : ∀ routed ∈ g.desk.schedulers, routed.scheduler.pending.lookup task.id = none) {i : ℕ}
    {routed : RoutedScheduler} (hrouted : g.desk.schedulers[i]? = some routed) {p : ProbeScheduler}
    (hp : routed.scheduler = .probe p) {sampled : List NodeRecord}
    {protocol : String} (hn : ∀ n ∈ sampled, n ∈ g.net.directory.getCandidates protocol) (r : Receiver) (deadline : ℤ) :
    Tracked types ⟨g.net,{ g.desk with schedulers := g.desk.schedulers.set i { routed with
      scheduler := .probe (p.assign task.id ⟨task,r,sampled.map NodeRecord.nodeId,deadline⟩) } }.perform g.net
        (sampled.map (fun n : NodeRecord => n.view.write (.probe task.probe)))⟩ := by
  have hext := Desk.perform_extends g.net { g.desk with schedulers := g.desk.schedulers.set i { routed with
    scheduler := .probe (p.assign task.id ⟨task,r,sampled.map NodeRecord.nodeId,deadline⟩) } }
      (sampled.map (fun n : NodeRecord => n.view.write (.probe task.probe)))
  generalize Desk.perform g.net _ _ = d at hext ⊢
  obtain ⟨more,hwrites,hmore⟩ := hext.writes
  -- a new write is the probe of this task to one of the sampled nodes
  have hnew {w : Write} (hw : w ∈ more) : w.frame = .probe task.probe ∧
      ∃ n ∈ sampled, w.node = some n.key ∧ g.net.getNode n.nodeId = some n := by
    obtain ⟨e,he,hwritten⟩ := hmore w hw
    obtain ⟨n,hmem,rfl⟩ := List.mem_map.mp he
    obtain ⟨⟨id,hget⟩,havailable⟩ := NodeDirectoryImpl.mem_getCandidates (hn n hmem)
    obtain ⟨l,hl⟩ := Option.isSome_iff_exists.mp (h.sound.linked id n hget havailable)
    refine ⟨Desk.written_write hwritten,n,hmem,?_,by rw [h.sound.named id n hget]; exact hget⟩
    simp only [NodeRecord.view,Node.write,hl,Option.map_some] at hwritten
    cases hwritten
    rw [h.sound.ownerOf hget hl]
    rfl
  have hold {key : ℕ} {id : String} (hs : d.ProbeSent key id) : g.desk.ProbeSent key id ∨
      id = task.id ∧ ∃ n ∈ sampled, n.key = key ∧ g.net.getNode n.nodeId = some n := by
    obtain ⟨w,hw,hnode,q,hq,rfl⟩ := hs
    rw [hwrites] at hw
    rcases List.mem_append.mp hw with hw | hw
    · exact .inl ⟨w,hw,hnode,q,hq,rfl⟩
    · obtain ⟨hframe,n,hmem,hkey,hget⟩ := hnew hw
      rw [hframe] at hq
      cases hq
      exact .inr ⟨rfl,n,hmem,Option.some.inj (hkey.symm.trans hnode),hget⟩
  have hrounds {routed' : RoutedScheduler} (hmem : routed' ∈ d.schedulers) {id : String}
      {round : PendingProbe} (hround : routed'.scheduler.pending.lookup id = some round) :
      (id ≠ task.id ∧ ∃ routed ∈ g.desk.schedulers, routed.scheduler.pending.lookup id = some round) ∨
        id = task.id ∧ round.probedNodeIds = sampled.map NodeRecord.nodeId := by
    rw [hext.schedulers] at hmem
    rcases List.mem_or_eq_of_mem_set hmem with hmem | rfl
    · refine .inl ⟨?_,routed',hmem,hround⟩
      rintro rfl
      rw [hnone routed' hmem] at hround
      cases hround
    · by_cases hk : id = task.id
      · subst hk
        cases Option.some.inj ((AList.lookup_insert _).symm.trans hround)
        exact .inr ⟨rfl,rfl⟩
      · refine .inl ⟨hk,routed,List.mem_of_getElem? hrouted,?_⟩
        rw [hp]
        exact (AList.lookup_insert_ne hk).symm.trans hround
  constructor
  case sound => exact h.sound
  case types =>
    rw [hext.schedulers,typesOf_set hrouted (by rw [hp]; rfl)]
    exact h.types
  case known =>
    intro w hw k hk
    rw [hwrites] at hw
    rcases List.mem_append.mp hw with hw | hw
    · exact h.known w hw k hk
    · obtain ⟨-,n,-,hkey,hget⟩ := hnew hw
      cases Option.some.inj (hkey.symm.trans hk)
      exact h.sound.keys _ n hget
  case ids =>
    intro key id hs
    rw [hext.submitted]
    rcases hold hs with hs | ⟨rfl,-⟩
    · exact h.ids key id hs
    · exact hid
  case pending =>
    intro routed' hmem id round hround
    rw [hext.submitted]
    rcases hrounds hmem hround with ⟨-,routed,hmem,hround⟩ | ⟨rfl,-⟩
    · exact h.pending routed hmem id round hround
    · exact hid
  case probed =>
    intro routed' hmem id round hround nodeId n hget hs
    rw [hext.declined]
    rcases hrounds hmem hround with ⟨hne,routed,hmem,hround⟩ | ⟨rfl,hprobed⟩
    · exact h.probed routed hmem id round hround nodeId n hget ((hold hs).resolve_right (hne ·.1))
    · obtain ⟨-,m,hm,hkey,hget'⟩ := (hold hs).resolve_left (hsent n.key)
      have hid := h.sound.distinct _ _ m n hget' hget hkey
      left
      rw [hprobed,← hid]
      exact List.mem_map_of_mem hm

lemma scheduleAt (hid : task.id ∈ g.desk.submitted.map Prod.fst)
    (hsent : ∀ key, ¬g.desk.ProbeSent key task.id)
    (hnone : ∀ routed ∈ g.desk.schedulers, routed.scheduler.pending.lookup task.id = none) (i : ℕ) (now : ℤ)
    (r : Receiver) :
    Tracked types ⟨g.net,g.desk.withScheduler g.net i (·.schedule g.net.directory now task r)⟩ := by
  rw [Desk.withScheduler]
  split
  · exact h
  next routed hrouted =>
  have hout := routed.scheduler.scheduled g.net.directory now task r
  generalize routed.scheduler.schedule g.net.directory now task r = out at hout ⊢
  cases hout with
  | refused hsame message status =>
    refine h.narrow (.performed hrouted hsame.types ?_ fun id round hround => ?_)
    · intro e he
      cases List.mem_singleton.mp he
      rintro _ ⟨⟩
    · exact ⟨round,hsame.pending ▸ hround,fun _ hm => .inl hm⟩
  | pushed hsame hn =>
    refine h.narrow (.performed hrouted hsame.types (Desk.quiet_pushTask _ _ _) fun id round hround => ?_)
    exact ⟨round,hsame.pending ▸ hround,fun _ hm => .inl hm⟩
  | probed hs hne hn deadline => exact h.probe hid hsent hnone hrouted hs hn r deadline

end Tracked

/-- Task ids are not used twice, and no node of a pending round gets another id. -/
structure RoundsKept (g : EventLoop) (e : LoopEvent) : Prop where
  fresh : g.Fresh e
  named : ∀ nodeId ∈ g.renamed e, ∀ routed ∈ g.desk.schedulers, ∀ x ∈ routed.scheduler.pending.entries,
    nodeId ∉ x.2.probedNodeIds

instance (e : LoopEvent) : Decidable (g.RoundsKept e) :=
  decidable_of_iff (g.Fresh e ∧ ∀ nodeId ∈ g.renamed e, ∀ routed ∈ g.desk.schedulers,
    ∀ x ∈ routed.scheduler.pending.entries, nodeId ∉ x.2.probedNodeIds)
    ⟨fun h => ⟨h.1,h.2⟩,fun h => ⟨h.fresh,h.named⟩⟩

namespace Tracked
variable {types : List (List UInt8)}

lemma settle (h : Tracked types g) (out : Option ResultReceiverStorage) :
    Tracked types ⟨g.net,g.desk.settle out⟩ := by
  obtain ⟨s,hung,heq⟩ := g.desk.settle_eq out
  rw [heq]
  exact h.narrow (.keep rfl rfl (fun _ hx => hx) (fun _ hx => hx))

lemma submit (h : Tracked types g) {task : Task} (hfresh : task.id ∉ g.desk.submitted.map Prod.fst) {d : Desk}
    (hwrites : d.writes = g.desk.writes) (hschedulers : d.schedulers = g.desk.schedulers) {r : Receiver}
    (hsubmitted : d.submitted = g.desk.submitted ++ [(task.id,r)]) (hdeclined : d.declined = g.desk.declined) :
    Tracked types ⟨g.net,d⟩ ∧ ∀ i now r',
      Tracked types ⟨g.net,d.withScheduler g.net i (·.schedule g.net.directory now task r')⟩ := by
  have hd : Tracked types ⟨g.net,d⟩ := h.narrow (.keep hwrites hschedulers
    (fun _ hx => hsubmitted ▸ List.mem_append_left _ hx) (fun _ hx => hdeclined ▸ hx))
  have hid : task.id ∈ d.submitted.map Prod.fst := by simp [hsubmitted]
  refine ⟨hd,fun i now r' => hd.scheduleAt hid (fun key hs => ?_) (fun routed hrouted => ?_) i now r'⟩
  · obtain ⟨w,hw,hprobe⟩ := hs
    exact hfresh (h.ids key task.id ⟨w,hwrites ▸ hw,hprobe⟩)
  · cases hround : routed.scheduler.pending.lookup task.id with
    | none => rfl
    | some round =>
      exact absurd (h.pending routed (hschedulers ▸ hrouted) task.id round hround) hfresh

end Tracked

lemma tracked_of_step {types : List (List UInt8)} (h : Tracked types g) (hcond : g.RoundsKept e)
    (hstep : g.step e = some g') : Tracked types g' := by
  cases turn_of_step h.sound hstep with
  | network hnet =>
    obtain ⟨s,hung,heq⟩ := g.desk.close_eq _
    rw [heq]
    exact h.network hnet (.keep rfl rfl (fun _ hx => hx) (fun _ hx => hx))
  | rekeyed hreads now hrekeys =>
    refine h.rekey hreads hrekeys fun routed hrouted id round hround => ?_
    exact hcond.named _ (hreads.renamed hrekeys now) routed hrouted ⟨id,round⟩ (AList.mem_lookup_iff.mp hround)
  | answered hanswer => exact h.settle _
  | withdrawn id hclient => exact h.narrow (.keep rfl rfl (fun _ hx => hx) (fun _ hx => hx))
  | submitted now task =>
    obtain ⟨hnoted,hscheduled⟩ := h.submit
      (d := { g.desk with submitted := g.desk.submitted ++ [(task.id,g.client)] })
      (hcond.fresh task rfl) rfl rfl rfl rfl
    rw [Desk.schedule]
    split
    · exact hnoted.settle _
    · exact hscheduled _ now g.client
  | @child nodeId n conn hreads now task =>
    obtain ⟨hnoted,hscheduled⟩ := h.submit (d := { g.desk with
        storage := g.desk.storage.put task.id (.nodeConnection task.id conn) n.nodeId
        submitted := g.desk.submitted ++ [(task.id,.nodeConnection task.id conn)] })
      (hcond.fresh task rfl) rfl rfl rfl rfl
    rw [Desk.handleChildTaskSubmission]
    split
    · split
      · exact hnoted.narrow (.keep rfl rfl (fun _ hx => hx) (fun _ hx => hx))
      · exact hnoted.settle _
    · exact hscheduled _ now (.forwarder task.id)
  | scheduling hreads now frame => exact h.narrow (narrows_routeFrame h.sound hreads frame)
  | swept i now => exact h.narrow (.sweep i now)

lemma tracked_start {schedulers : List RoutedScheduler}
    (h : ∀ routed ∈ schedulers, routed.scheduler.pending = ∅) :
    Tracked (typesOf schedulers) (start schedulers) := by
  have hnone (routed : RoutedScheduler) (hrouted : routed ∈ schedulers) (id : String) (round : PendingProbe)
      (hround : routed.scheduler.pending.lookup id = some round) : False := by
    rw [h routed hrouted,AList.lookup_empty] at hround
    cases hround
  have hsent (key : ℕ) (id : String) : ¬(start schedulers).desk.ProbeSent key id := by
    rintro ⟨w,hw,-⟩
    cases hw
  exact ⟨.empty,rfl,by simp [start],fun key id hs => absurd hs (hsent key id),
    fun routed hrouted id round hround => (hnone routed hrouted id round hround).elim,
    fun routed hrouted id round hround => (hnone routed hrouted id round hround).elim⟩

lemma step_pull (hsound : g.net.Sound) (hrunning : g.desk.hung = false) {nodeId : String}
    {conn : ℕ} (hreads : Reads g.net nodeId n conn) (now : ℤ) {i : ℕ}
    {routed : RoutedScheduler} (hrouted : g.desk.schedulers[i]? = some routed)
    (howner : findFrameOwner g.desk.schedulers 8 = some i) {p : ProbeScheduler}
    (hp : routed.scheduler = .probe p) {round : PendingProbe} (hround : p.pending.lookup id = some round)
    (hprobed : nodeId ∈ round.probedNodeIds) :
    ∃ g' more, g.step (.frame nodeId now (.scheduling (.pull id))) = some g' ∧
      g'.desk.writes = g.desk.writes ++ ⟨conn,some n.key,true,.grant round.task⟩ :: more := by
  have hid := hsound.named nodeId n hreads.node
  have hgrant : (g.desk.write g.net ⟨conn,some n.nodeId⟩ (.grant round.task)).writes =
      g.desk.writes ++ [⟨conn,some n.key,true,.grant round.task⟩] := by
    have hopen : n.isOpen = true := NodeRecord.isOpen_iff.mpr ⟨conn,hreads.link⟩
    have howned := hsound.ownerOf hreads.node hreads.link
    simp only [Desk.write,howned,Option.map_some,Option.any_some,hopen]
  have hstep : g.step (.frame nodeId now (.scheduling (.pull id))) =
      some ⟨g.net,g.desk.routeFrame g.net (.pull id) n ⟨conn,some n.nodeId⟩⟩ := by
    simp [step,hrunning,hreads.node,hreads.link,handleFrame]
  rw [hstep,Desk.routeFrame,frameType,howner]
  simp only [Desk.noteDecline,Desk.withScheduler,hrouted,hp,GatewayScheduler.handleFrame,
    ProbeScheduler.handleFrame,ProbeScheduler.handleTaskPullFrame,hround,hid,hprobed,not_true_eq_false,
    if_false,List.cons_append,Desk.perform,hrunning,Bool.false_eq_true]
  obtain ⟨more,hwrites,-⟩ := (Desk.perform_extends g.net _ _).writes
  refine ⟨_,more,rfl,hwrites.trans ?_⟩
  change (g.desk.write g.net ⟨conn,some nodeId⟩ (.grant round.task)).writes ++ more = _
  rw [← hid,hgrant,List.append_assoc]
  rfl

/-- With at most one probe scheduler, in runs in which ids are not used twice and the nodes of pending
rounds keep theirs: the probe scheduler gets every pull and decline, and a pull from a probed node that
did not decline gets the grant while the round is pending. -/
theorem probed_nodes_win (config : List SchedulerConfig) (schedulers : List RoutedScheduler)
    (hbuild : buildSchedulerRouter config = .ok schedulers)
    (hsingle : config.countP (fun c => c.extension.isProbe) ≤ 1) (events : List LoopEvent)
    (hcond : Throughout step RoundsKept (start schedulers) events)
    (hrun : runAll step (start schedulers) events = some g) :
    (∀ (i : ℕ) (routed : RoutedScheduler) (p : ProbeScheduler), g.desk.schedulers[i]? = some routed →
      routed.scheduler = .probe p →
      findFrameOwner g.desk.schedulers 8 = some i ∧ findFrameOwner g.desk.schedulers 10 = some i) ∧
    ∀ (id nodeId : String) (n : NodeRecord) (conn : ℕ) (now : ℤ), ∀ routed ∈ g.desk.schedulers,
      ∀ round, routed.scheduler.pending.lookup id = some round → Reads g.net nodeId n conn →
      g.desk.ProbeSent n.key id → (n.key,id) ∉ g.desk.declined → g.desk.hung = false →
      ∃ g' more, g.step (.frame nodeId now (.scheduling (.pull id))) = some g' ∧
        g'.desk.writes = g.desk.writes ++ ⟨conn,some n.key,true,.grant round.task⟩ :: more := by
  rw [buildSchedulerRouter] at hbuild
  split at hbuild
  · cases hbuild
  obtain ⟨htypes,hpending⟩ := built hbuild
  have htracked : Tracked (typesOf schedulers) g :=
    runAll_invariant (fun g e g' hg hcond hstep => tracked_of_step hg hcond hstep)
      (tracked_start hpending) hcond hrun
  have hone : (typesOf g.desk.schedulers).countP (· ≠ []) ≤ 1 := by
    rw [htracked.types,htypes,List.countP_map]
    refine le_trans (List.countP_mono_left fun c _ hc => ?_) hsingle
    by_contra hnot
    simp [hnot] at hc
  refine ⟨fun i routed p hrouted hp => findFrameOwner_of_single hone hrouted hp,?_⟩
  intro id nodeId n conn now routed hmem round hround hreads hsent hdeclined hrunning
  have hprobed := (htracked.probed routed hmem id round hround nodeId n hreads.node hsent).resolve_right
    hdeclined
  obtain ⟨i,hrouted⟩ := List.mem_iff_getElem?.mp hmem
  cases hp : routed.scheduler with
  | roundRobin nextIndex =>
    rw [hp] at hround
    cases hround
  | capabilityAware quotient =>
    rw [hp] at hround
    cases hround
  | probe p =>
    rw [hp] at hround
    exact step_pull htracked.sound hrunning hreads now hrouted
      (findFrameOwner_of_single hone hrouted hp).1 hp hround hprobed

/-- A task is pending, and its probe was written to a node that can still answer. -/
def awaitsPull (g : EventLoop) (id nodeId : String) : Bool :=
  g.desk.schedulers.any (fun r => (r.scheduler.pending.lookup id).isSome) && g.desk.declined.isEmpty &&
    !g.desk.hung && (g.net.getNode nodeId).any (fun n => n.isOpen && g.desk.writes.any (fun w =>
      w.node = some n.key && match w.frame with
        | .probe p => p.id = id
        | _ => false))

lemma of_awaitsPull {nodeId : String} (h : g.awaitsPull id nodeId = true) :
    ∃ routed ∈ g.desk.schedulers, ∃ round n conn, routed.scheduler.pending.lookup id = some round ∧
      Reads g.net nodeId n conn ∧ g.desk.ProbeSent n.key id ∧ (n.key,id) ∉ g.desk.declined ∧
      g.desk.hung = false := by
  simp only [awaitsPull,Bool.and_eq_true,List.isEmpty_iff,Bool.not_eq_true',List.any_eq_true] at h
  obtain ⟨⟨⟨⟨routed,hrouted,hpending⟩,hdeclined⟩,hrunning⟩,hnode⟩ := h
  obtain ⟨round,hround⟩ := Option.isSome_iff_exists.mp hpending
  obtain ⟨n,hget,hn⟩ := (Option.any_eq_true _ _).mp hnode
  simp only [Bool.and_eq_true,List.any_eq_true,decide_eq_true_eq] at hn
  obtain ⟨hopen,w,hw,hkey,hframe⟩ := hn
  obtain ⟨conn,hlink⟩ := NodeRecord.isOpen_iff.mp hopen
  refine ⟨routed,hrouted,round,n,conn,hround,⟨hget,hlink⟩,⟨w,hw,hkey,?_⟩,by simp [hdeclined],hrunning⟩
  cases hf : w.frame with
  | probe p => exact ⟨p,rfl,by simpa [hf] using hframe⟩
  | _ => simp [hf] at hframe

/-- A push scheduler for one type, and a probe scheduler for the others. -/
def mixedConfig : List SchedulerConfig := [⟨"y",.roundRobin⟩,⟨"",.probe none none (fun _ _ => 0)⟩]

def probedTask : List LoopEvent := twoNodes ++ [.httpTask 0 (bareTask "t" "x")]

theorem probed_nodes_win_first : ∃ schedulers, buildSchedulerRouter mixedConfig = .ok schedulers ∧
    ∃ g g' more round conn key, runAll step (start schedulers) probedTask = some g ∧
      g.step (.frame "a" 1 (.scheduling (.pull "t"))) = some g' ∧
      g'.desk.writes = g.desk.writes ++ ⟨conn,some key,true,.grant round⟩ :: more := by
  refine ⟨_,rfl,?_⟩
  generalize hschedulers : ([⟨"y",.roundRobin 0⟩,_] : List RoutedScheduler) = schedulers
  have hbuild : buildSchedulerRouter mixedConfig = .ok schedulers := hschedulers ▸ rfl
  have hcond : Throughout step RoundsKept (start schedulers) probedTask := by
    subst hschedulers
    decide +kernel
  have hready : (runAll step (start schedulers) probedTask).any (·.awaitsPull "t" "a") = true := by
    subst hschedulers
    decide +kernel
  obtain ⟨g,hrun,hg⟩ := (Option.any_eq_true _ _).mp hready
  obtain ⟨routed,hrouted,round,n,conn,hround,hreads,hsent,hdeclined,hrunning⟩ := of_awaitsPull hg
  obtain ⟨g',more,hstep,hwrites⟩ := (probed_nodes_win mixedConfig schedulers hbuild (by decide) probedTask
    hcond hrun).2 "t" "a" n conn 1 routed hrouted round hround hreads hsent hdeclined hrunning
  exact ⟨g,g',more,round.task,conn,n.key,hrun,hstep,hwrites⟩

/-- Two probe schedulers for different types. -/
def twoProbeConfig : List SchedulerConfig :=
  [⟨"x",.probe none none (fun _ _ => 0)⟩,⟨"y",.probe none none (fun _ _ => 0)⟩]

def endsInCancel (id : String) (g : EventLoop) : Bool :=
  g.desk.writes.getLast?.any (fun w => match w.frame with
    | .cancel k => k = id
    | _ => false)

/-- A task of the second type is pending and its probe delivered; the pull goes to the first scheduler,
which answers with a cancel. -/
theorem pull_reaches_other_scheduler : ∃ schedulers, buildSchedulerRouter twoProbeConfig = .ok schedulers ∧
      ∃ g g', runAll step (start schedulers) (twoNodes ++ [.httpTask 0 (bareTask "t" "y")]) = some g ∧
        g.awaitsPull "t" "a" = true ∧ findFrameOwner g.desk.schedulers 8 = some 0 ∧
        (g.desk.schedulers[1]?).any (fun r => (r.scheduler.pending.lookup "t").isSome) = true ∧
        g.step (.frame "a" 1 (.scheduling (.pull "t"))) = some g' ∧ g'.endsInCancel "t" = true := by
  refine ⟨_,rfl,?_⟩
  generalize hschedulers : ([⟨"x",_⟩,_] : List RoutedScheduler) = schedulers
  have hrun : (runAll step (start schedulers) (twoNodes ++ [.httpTask 0 (bareTask "t" "y")])).any (fun g =>
      g.awaitsPull "t" "a" && (findFrameOwner g.desk.schedulers 8 = some 0 : Bool) &&
      (g.desk.schedulers[1]?).any (fun r => (r.scheduler.pending.lookup "t").isSome) &&
      (g.step (.frame "a" 1 (.scheduling (.pull "t")))).any (endsInCancel "t")) = true := by
    subst hschedulers
    decide +kernel
  obtain ⟨g,hg,hall⟩ := (Option.any_eq_true _ _).mp hrun
  simp only [Bool.and_eq_true,decide_eq_true_eq] at hall
  obtain ⟨⟨⟨hawaits,howner⟩,hpending⟩,hstep⟩ := hall
  obtain ⟨g',hg',hcancel⟩ := (Option.any_eq_true _ _).mp hstep
  exact ⟨g,g',hg,hawaits,howner,hpending,hg',hcancel⟩

end EventLoop
end Strij.Gateway
