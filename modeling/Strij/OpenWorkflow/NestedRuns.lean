import Strij.OpenWorkflow.HandlerInvariant

/-! The nested runs of the handler, as long as ids are generated once. The runner holds exactly the runs
that are not over, and calls each of them back at most once. -/
namespace Strij.OpenWorkflow
open Strij.Lib (lookup_erase_eq_some)

def anyRegime (H : HandlerSetup) : Regime H where
  Holds _ _ := True
  Startable _ _ := True
  created _ _ _ _ := trivial
  called _ _ _ _ := trivial
  nested _ _ := trivial

def RunnerEvent.done? : RunnerEvent → Option Party
  | .onDone p => some p
  | _ => none

namespace Handler
variable {H : HandlerSetup} {busy : List Party} {s s' s₁ s₂ : Handler} {p : Party}
  {i : WorkflowInterpreter} {result : Option TaskResult} {ds : List Delivery} {id : Option String}
  {definition : String} {n : ℕ} {job : Job}

def Started (s : Handler) (key : String) : Prop := ∃ n < s.started, (s.host (.nested n)).key = key

def doneParties (s : Handler) : List Party := s.log.filterMap RunnerEvent.done?

structure Sane (H : HandlerSetup) (busy : List Party) (s : Handler) : Prop where
  keys : ∀ {n m}, n < s.started → m < s.started → (s.host (.nested n)).key = (s.host (.nested m)).key → n = m
  held : ∀ {n}, n < s.started → .nested n ∉ busy →
    (s.Holds (.nested n) ↔ (s.host (.nested n)).interpreter.state.isTerminal = false)
  engaged : ∀ p ∈ busy, s.Holds p
  fresh : ∀ {p k}, p ∉ busy → s.Started (H.generateId (some p) k) →
    k < (s.host p).interpreter.world.nextChild
  known : ∀ {m k}, s.Started (H.generateId (some (.nested m)) k) → m < s.started
  generated : ∀ {k}, s.Started (H.generateId none k) → k < s.generated
  parents : ∀ {n}, n < s.started → ∃ k, (s.host (.nested n)).key = H.generateId (s.host (.nested n)).parent k
  doneOnce : s.doneParties.Nodup
  done : ∀ p ∈ s.doneParties, p ∈ busy ∨ ∃ n, p = .nested n ∧ n < s.started ∧
    (s.host p).interpreter.state.isTerminal = true ∧ (s.host p).interpreter.state ≠ .cancelled

/-- On behalf of the busy interpreters nothing is called back, and only these keys are started. -/
structure Spares (H : HandlerSetup) (busy : List Party) (keys : List String) (s s' : Handler) : Prop where
  done : ∀ p ∈ busy, p ∈ s'.doneParties → p ∈ s.doneParties
  started : ∀ p ∈ busy, ∀ k, s'.Started (H.generateId (some p) k) →
    s.Started (H.generateId (some p) k) ∨ H.generateId (some p) k ∈ keys

namespace Spares
variable {keys keys' : List String} {s'' : Handler}

lemma refl : Spares H busy [] s s := ⟨fun _ _ => id,fun _ _ _ => .inl⟩

variable (h : Spares H busy keys s s')
include h

lemma trans (h' : Spares H busy keys' s' s'') : Spares H busy (keys ++ keys') s s'' where
  done p hp hdone := h.done p hp (h'.done p hp hdone)
  started p hp k hk := by
    rcases h'.started p hp k hk with hk | hk
    · exact (h.started p hp k hk).imp_right (List.mem_append_left _)
    · exact .inr (List.mem_append_right _ hk)

lemma more (hsub : ∀ key ∈ keys, key ∈ keys') : Spares H busy keys' s s' :=
  ⟨h.done,fun p hp k hk => (h.started p hp k hk).imp_right (hsub _)⟩

lemma mono {busy' : List Party} (hsub : ∀ p ∈ busy', p ∈ busy) : Spares H busy' keys s s' :=
  ⟨fun p hp => h.done p (hsub p hp),fun p hp => h.started p (hsub p hp)⟩

end Spares

section Put

lemma put_holds {q : Party} : (s.put i p).Holds q ↔ s.Holds q := by
  cases q with
  | task k => exact Iff.rfl
  | nested n =>
    change s.runs.lookup ((s.put i p).host (.nested n)).key = some n ↔ _
    rw [put_key]
    exact Iff.rfl

lemma put_started_iff {key : String} : (s.put i p).Started key ↔ s.Started key := by
  unfold Started
  simp only [put_key]
  exact Iff.rfl

end Put

namespace Sane

lemma initial : Sane H [] (initial H) where
  keys h := absurd h (Nat.not_lt_zero _)
  held h := absurd h (Nat.not_lt_zero _)
  engaged _ h := by cases h
  fresh _ h := absurd h.choose_spec.1 (Nat.not_lt_zero _)
  known h := absurd h.choose_spec.1 (Nat.not_lt_zero _)
  generated h := absurd h.choose_spec.1 (Nat.not_lt_zero _)
  parents h := absurd h (Nat.not_lt_zero _)
  doneOnce := List.nodup_nil
  done _ h := by cases h

lemma engage (h : Sane H busy s) (hheld : s.Holds p) : Sane H (p :: busy) s where
  keys := h.keys
  held hn hidle := h.held hn fun hmem => hidle (List.mem_cons_of_mem _ hmem)
  engaged := List.forall_mem_cons.mpr ⟨hheld,h.engaged⟩
  fresh hidle := h.fresh fun hmem => hidle (List.mem_cons_of_mem _ hmem)
  known := h.known
  generated := h.generated
  parents := h.parents
  doneOnce := h.doneOnce
  done q hq := (h.done q hq).imp_left (List.mem_cons_of_mem _)

lemma release (h : Sane H (p :: busy) s)
    (hlive : ∀ n, p = .nested n → (s.host p).interpreter.state.isTerminal = false) (hdone : p ∉ s.doneParties)
    (hfresh : ∀ k, s.Started (H.generateId (some p) k) → k < (s.host p).interpreter.world.nextChild) :
    Sane H busy s where
  keys := h.keys
  held {n} hn hidle := by
    by_cases hp : .nested n = p
    · subst hp
      exact iff_of_true (h.engaged _ List.mem_cons_self) (hlive n rfl)
    · exact h.held hn (by simp [hp,hidle])
  engaged q hq := h.engaged q (List.mem_cons_of_mem _ hq)
  fresh {q k} hidle hk := by
    by_cases hq : q = p
    · subst hq
      exact hfresh k hk
    · exact h.fresh (by simp [hq,hidle]) hk
  known := h.known
  generated := h.generated
  parents := h.parents
  doneOnce := h.doneOnce
  done q hq := by
    refine (h.done q hq).imp_left fun hmem => ?_
    rcases List.mem_cons.mp hmem with rfl | hmem
    · exact absurd hq hdone
    · exact hmem

lemma put (h : Sane H busy s) (hp : p ∈ busy) : Sane H busy (s.put i p) where
  keys hn hm heq := by
    rw [put_key,put_key] at heq
    exact h.keys hn hm heq
  held hn hidle := by
    rw [put_holds,put_host_ne (ne_of_mem_of_not_mem hp hidle).symm]
    exact h.held hn hidle
  engaged q hq := put_holds.mpr (h.engaged q hq)
  fresh hidle hk := by
    rw [put_host_ne (ne_of_mem_of_not_mem hp hidle).symm]
    exact h.fresh hidle (put_started_iff.mp hk)
  known hk := h.known (put_started_iff.mp hk)
  generated hk := h.generated (put_started_iff.mp hk)
  parents hn := by
    rw [put_key,put_parent]
    exact h.parents hn
  doneOnce := h.doneOnce
  done q hq := by
    by_cases hbusy : q ∈ busy
    · exact .inl hbusy
    · rw [put_host_ne (ne_of_mem_of_not_mem hp hbusy).symm]
      exact h.done q hq

lemma record (h : Sane H busy s) {e : RunnerEvent}
    (hdone : ∀ q ∈ e.done?, q ∉ s.doneParties ∧ q ∈ busy) : Sane H busy { s with log := e :: s.log } := by
  have hparties : doneParties { s with log := e :: s.log } = e.done?.toList ++ s.doneParties := by
    rw [doneParties,List.filterMap_cons]
    cases e.done? <;> rfl
  refine ⟨h.keys,h.held,h.engaged,h.fresh,h.known,h.generated,h.parents,?_,?_⟩
  · rw [hparties]
    cases hq : e.done? with
    | none => exact h.doneOnce
    | some q => exact List.nodup_cons.mpr ⟨(hdone q hq).1,h.doneOnce⟩
  · intro q hq
    rw [hparties] at hq
    rcases List.mem_append.mp hq with hq | hq
    · exact .inl (hdone q (Option.mem_toList.mp hq)).2
    · exact h.done q hq

lemma retire (h : Sane H (.nested n :: busy) s) (hn : n < s.started) (hidle : .nested n ∉ busy)
    (hlarge : ∀ {m}, .nested m ∈ busy → m < s.started)
    (hterminal : (s.host (.nested n)).interpreter.state.isTerminal = true)
    (hdone : .nested n ∈ s.doneParties → (s.host (.nested n)).interpreter.state ≠ .cancelled)
    (hfresh : ∀ k, s.Started (H.generateId (some (.nested n)) k) →
      k < (s.host (.nested n)).interpreter.world.nextChild) :
    Sane H busy { s with runs := s.runs.erase (s.host (.nested n)).key } := by
  have hother : ∀ {m}, m < s.started → m ≠ n →
      (Holds { s with runs := s.runs.erase (s.host (.nested n)).key } (.nested m) ↔ s.Holds (.nested m)) := by
    intro m hm hne
    have hkey : (s.host (.nested m)).key ≠ (s.host (.nested n)).key := fun heq => hne (h.keys hm hn heq)
    exact iff_of_eq (congrArg (· = some m) (AList.lookup_erase_ne hkey))
  refine ⟨h.keys,?_,?_,?_,h.known,h.generated,h.parents,h.doneOnce,?_⟩
  · intro m hm hidle'
    by_cases hmn : m = n
    · subst hmn
      refine iff_of_false (fun hheld => ?_) (by simp [hterminal])
      cases (AList.lookup_erase _ _).symm.trans hheld
    · rw [hother hm hmn]
      exact h.held hm (by simp [hmn,hidle'])
  · intro q hq
    cases q with
    | task k => trivial
    | nested m =>
      refine (hother (hlarge hq) ?_).mpr (h.engaged _ (List.mem_cons_of_mem _ hq))
      rintro rfl
      exact hidle hq
  · intro q k hidle' hk
    by_cases hq : q = .nested n
    · subst hq
      exact hfresh k hk
    · exact h.fresh (by simp [hq,hidle']) hk
  · intro q hq
    rcases h.done q hq with hbusy | hover
    · rcases List.mem_cons.mp hbusy with rfl | hbusy
      · exact .inr ⟨n,rfl,hn,hterminal,hdone hq⟩
      · exact .inl hbusy
    · exact .inr hover

lemma runKey_fresh (h : Sane H busy s) (hid : ∀ key ∈ id, ¬ s.Started key) : ¬ s.Started (s.runKey H id) := by
  cases id with
  | none => exact fun hmem => (h.generated hmem).false
  | some key => exact hid key rfl

end Sane

section Start
variable {G : Regime H}

lemma start_key (h : n < s.started) :
    ((s.start H p id definition).host (.nested n)).key = (s.host (.nested n)).key := by
  rw [start_host_ne fun heq => h.ne (Party.nested.inj heq)]

lemma start_started_iff {key : String} :
    (s.start H p id definition).Started key ↔ key = s.runKey H id ∨ s.Started key := by
  constructor
  · rintro ⟨n,hn,rfl⟩
    rcases Nat.lt_succ_iff_lt_or_eq.mp hn with hn | rfl
    · exact .inr ⟨n,hn,(start_key hn).symm⟩
    · exact .inl (by rw [start_host_self])
  · rintro (rfl | ⟨n,hn,rfl⟩)
    · exact ⟨s.started,Nat.lt_succ_self _,by rw [start_host_self]⟩
    · exact ⟨n,Nat.lt_succ_of_lt hn,start_key hn⟩

lemma runKey_origin (hfresh : H.Fresh) (hid : ∀ key ∈ id, ∃ k, key = H.generateId (some p) k) {q : Party}
    {k : ℕ} (heq : H.generateId (some q) k = s.runKey H id) : q = p := by
  cases id with
  | none => cases (hfresh heq).1
  | some key =>
    obtain ⟨k',hk'⟩ := hid key rfl
    exact Option.some.inj (hfresh (heq.trans hk')).1

lemma Sane.start (hfresh : H.Fresh) (hu : Upright G busy s) (h : Sane H busy s) (hp : p ∈ busy)
    (hid : ∀ key ∈ id, ¬ s.Started key ∧ ∃ k, key = H.generateId (some p) k) :
    Sane H busy (s.start H p id definition) := by
  have hnew : ¬ s.Started (s.runKey H id) := h.runKey_fresh fun key hkey => (hid key hkey).1
  have horigin : ∀ {q k}, H.generateId (some q) k = s.runKey H id → q = p :=
    runKey_origin hfresh fun key hkey => (hid key hkey).2
  have hholds : ∀ {n}, n < s.started →
      ((s.start H p id definition).Holds (.nested n) ↔ s.Holds (.nested n)) := by
    intro n hn
    have hkey : (s.host (.nested n)).key ≠ s.runKey H id := fun heq => hnew ⟨n,hn,heq⟩
    change (s.runs.insert _ _).lookup ((s.start H p id definition).host (.nested n)).key = some n ↔ _
    rw [start_key hn,AList.lookup_insert_ne hkey]
    exact Iff.rfl
  exact {
    keys := by
      intro n m hn hm heq
      rcases Nat.lt_succ_iff_lt_or_eq.mp hn with hn | rfl <;>
        rcases Nat.lt_succ_iff_lt_or_eq.mp hm with hm | rfl
      · rw [start_key hn,start_key hm] at heq
        exact h.keys hn hm heq
      · rw [start_key hn,start_host_self] at heq
        exact absurd ⟨n,hn,heq⟩ hnew
      · rw [start_host_self,start_key hm] at heq
        exact absurd ⟨m,hm,heq.symm⟩ hnew
      · rfl
    held := by
      intro n hn hidle
      rcases Nat.lt_succ_iff_lt_or_eq.mp hn with hn | rfl
      · rw [hholds hn,start_host_ne fun heq => hn.ne (Party.nested.inj heq)]
        exact h.held hn hidle
      · refine iff_of_true ?_ (by rw [start_host_self]; rfl)
        change (s.runs.insert _ _).lookup ((s.start H p id definition).host (.nested s.started)).key = _
        rw [start_host_self]
        exact AList.lookup_insert _
    engaged := by
      intro q hq
      cases q with
      | task k => trivial
      | nested n => exact (hholds (hu.busy hq)).mpr (h.engaged _ hq)
    fresh := by
      intro q k hidle hk
      rcases start_started_iff.mp hk with hk | hk
      · exact absurd (horigin hk ▸ hp) hidle
      · have hne : q ≠ .nested s.started := by
          rintro rfl
          exact (h.known hk).false
        rw [start_host_ne hne]
        exact h.fresh hidle hk
    known := by
      intro m k hk
      refine Nat.lt_succ_of_lt ?_
      rcases start_started_iff.mp hk with hk | hk
      · exact hu.busy (horigin hk ▸ hp)
      · exact h.known hk
    generated := by
      intro k hk
      change k < if id.isSome then s.generated else s.generated+1
      rcases start_started_iff.mp hk with hk | hk
      · cases id with
        | none => exact (hfresh hk).2 ▸ Nat.lt_succ_self _
        | some key =>
          obtain ⟨k',hk'⟩ := (hid key rfl).2
          cases (hfresh (hk.trans hk')).1
      · have hlt := h.generated hk
        split <;> omega
    parents := by
      intro n hn
      rcases Nat.lt_succ_iff_lt_or_eq.mp hn with hn | rfl
      · rw [start_host_ne fun heq => hn.ne (Party.nested.inj heq)]
        exact h.parents hn
      · rw [start_host_self]
        cases id with
        | none => exact ⟨_,rfl⟩
        | some key => exact (hid key rfl).2
    doneOnce := h.doneOnce
    done := by
      intro q hq
      refine (h.done q hq).imp_right ?_
      rintro ⟨n,rfl,hn,hterminal⟩
      refine ⟨n,rfl,Nat.lt_succ_of_lt hn,?_⟩
      rw [start_host_ne fun heq => hn.ne (Party.nested.inj heq)]
      exact hterminal }

lemma start_spares (hfresh : H.Fresh) : Spares H busy id.toList s (s.start H p id definition) where
  done _ _ hq := hq
  started q _ k hk := by
    rcases start_started_iff.mp hk with hk | hk
    · cases id with
      | none => cases (hfresh hk).1
      | some key => exact .inr (hk ▸ List.mem_singleton_self _)
    · exact .inl hk

end Start

section CallBack
variable {key : String}

lemma callbacks_cases (s : Handler) (result : Option TaskResult) (p : Party) :
    s.callbacks result p = [] ∨ ∃ d, result.isSome = true ∧ s.callbacks result p = [d] := by
  cases result with
  | none => exact .inl rfl
  | some r =>
    cases hparent : (s.host p).parent with
    | none => exact .inl (by simp [callbacks,hparent])
    | some parent =>
      exact .inr ⟨(parent,(s.host p).key,toChildOutcome r),rfl,by simp only [callbacks,hparent]⟩

/-- What becomes of an interpreter once the calls that left it have returned. -/
def settle (s : Handler) (p : Party) (i : WorkflowInterpreter) (result : Option TaskResult) : Handler :=
  (s.put i p).callBack p (s.callbacks result p)

lemma settle_doneParties : (s.settle p i result).doneParties = s.doneParties ∨
    result.isSome = true ∧ (s.settle p i result).doneParties = p :: s.doneParties := by
  rcases callbacks_cases s result p with hnil | ⟨d,hresult,hone⟩
  · exact .inl (by rw [settle,hnil]; rfl)
  · exact .inr ⟨hresult,by rw [settle,hone]; rfl⟩

lemma settle_started_iff : (s.settle p i result).Started key ↔ s.Started key :=
  put_started_iff (s := s) (p := p) (i := i)

lemma Sane.settle (h : Sane H busy s) (hp : p ∈ busy) (hdone : p ∉ s.doneParties) :
    Sane H busy (s.settle p i result) := by
  rw [Handler.settle]
  rcases callbacks_cases s result p with hnil | ⟨d,hresult,hone⟩
  · rw [hnil]
    exact h.put hp
  · rw [hone]
    refine (h.put hp).record (e := .onDone p) ?_
    rintro _ ⟨⟩
    exact ⟨hdone,hp⟩

lemma settle_spares (hidle : p ∉ busy) : Spares H busy [] s (s.settle p i result) where
  done q hq hdone := by
    rcases settle_doneParties (s := s) (p := p) (i := i) with heq | ⟨-,heq⟩
    · rwa [heq] at hdone
    · rw [heq] at hdone
      exact (List.mem_cons.mp hdone).resolve_left (ne_of_mem_of_not_mem hq hidle)
  started _ _ _ hk := .inl (settle_started_iff.mp hk)

lemma finish_started_iff : (s.finish result p).Started key ↔ s.Started key := by
  rw [Started,finish_started,finish_host]
  exact Iff.rfl

lemma finish_doneParties : (s.finish result p).doneParties = s.doneParties := by
  rw [doneParties,finish_log]
  rfl

lemma finish_spares (p : Party) (result : Option TaskResult) : Spares H busy [] s (s.finish result p) where
  done _ _ hdone := finish_doneParties ▸ hdone
  started _ _ _ hk := .inl (finish_started_iff.mp hk)

end CallBack

section Jobs
variable {request : Request} {requests : List Request} {keys : List String}

/-- The awaited runs that these calls start are new. -/
structure Servable (H : HandlerSetup) (s : Handler) (p : Party) (requests : List Request) : Prop where
  nodup : (requests.filterMap Request.key?).Nodup
  keys : ∀ key ∈ requests.filterMap Request.key?, ¬ s.Started key ∧ ∃ k, key = H.generateId (some p) k

lemma Servable.tail (h : Servable H s p (request :: requests)) : Servable H s p requests := by
  have hsub := (List.sublist_cons_self request requests).filterMap Request.key?
  exact ⟨h.nodup.sublist hsub,fun key hkey => h.keys key (hsub.subset hkey)⟩

lemma Servable.spared (h : Servable H s p requests) (hp : p ∈ busy) (hs : Spares H busy keys s s')
    (hkeys : ∀ key ∈ requests.filterMap Request.key?, key ∉ keys) : Servable H s' p requests := by
  refine ⟨h.nodup,fun key hkey => ?_⟩
  obtain ⟨hnew,k,rfl⟩ := h.keys key hkey
  exact ⟨fun hmem => (hs.started p hp k hmem).elim hnew (hkeys _ hkey),k,rfl⟩

def Job.runKeys : Job → List String
  | .serve _ requests => (requests.map Prod.fst).filterMap Request.key?
  | _ => []

def Job.Ready (H : HandlerSetup) (s : Handler) : Job → Prop
  | .call _ c => c ≠ .cancel
  | .serve p requests => Servable H s p (requests.map Prod.fst)
  | .deliver _ => True

end Jobs

section Calls
variable {call : Call} {replies : List Reply}

lemma Sane.servable (hfresh : H.Fresh) (h : Sane H busy s) (hidle : p ∉ busy) (call : Call)
    (replies : List Reply) : Servable H s p
      ((s.host p).interpreter.world.requests (H.called p call (s.host p) replies).world) := by
  obtain ⟨events,hfollows⟩ := HandlerSetup.called_follows hfresh p call (s.host p) replies
  refine ⟨hfollows.keys_nodup,fun key hkey => ?_⟩
  obtain ⟨k,hle,-,rfl⟩ := hfollows.keys_fresh hkey
  exact ⟨fun hstarted => (h.fresh hidle hstarted).not_ge hle,k,rfl⟩

lemma Sane.finish (h₂ : Sane H (p :: busy) s₂) (hu₂ : Upright (anyRegime H) (p :: busy) s₂)
    (hidle : p ∉ busy) (hresult : ∀ n, p = .nested n →
      result.isSome = (s₂.host p).interpreter.state.isTerminal ∧ (s₂.host p).interpreter.Concluded)
    (hdone : (∀ n, p = .nested n → result = none) → p ∉ s₂.doneParties)
    (hstarted : ∀ k, s₂.Started (H.generateId (some p) k) → k < (s₂.host p).interpreter.world.nextChild) :
    Sane H busy (s₂.finish result p) := by
  cases p with
  | task k => exact h₂.release (by simp) (hdone (by simp)) hstarted
  | nested n =>
    obtain ⟨hcompletion,hconcluded⟩ := hresult n rfl
    cases result with
    | some r =>
      exact h₂.retire (hu₂.busy List.mem_cons_self) hidle (fun hm => hu₂.busy (List.mem_cons_of_mem _ hm))
        hcompletion.symm (fun _ => (hconcluded hcompletion.symm).1) hstarted
    | none => exact h₂.release (fun _ _ => hcompletion.symm) (hdone fun _ _ => rfl) hstarted

/-- A whole call: the calls that leave the interpreter are served with these keys, then the callback is
delivered, then the run is let go if it is over. -/
lemma Sane.afterCall (hfresh : H.Fresh) (hu : Upright (anyRegime H) busy s) (h : Sane H busy s)
    (hidle : p ∉ busy) (hheld : s.Holds p) (hcall : call ≠ .cancel)
    (hi : i = H.called p call (s.host p) replies)
    (hresult : result = (s.host p).interpreter.world.completion i.world) {keys : List String}
    (hkeys : ∀ key ∈ keys, ∃ k < i.world.nextChild, key = H.generateId (some p) k)
    (hu₁ : Upright (anyRegime H) (p :: busy) s₁) (hhost₁ : s₁.host p = s.host p)
    (h₁ : Sane H (p :: busy) s₁) (hspares₁ : Spares H (p :: busy) keys s s₁)
    (hu₂ : Upright (anyRegime H) (p :: busy) s₂) (hhost₂ : s₂.host p = (s₁.settle p i result).host p)
    (hdone : Sane H (p :: busy) (s₁.settle p i result) →
      Sane H (p :: busy) s₂ ∧ Spares H (p :: busy) [] (s₁.settle p i result) s₂) :
    Sane H busy (s₂.finish result p) ∧ Spares H busy [] s (s₂.finish result p) := by
  have hnew : p ∉ s₁.doneParties := by
    intro hp
    rcases h.done p (hspares₁.done p List.mem_cons_self hp) with hbusy | ⟨n,rfl,hn,hterminal,-⟩
    · exact hidle hbusy
    · simp [(h.held hn hidle).mp hheld] at hterminal
  obtain ⟨h₂,hspares₂⟩ := hdone (h₁.settle List.mem_cons_self hnew)
  have hi₂ : (s₂.host p).interpreter = i := by
    rw [hhost₂]
    exact congrArg Hosted.interpreter put_host_self
  have hstarted : ∀ k, s₂.Started (H.generateId (some p) k) → k < i.world.nextChild := by
    intro k hk
    have hk₁ := (hspares₂.started p List.mem_cons_self k hk).resolve_right List.not_mem_nil
    rcases hspares₁.started p List.mem_cons_self k (settle_started_iff.mp hk₁) with hk | hk
    · obtain ⟨events,hfollows⟩ := HandlerSetup.called_follows hfresh p call (s.host p) replies
      exact (h.fresh hidle hk).trans_le (hi ▸ hfollows.nextChild)
    · obtain ⟨k',hk',heq⟩ := hkeys _ hk
      exact (hfresh heq).2 ▸ hk'
  refine ⟨h₂.finish hu₂ hidle ?_ ?_ (hi₂ ▸ hstarted),?_⟩
  · rintro n rfl
    have hlive := (h.held (hu.runs hheld).1 hidle).mp hheld
    rw [hi₂,hresult,hi]
    exact ⟨HandlerSetup.completion_isSome hfresh (hu.inv _) hlive hcall replies,
      HandlerSetup.called_concluded hlive hcall replies⟩
  · intro hnone hp
    have hp₁ := hspares₂.done p List.mem_cons_self hp
    have hnil : s₁.callbacks result p = [] := by
      cases p with
      | task k => cases result <;> simp [callbacks,(hu₁.tasks k).2]
      | nested n => rw [hnone n rfl]; rfl
    rw [Handler.settle,hnil] at hp₁
    exact hnew hp₁
  · have hsub : ∀ q ∈ busy, q ∈ p :: busy := fun q => List.mem_cons_of_mem p
    have hspares := (((hspares₁.mono hsub).trans (settle_spares (i := i) hidle)).trans
      (hspares₂.mono hsub)).trans (finish_spares p result)
    refine ⟨hspares.done,fun q hq k hk => .inl ?_⟩
    refine (hspares.started q hq k hk).resolve_right fun hmem => ?_
    obtain ⟨k',-,heq⟩ := hkeys _ (by simpa using hmem)
    exact hidle (Option.some.inj (hfresh heq).1 ▸ hq)

end Calls

lemma refuse_spares : Spares H busy [] s (s.refuse p definition) :=
  ⟨fun _ _ hdone => hdone,fun _ _ _ hk => .inl hk⟩

lemma Job.permits_any (s : Handler) : job.Permits (anyRegime H) s := by
  cases job with
  | call p c => exact fun _ _ _ => trivial
  | serve p requests => exact fun _ _ _ _ => trivial
  | deliver ds => trivial

theorem Does.sane (hfresh : H.Fresh) {outs : List Delivery}
    (hdoes : Does H busy s job s' outs) (hu : Upright (anyRegime H) busy s) (h : Sane H busy s)
    (hwithin : job.Within busy) (hready : job.Ready H s) :
    Sane H busy s' ∧ Spares H busy job.runKeys s s' := by
  induction hdoes with
  | gone => exact ⟨h,.refl⟩
  | @call busy s s₁ s₂ p call i requests result outs outs' hidle hheld hcall hrequests hresult hserve hdone
      ihserve ihdone =>
    have hservable := h.servable hfresh hidle call (requests.map Prod.snd)
    obtain ⟨events,hfollows⟩ := HandlerSetup.called_follows hfresh p call (s.host p) (requests.map Prod.snd)
    have hkeys := @World.Follows.keys_fresh _ _ _ _ hfollows
    rw [← hcall,hrequests] at hservable hkeys
    have hengaged := hu.engage hheld
    obtain ⟨hu₁,hhost₁⟩ := hserve.upright hengaged (Job.permits_any s) List.mem_cons_self
    obtain ⟨h₁,hspares₁⟩ := ihserve hengaged (h.engage hheld) List.mem_cons_self hservable
    have hinv := HandlerSetup.called_inv (hu.inv p) call (requests.map Prod.snd)
    rw [← hcall,← hhost₁ p List.mem_cons_self] at hinv
    have husettled : Upright (anyRegime H) (p :: busy) (s₁.settle p i result) := (hu₁.put hinv trivial).callBack
    obtain ⟨hu₂,hhost₂⟩ := hdone.upright husettled (Job.permits_any _) trivial
    refine h.afterCall hfresh hu hidle hheld hready hcall hresult (fun key hkey => ?_) hu₁
      (hhost₁ p List.mem_cons_self) h₁ hspares₁ hu₂ (hhost₂ p List.mem_cons_self)
      fun hsettled => ihdone husettled hsettled trivial trivial
    obtain ⟨k,-,hk,heq⟩ := hkeys hkey
    exact ⟨k,hk,heq⟩
  | served => exact ⟨h,.refl⟩
  | submit hinside _ ihinside ihrest =>
    obtain ⟨hu₁,-⟩ := hinside.upright hu (Job.permits_any _) trivial
    obtain ⟨h₁,hspares₁⟩ := ihinside hu h trivial trivial
    obtain ⟨h₂,hspares₂⟩ := ihrest hu₁ h₁ hwithin
      (hready.tail.spared hwithin hspares₁ fun _ _ => List.not_mem_nil)
    exact ⟨h₂,hspares₁.trans hspares₂⟩
  | @refuse busy s s' p id definition input requests outs hdepth _ ihrest =>
    have hspares : Spares H busy [] s (s.refuse p definition) := refuse_spares
    obtain ⟨h',hspares'⟩ := ihrest (hu.refuse hdepth trivial) (h.record (e := .refused _ _) (by rintro _ ⟨⟩)) hwithin
      (hready.tail.spared hwithin hspares fun _ _ => List.not_mem_nil)
    refine ⟨h',(hspares.trans hspares').more fun key hkey => ?_⟩
    exact ((List.sublist_cons_self _ _).filterMap Request.key?).subset hkey
  | @start busy s s₁ s₂ p id definition input requests outs outs' hdepth hinside _ ihinside ihrest =>
    have hid : ∀ key ∈ id, ¬ s.Started key ∧ ∃ k, key = H.generateId (some p) k :=
      fun key hkey => hready.keys key (List.mem_filterMap.mpr ⟨_,List.mem_cons_self,hkey⟩)
    have hustart : Upright (anyRegime H) busy (s.start H p id definition) := hu.start hdepth trivial
    obtain ⟨hu₁,-⟩ := hinside.upright hustart (Job.permits_any _) trivial
    obtain ⟨h₁,hspares₁⟩ := ihinside hustart (h.start hfresh hu hwithin hid) trivial (by simp [Job.Ready])
    have hkeys : (Job.serve p ((.startRun id definition input,⟨outcomesFor p outs,.ok ()⟩) ::
        requests)).runKeys = id.toList ++ (Job.serve p requests).runKeys := by
      cases id <;> rfl
    have hnodup : (id.toList ++ (Job.serve p requests).runKeys).Nodup := hkeys ▸ hready.nodup
    have hspares : Spares H busy (id.toList ++ []) s s₁ := (start_spares hfresh).trans hspares₁
    rw [List.append_nil] at hspares
    obtain ⟨h₂,hspares₂⟩ := ihrest hu₁ h₁ hwithin (hready.tail.spared hwithin hspares fun key hkey hmem =>
      List.disjoint_of_nodup_append hnodup hmem hkey)
    exact ⟨h₂,hkeys ▸ hspares.trans hspares₂⟩
  | delivered => exact ⟨h,.refl⟩
  | queue _ _ ih => exact ih hu h trivial trivial
  | pass _ hcall _ ihcall ihrest =>
    obtain ⟨hu₁,-⟩ := hcall.upright hu (Job.permits_any _) trivial
    obtain ⟨h₁,hspares₁⟩ := ihcall hu h trivial (by simp [Job.Ready])
    obtain ⟨h₂,hspares₂⟩ := ihrest hu₁ h₁ trivial trivial
    exact ⟨h₂,hspares₁.trans hspares₂⟩

section Cancel
variable {G : Regime H}

lemma Sane.cancelNested (hfresh : H.Fresh) (hu : Upright (anyRegime H) [] s) (h : Sane H [] s)
    (hheld : s.Holds (.nested n)) :
    Sane H [] ({ s with runs := s.runs.erase (s.host (.nested n)).key }.cancelOne H (.nested n)) := by
  have hn : n < s.started := (hu.runs hheld).1
  have hlive := (h.held hn List.not_mem_nil).mp hheld
  have hstate := HandlerSetup.called_cancel_state (H := H) hlive (.nested n) []
  obtain ⟨events,hfollows⟩ := HandlerSetup.called_follows hfresh (.nested n) .cancel (s.host (.nested n)) []
  have hput := (h.engage hheld).put (i := H.called (.nested n) .cancel (s.host (.nested n)) [])
    List.mem_cons_self
  have hretired := hput.retire (n := n) hn List.not_mem_nil (by simp) (by rw [put_host_self,hstate]; rfl)
    (fun hdone => ?_) fun k hk => ?_
  · rw [put_key] at hretired
    exact hretired
  · rcases h.done _ hdone with hbusy | ⟨m,heq,-,hterminal,-⟩
    · cases hbusy
    · simp [hlive] at hterminal
  · rw [put_host_self]
    exact (h.fresh List.not_mem_nil (put_started_iff.mp hk)).trans_le hfollows.nextChild

theorem Sane.cancelRun (hfresh : H.Fresh) (hu : Upright (anyRegime H) [] s) (h : Sane H [] s) (k : ℕ)
    (key : String) : Sane H [] (cancelRun H k s key) := by
  induction k generalizing s key with
  | zero => exact h
  | succ k ih =>
    rw [Handler.cancelRun]
    split
    · exact h
    · next n hn =>
      have hkey := (hu.runs hn).2
      have hcancelled := h.cancelNested (n := n) hfresh hu (by rw [Holds,hkey]; exact hn)
      rw [hkey] at hcancelled
      refine (List.foldlRecOn _ _ (motive := fun s => Upright (anyRegime H) [] s ∧ Sane H [] s)
        ⟨(hu.erase key).cancelOne _,hcancelled⟩ ?_).2
      exact fun s hs _ _ => ⟨hs.1.cancelRun _ _,ih hs.1 hs.2 _⟩

theorem Sane.cancel (hfresh : H.Fresh) (hu : Upright (anyRegime H) [] s) (h : Sane H [] s) (p : Party) :
    Sane H [] (s.cancel H p) := by
  cases p with
  | nested n =>
    rw [Handler.cancel]
    split
    · exact h.cancelRun hfresh hu _ _
    · exact h
  | task k =>
    obtain ⟨events,hfollows⟩ := HandlerSetup.called_follows hfresh (.task k) .cancel (s.host (.task k)) []
    have hput := (h.engage (p := .task k) trivial).put
      (i := H.called (.task k) .cancel (s.host (.task k)) []) List.mem_cons_self
    have hreleased := hput.release (by simp) (fun hdone => ?_) fun j hj => ?_
    · refine (List.foldlRecOn _ _ (motive := fun s => Upright (anyRegime H) [] s ∧ Sane H [] s)
        ⟨hu.cancelOne _,hreleased⟩ ?_).2
      exact fun s hs _ _ => ⟨hs.1.cancelRun _ _,hs.2.cancelRun hfresh hs.1 _ _⟩
    · rcases h.done _ hdone with hbusy | ⟨m,heq,-⟩
      · cases hbusy
      · cases heq
    · rw [put_host_self]
      exact (h.fresh List.not_mem_nil (put_started_iff.mp hj)).trans_le hfollows.nextChild

end Cancel

theorem Runs.sane (hfresh : H.Fresh) {stimuli : List Stimulus} (h : Runs H stimuli s) : Sane H [] s := by
  induction h with
  | initial => exact .initial
  | @step s s' stimulus stimuli hruns hstep ih =>
    have hu := hruns.upright (anyRegime H) fun _ _ _ _ => trivial
    cases hstep with
    | start hdoes => exact (hdoes.sane hfresh hu ih trivial (by simp [Job.Ready])).1
    | outcome hdoes => exact (hdoes.sane hfresh hu ih trivial (by simp [Job.Ready])).1
    | cancel => exact ih.cancel hfresh hu _

end Handler
end Strij.OpenWorkflow
