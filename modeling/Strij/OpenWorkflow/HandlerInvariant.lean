import Strij.Lib.FiniteMap
import Strij.OpenWorkflow.Calls

/-! What holds of every interpreter of the handler, inside calls and between them. An interpreter that is
busy is left alone by everything that happens meanwhile. -/
namespace Strij.OpenWorkflow
open Strij.Lib (lookup_erase_eq_some)

/-- What every interpreter is to be like, and which texts may be started at a depth. -/
structure Regime (H : HandlerSetup) where
  Holds : Party → Hosted → Prop
  Startable : ℕ → String → Prop
  created : ∀ p key depth parent, Holds p { key := key, depth := depth, parent := parent }
  called : ∀ {p h} (call : Call) (replies : List Reply), Holds p h →
    (∀ text input, call = .start text input → Startable h.depth text) →
      Holds p { h with interpreter := H.called p call h replies }
  nested : ∀ {p h} {id : Option String} {definition input : String}, Holds p h →
    .startRun id definition input ∈ h.interpreter.world.log → Startable (h.depth+1) definition

/-- Runs are nested; they are started up to the limit and refused beyond it. -/
def RunnerEvent.Allowed {H : HandlerSetup} (G : Regime H) : RunnerEvent → Prop
  | .started _ depth definition =>
    depth ≠ 0 ∧ depth ≤ kDefaultEmbeddedNestingLimit ∧ G.Startable depth definition
  | .refused depth definition =>
    depth ≠ 0 ∧ kDefaultEmbeddedNestingLimit < depth ∧ G.Startable depth definition
  | .onDone _ => True

namespace Handler
variable {H : HandlerSetup} {G : Regime H} {busy : List Party} {s s' : Handler} {p q : Party}
  {i : WorkflowInterpreter} {result : Option TaskResult} {ds : List Delivery} {id : Option String}
  {definition : String}

section Host

lemma put_host_self : (s.put i p).host p = { s.host p with interpreter := i } := Function.update_self _ _ _

lemma put_host_ne (h : q ≠ p) : (s.put i p).host q = s.host q := Function.update_of_ne h _ _

@[simp] lemma put_key : ((s.put i p).host q).key = (s.host q).key := by
  by_cases hq : q = p
  · rw [hq,put_host_self]
  · rw [put_host_ne hq]

@[simp] lemma put_depth : ((s.put i p).host q).depth = (s.host q).depth := by
  by_cases hq : q = p
  · rw [hq,put_host_self]
  · rw [put_host_ne hq]

@[simp] lemma put_parent : ((s.put i p).host q).parent = (s.host q).parent := by
  by_cases hq : q = p
  · rw [hq,put_host_self]
  · rw [put_host_ne hq]

lemma start_host_self : (s.start H p id definition).host (.nested s.started) =
    { key := s.runKey H id, depth := (s.host p).depth+1, parent := id.map (fun _ => p) } :=
  Function.update_self _ _ _

lemma start_host_ne (h : q ≠ .nested s.started) : (s.start H p id definition).host q = s.host q :=
  Function.update_of_ne h _ _

@[simp] lemma finish_host : (s.finish result p).host = s.host := by
  cases p with
  | task k => rfl
  | nested n =>
    rw [finish]
    split <;> rfl

@[simp] lemma finish_started : (s.finish result p).started = s.started := by
  cases p with
  | task k => rfl
  | nested n =>
    rw [finish]
    split <;> rfl

@[simp] lemma finish_log : (s.finish result p).log = s.log := by
  cases p with
  | task k => rfl
  | nested n =>
    rw [finish]
    split <;> rfl

lemma finish_lookup {key : String} {n : ℕ} (h : (s.finish result p).runs.lookup key = some n) :
    s.runs.lookup key = some n := by
  cases p with
  | task k => exact h
  | nested m =>
    rw [finish] at h
    split at h
    · exact (lookup_erase_eq_some h).2
    · exact h

end Host

/-- The interpreters are as they should be while these are busy. -/
structure Upright (G : Regime H) (busy : List Party) (s : Handler) : Prop where
  inv : ∀ p, (s.host p).interpreter.Inv (H.setup p (s.host p).key)
  holds : ∀ p, G.Holds p (s.host p)
  allowed : ∀ e ∈ s.log, e.Allowed G
  runs : ∀ {key n}, s.runs.lookup key = some n → n < s.started ∧ (s.host (.nested n)).key = key
  busy : ∀ {n}, .nested n ∈ busy → n < s.started
  tasks : ∀ k, (s.host (.task k)).depth = 0 ∧ (s.host (.task k)).parent = none

namespace Upright

lemma initial : Upright G [] (initial H) where
  inv p := by cases p <;> exact WorkflowInterpreter.create_inv _
  holds p := by cases p <;> exact G.created _ _ _ _
  allowed := by simp [Handler.initial]
  runs h := by cases h
  busy h := by cases h
  tasks _ := ⟨rfl,rfl⟩

variable (h : Upright G busy s)
include h

lemma engage (hheld : s.Holds p) : Upright G (p :: busy) s where
  inv := h.inv
  holds := h.holds
  allowed := h.allowed
  runs := h.runs
  busy hmem := by
    rcases List.mem_cons.mp hmem with rfl | hmem
    · exact (h.runs hheld).1
    · exact h.busy hmem
  tasks := h.tasks

omit h in
lemma release (h : Upright G (p :: busy) s) : Upright G busy s :=
  ⟨h.inv,h.holds,h.allowed,h.runs,fun hmem => h.busy (List.mem_cons_of_mem _ hmem),h.tasks⟩

lemma put (hinv : i.Inv (H.setup p (s.host p).key))
    (hholds : G.Holds p { s.host p with interpreter := i }) : Upright G busy (s.put i p) where
  inv q := by
    by_cases hq : q = p
    · subst hq
      rw [put_host_self]
      exact hinv
    · rw [put_host_ne hq]
      exact h.inv q
  holds q := by
    by_cases hq : q = p
    · subst hq
      rw [put_host_self]
      exact hholds
    · rw [put_host_ne hq]
      exact h.holds q
  allowed := h.allowed
  runs hlookup := by
    rw [put_key]
    exact h.runs hlookup
  busy := h.busy
  tasks k := ⟨put_depth.trans (h.tasks k).1,put_parent.trans (h.tasks k).2⟩

lemma callBack : Upright G busy (s.callBack p ds) where
  inv := h.inv
  holds := h.holds
  allowed e he := by
    rcases List.mem_append.mp he with he | he
    · obtain ⟨_,-,rfl⟩ := List.mem_map.mp he
      trivial
    · exact h.allowed e he
  runs := h.runs
  busy := h.busy
  tasks := h.tasks

lemma finish : Upright G busy (s.finish result p) where
  inv := by rw [finish_host]; exact h.inv
  holds := by rw [finish_host]; exact h.holds
  allowed := by rw [finish_log]; exact h.allowed
  runs hlookup := by
    rw [finish_host,finish_started]
    exact h.runs (finish_lookup hlookup)
  busy := by rw [finish_started]; exact h.busy
  tasks := by rw [finish_host]; exact h.tasks

lemma refuse (hdepth : kDefaultEmbeddedNestingLimit < (s.host p).depth+1)
    (hstartable : G.Startable ((s.host p).depth+1) definition) : Upright G busy (s.refuse p definition) :=
  ⟨h.inv,h.holds,List.forall_mem_cons.mpr ⟨⟨Nat.succ_ne_zero _,hdepth,hstartable⟩,h.allowed⟩,h.runs,
    h.busy,h.tasks⟩

lemma start (hdepth : (s.host p).depth+1 ≤ kDefaultEmbeddedNestingLimit)
    (hstartable : G.Startable ((s.host p).depth+1) definition) :
    Upright G busy (s.start H p id definition) where
  inv q := by
    by_cases hq : q = .nested s.started
    · subst hq
      rw [start_host_self]
      exact WorkflowInterpreter.create_inv _
    · rw [start_host_ne hq]
      exact h.inv q
  holds q := by
    by_cases hq : q = .nested s.started
    · subst hq
      rw [start_host_self]
      exact G.created _ _ _ _
    · rw [start_host_ne hq]
      exact h.holds q
  allowed := List.forall_mem_cons.mpr ⟨⟨Nat.succ_ne_zero _,hdepth,hstartable⟩,h.allowed⟩
  runs {key n} hlookup := by
    by_cases hkey : key = s.runKey H id
    · subst hkey
      cases (AList.lookup_insert _).symm.trans hlookup
      rw [start_host_self]
      exact ⟨Nat.lt_succ_self _,rfl⟩
    · obtain ⟨hn,hhost⟩ := h.runs ((AList.lookup_insert_ne hkey).symm.trans hlookup)
      rw [start_host_ne fun heq => hn.ne (Party.nested.inj heq)]
      exact ⟨Nat.lt_succ_of_lt hn,hhost⟩
  busy hmem := Nat.lt_succ_of_lt (h.busy hmem)
  tasks k := by
    rw [start_host_ne (by simp)]
    exact h.tasks k

lemma start_host (hq : q ∈ busy) : (s.start H p id definition).host q = s.host q := by
  refine start_host_ne ?_
  rintro rfl
  exact (h.busy hq).false

lemma called {call : Call}
    (hstartable : ∀ text input, call = .start text input → G.Startable (s.host p).depth text)
    (replies : List Reply) : G.Holds p { s.host p with interpreter := H.called p call (s.host p) replies } :=
  G.called call replies (h.holds p) hstartable

end Upright

def Job.Permits (G : Regime H) (s : Handler) : Job → Prop
  | .call p c => ∀ text input, c = .start text input → G.Startable (s.host p).depth text
  | .serve p requests => ∀ id definition input, .startRun id definition input ∈ requests.map Prod.fst →
      G.Startable ((s.host p).depth+1) definition
  | .deliver _ => True

def Job.Within (busy : List Party) : Job → Prop
  | .serve p _ => p ∈ busy
  | _ => True

theorem Does.upright {job : Job} {outs : List Delivery} (hdoes : Does H busy s job s' outs)
    (h : Upright G busy s) (hjob : job.Permits G s) (hwithin : job.Within busy) :
    Upright G busy s' ∧ ∀ p ∈ busy, s'.host p = s.host p := by
  induction hdoes with
  | gone => exact ⟨h,fun _ _ => rfl⟩
  | @call busy s s₁ s₂ p call i requests result outs outs' hidle hheld hcall hrequests _ _ _ ihserve ihdone =>
    have hholds := h.called hjob (requests.map Prod.snd)
    rw [← hcall] at hholds
    obtain ⟨h₁,hhost₁⟩ := ihserve (h.engage hheld)
      (fun _ _ _ hmem => G.nested (h := { s.host p with interpreter := i }) hholds (World.mem_requests (hrequests ▸ hmem))) List.mem_cons_self
    have hp := hhost₁ p List.mem_cons_self
    have hinv := HandlerSetup.called_inv (h.inv p) call (requests.map Prod.snd)
    rw [← hcall,← hp] at hinv
    rw [← hp] at hholds
    obtain ⟨h₂,hhost₂⟩ := ihdone (h₁.put hinv hholds).callBack trivial trivial
    refine ⟨h₂.release.finish,fun q hq => ?_⟩
    have hne : q ≠ p := ne_of_mem_of_not_mem hq hidle
    rw [finish_host,hhost₂ q (List.mem_cons_of_mem _ hq)]
    exact (put_host_ne hne).trans (hhost₁ q (List.mem_cons_of_mem _ hq))
  | served => exact ⟨h,fun _ _ => rfl⟩
  | submit _ _ ihinside ihrest =>
    obtain ⟨h₁,hhost₁⟩ := ihinside h trivial trivial
    obtain ⟨h₂,hhost₂⟩ := ihrest h₁ (fun _ _ _ hmem => by
      rw [hhost₁ _ hwithin]
      exact hjob _ _ _ (List.mem_cons_of_mem _ hmem)) hwithin
    exact ⟨h₂,fun q hq => (hhost₂ q hq).trans (hhost₁ q hq)⟩
  | refuse hdepth _ ihrest =>
    exact ihrest (h.refuse hdepth (hjob _ _ _ List.mem_cons_self)) (fun _ _ _ hmem => hjob _ _ _ (List.mem_cons_of_mem _ hmem))
      hwithin
  | @start busy s s₁ s₂ p id definition input requests outs outs' hdepth _ _ ihinside ihrest =>
    have hstartable := hjob _ _ _ List.mem_cons_self
    obtain ⟨h₁,hhost₁⟩ := ihinside (h.start hdepth hstartable) (fun text input heq => by
      cases heq
      rw [start_host_self]
      exact hstartable) trivial
    have hhost : ∀ q ∈ busy, s₁.host q = s.host q := fun q hq => (hhost₁ q hq).trans (h.start_host hq)
    obtain ⟨h₂,hhost₂⟩ := ihrest h₁ (fun _ _ _ hmem => by
      rw [hhost p hwithin]
      exact hjob _ _ _ (List.mem_cons_of_mem _ hmem)) hwithin
    exact ⟨h₂,fun q hq => (hhost₂ q hq).trans (hhost q hq)⟩
  | delivered => exact ⟨h,fun _ _ => rfl⟩
  | queue _ _ ih => exact ih h trivial trivial
  | pass _ _ _ ihcall ihrest =>
    obtain ⟨h₁,hhost₁⟩ := ihcall h (by simp [Job.Permits]) trivial
    obtain ⟨h₂,hhost₂⟩ := ihrest h₁ trivial trivial
    exact ⟨h₂,fun q hq => (hhost₂ q hq).trans (hhost₁ q hq)⟩

namespace Upright

variable (h : Upright G busy s)
include h

lemma cancelOne (p : Party) : Upright G busy (s.cancelOne H p) :=
  h.put (HandlerSetup.called_inv (h.inv p) .cancel []) (h.called (by simp) [])

lemma erase (key : String) : Upright G busy { s with runs := s.runs.erase key } :=
  ⟨h.inv,h.holds,h.allowed,fun hlookup => h.runs (lookup_erase_eq_some hlookup).2,h.busy,h.tasks⟩

lemma cancelRun (k : ℕ) (key : String) : Upright G busy (cancelRun H k s key) := by
  induction k generalizing s key with
  | zero => exact h
  | succ k ih =>
    rw [Handler.cancelRun]
    split
    · exact h
    · exact List.foldlRecOn _ _ ((h.erase key).cancelOne _) fun _ h _ _ => ih h _

lemma cancel (p : Party) : Upright G busy (s.cancel H p) := by
  cases p with
  | nested n =>
    rw [Handler.cancel]
    split
    · exact h.cancelRun _ _
    · exact h
  | task k => exact List.foldlRecOn _ _ (h.cancelOne _) fun _ h _ _ => h.cancelRun _ _

end Upright

theorem Runs.upright (G : Regime H) {stimuli : List Stimulus} (h : Runs H stimuli s)
    (htexts : ∀ k text input, .start k text input ∈ stimuli → G.Startable 0 text) : Upright G [] s := by
  induction h with
  | initial => exact .initial
  | step _ hstep ih =>
    have hupright := ih fun k text input hmem => htexts k text input (List.mem_cons_of_mem _ hmem)
    cases hstep with
    | start hdoes =>
      refine (hdoes.upright hupright ?_ trivial).1
      rintro _ _ ⟨⟩
      rw [(hupright.tasks _).1]
      exact htexts _ _ _ List.mem_cons_self
    | outcome hdoes => exact (hdoes.upright hupright (by simp [Job.Permits]) trivial).1
    | cancel => exact hupright.cancel _

end Handler
end Strij.OpenWorkflow
