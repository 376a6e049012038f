import Strij.OpenWorkflow.Transitions

/-! Rules that the frames of a run keep, whatever the steps are to be like and whatever is to hold of the world
before a step and after it. -/
namespace Strij.OpenWorkflow

def TaskBody.sequences {τ : Type} : TaskBody τ → List (List τ)
  | .do_ tasks => [tasks]
  | .for_ body => [body.do_]
  | .fork body => body.branches.map (fun branch => [branch])
  | _ => []

def Event.isDefect : Event → Bool
  | .defect _ => true
  | _ => false

def Event.ofFrames : Event → Bool
  | .setState _ _ | .complete _ | .concluded _ | .cancelRun _ | .deliver _ _ | .dangling _
  | .submit _ _ | .startRun _ _ _ => false
  | _ => true

lemma Event.asksFor_of_ofFrames {e : Event} (h : e.ofFrames = true) : e.asksFor = none := by
  cases e <;> first | rfl | cases h

def Permissive (ok : Event → Prop) : Prop :=
  ∀ e : Event, e.asksFor = none → e.isDefect = false → ok e

structure Terms.Allowed (ok : Event → Prop) (names : List String) (T : Terms) : Prop where
  directs : ∀ {then_ message}, T.directs then_ → resolveFlowDirective names then_ = .error message →
    ok (.defect .flowDirective)
  asks : ∀ {id e}, T.asks id e → ok e
  defects : ∀ {d}, T.defects d → ok (.defect d)

structure Descends {β : Type} (ok : Event → Prop)
    (valid : List (NamedTask (TaskBody (NamedTask β))) → Prop) (validNested : List (NamedTask β) → Prop) :
    Prop where
  terms : ∀ {steps step}, valid steps → step ∈ steps →
    (Terms.of step).Allowed ok (steps.map NamedTask.name)
  loops : ∀ {steps step}, valid steps → step ∈ steps →
    Container.misnamesLoop step.task.body = true → ok (.defect .loopVariables)
  nested : ∀ {steps step}, valid steps → step ∈ steps → ∀ l ∈ step.task.body.sequences, validNested l

def FrameResult.Fine (fine : ExecutionFailure → Prop) : FrameResult → Prop
  | .failed failure => fine failure
  | _ => True

def ExecutionFailure.Honest (failure : ExecutionFailure) : Prop := failure.status ≠ .ok

/-- What is kept while frames run: of the world in which a step is taken up, and of the world it leaves behind, by
its result. -/
structure Rule where
  before : World → Prop
  after : Option FrameResult → World → Prop
  fine : ExecutionFailure → Prop
  forks : Prop

namespace Rule
variable (P : Rule)

/-- The rule goes on holding while no child is asked for. Between the branches of a fork it holds whatever a
branch comes to. -/
structure Lawful : Prop where
  leave : ∀ {w}, P.before w → ∀ r, P.after r w
  next : ∀ {w}, P.after none w → P.before w
  completed : ∀ {w value}, P.after (some (.completed value)) w → P.before w
  fail : ∀ {w failure}, P.after (some .suspended) w → P.after (some (.failed failure)) w
  context : ∀ {w : World}, P.before w → ∀ c, P.before { w with context := c }
  frames : ∀ {w : World}, P.before w → ∀ k, P.before { w with nextFrame := w.nextFrame+k }
  record : ∀ {w e}, P.before w → e.ofFrames = true → e.isDefect = false → P.before (w.record e)
  honest : ∀ {failure}, failure.Honest → P.fine failure
  alike : ∀ {failure failure' : ExecutionFailure}, P.fine failure → failure'.status = failure.status → P.fine failure'
  fork : P.forks → ∀ {r w}, P.after r w → P.before w
  forget : P.forks → ∀ {w} id, P.before w → P.before (w.forgetChild id)

structure Asked (id : String) (w : World) : Prop where
  wait : P.after (some .suspended) w
  resume : ∀ outcome, w.pending.lookup id = some outcome → P.before (w.drop id)
  refuse : ∀ failure, P.after (some (.failed failure)) (w.forgetChild id)

/-- What a step can bring about keeps the rule, in a sequence of these names. -/
structure Allows (setup : Setup) (names : List String) (T : Terms) : Prop where
  directs : ∀ {then_ message w}, T.directs then_ → resolveFlowDirective names then_ = .error message →
    P.before w → P.before (w.record (.defect .flowDirective))
  defects : ∀ {d w}, T.defects d → P.before w → P.before (w.record (.defect d))
  asks : ∀ {e} {w : World} (owner : FrameId), T.asks (some (setup.freshId w.nextChild)) e → P.before w →
    P.Asked (setup.freshId w.nextChild) ((w.register (setup.freshId w.nextChild) owner).record e).converse.2
  detaches : ∀ {e w}, T.asks none e → P.before w → P.before (w.record e).converse.2

structure Descends {β : Type} (setup : Setup) (valid : List (NamedTask (TaskBody (NamedTask β))) → Prop)
    (validNested : List (NamedTask β) → Prop) : Prop where
  terms : ∀ {steps step}, valid steps → step ∈ steps → P.Allows setup (steps.map NamedTask.name) (Terms.of step)
  loops : ∀ {steps step w}, valid steps → step ∈ steps → Container.misnamesLoop step.task.body = true →
    P.before w → P.before (w.record (.defect .loopVariables))
  nested : ∀ {steps step}, valid steps → step ∈ steps → ∀ l ∈ step.task.body.sequences, validNested l
  forks : ∀ {steps step body}, valid steps → step ∈ steps → step.task.body = .fork body → P.forks

structure Passed {α : Type} (good : α → Prop) (r : Option FrameResult × α × World) : Prop where
  result : r.1.elim True (FrameResult.Fine P.fine)
  frame : good r.2.1
  world : P.after r.1 r.2.2

abbrev Left {α : Type} (good : α → Prop) (r : FrameResult × α × World) : Prop := P.Passed good (some r.1,r.2)

variable {P}

lemma recordIf {w : World} (hw : P.before w) {b : Bool} {e : Event}
    (he : b = true → P.before w → P.before (w.record e)) : P.before (w.recordIf b e) := by
  rw [World.recordIf]
  split
  · next hb => exact he hb hw
  · exact hw

lemma Lawful.forgetWaiting (hP : P.Lawful) (hforks : P.forks) {w : World} (hw : P.before w) (id? : Option String) :
    P.before (match id? with
      | some id => w.forgetChild id
      | none => w) := by
  cases id? with
  | some id => exact hP.forget hforks id hw
  | none => exact hw

/-- The directives of valid sequences resolve, or their failure keeps the rule. -/
def Resolves {β : Type} (P : Rule) (valid : List (NamedTask β) → Prop) : Prop :=
  ∀ steps, valid steps → ∀ step ∈ steps, ∀ message w,
    resolveFlowDirective (steps.map NamedTask.name) (stepThen step) = .error message →
      P.before w → P.before (w.record (.defect .flowDirective))

lemma Descends.resolves {β : Type} {setup : Setup} {valid : List (NamedTask (TaskBody (NamedTask β))) → Prop}
    {validNested : List (NamedTask β) → Prop} (h : P.Descends setup valid validNested) : P.Resolves valid :=
  fun _ hsteps _ hstep _ _ => (h.terms hsteps hstep).directs (.inl rfl)

end Rule

section Frames
variable {β κ : Type} (fine : ExecutionFailure → Prop) (forks : Prop) (valid : List (NamedTask β) → Prop)

/-- The steps are valid, the failures that the frame keeps are fine, and its nested container is as it
should be. -/
structure SequenceFrame.Orderly (good : κ → Prop) (f : SequenceFrame β κ) : Prop where
  steps : valid f.steps
  failure : ∀ failure ∈ f.failure, fine failure
  pendingResult : ∀ r ∈ f.pendingResult, r.Fine fine
  child : ∀ c ∈ f.child, good c

structure ForFrame.Orderly (good : SequenceFrame β κ → Prop) (f : ForFrame β κ) : Prop where
  body : valid f.body.do_
  failure : ∀ failure ∈ f.failure, fine failure
  bodyFrame : ∀ body ∈ f.bodyFrame, good body

def Container.Orderly (good : SequenceFrame β κ → Prop) : Container β κ → Prop
  | .sequence f => good f
  | .fork f => forks ∧ ∀ b ∈ f.branches, good b.frame
  | .for_ f => f.Orderly fine valid good

end Frames

structure FrameOps.Orderly {β κ : Type} (ops : FrameOps β κ) (P : Rule)
    (valid : List (NamedTask β) → Prop) (good : SequenceFrame β κ → Prop) : Prop where
  fresh : ∀ f : SequenceFrame β κ, valid f.steps → f.failure = none → f.pendingResult = none →
    f.child = none → good f
  advance : ∀ f w, good f → P.before w → P.Left good (ops.advance f w)
  abandon : P.forks → ∀ f w, good f → P.before w → good (ops.abandon f w).1 ∧ P.before (ops.abandon f w).2
  applyOutcome : ∀ id outcome f w r, good f → P.before w → ops.applyOutcome id outcome f w = some r →
    good r.1 ∧ P.before r.2

namespace SequenceFrame
section Steps
variable {setup : Setup} {β κ : Type} {P : Rule} {valid : List (NamedTask β) → Prop}
  {good : κ → Prop} {T : Terms} {then_ : String} {step : NamedTask β} {f : SequenceFrame β κ} {w : World}

lemma Orderly.failWith (h : f.Orderly P.fine valid good) {failure : ExecutionFailure}
    (hf : P.fine failure) : (f.failWith failure).Orderly P.fine valid good where
  steps := h.steps
  failure := by
    rintro _ ⟨⟩
    exact hf
  pendingResult := h.pendingResult
  child := h.child

lemma loopHead_mem (h : f.loopHead = .take step) : step ∈ f.steps := by
  rw [loopHead] at h
  split at h
  · cases h
  next hstep =>
  split at h
  · cases h
  split at h
  · cases h
  split at h
  · cases h
  · cases h
    exact List.mem_of_getElem? hstep

lemma Orderly.terminalResult (hf : f.Orderly P.fine valid good) {r : FrameResult}
    (hr : f.terminalResult = some r) : r.Fine P.fine := by
  rw [SequenceFrame.terminalResult] at hr
  split at hr <;> cases hr
  · next hfailure => exact hf.failure _ hfailure
  · trivial
  · trivial

section Lawful
variable (hP : P.Lawful) {r : Option FrameResult × SequenceFrame β κ × World}
include hP

lemma Orderly.failStep (h : f.Orderly P.fine valid good) (hw : ∀ failure, P.after (some (.failed failure)) w)
    {status : Strij.Wire.TaskStatus} (hs : status ≠ .ok) (name message : String) :
    P.Passed (Orderly P.fine valid good) (f.failStep w status name message) :=
  ⟨hP.honest hs,h.failWith (hP.honest hs),hw _⟩

lemma Finish.orderly (h : Finish then_ step f w r)
    (hthen : ∀ message w, resolveFlowDirective (f.steps.map NamedTask.name) then_ = .error message →
      P.before w → P.before (w.record (.defect .flowDirective)))
    (hf : f.Orderly P.fine valid good) (hw : P.before w) :
    r.1.elim True (FrameResult.Fine P.fine) ∧ r.2.1.Orderly P.fine valid good ∧ P.before r.2.2 := by
  cases h with
  | stuck => exact ⟨trivial,hf,hw⟩
  | fail hs =>
    refine ⟨hP.honest hs,Orderly.failWith ?_ (hP.honest hs),hw⟩
    exact ⟨hf.steps,hf.failure,hf.pendingResult,hf.child⟩
  | misdirect data hresolve =>
    refine ⟨hP.honest nofun,Orderly.failWith ?_ (hP.honest nofun),hthen _ _ hresolve (hP.context hw _)⟩
    exact ⟨hf.steps,hf.failure,hf.pendingResult,hf.child⟩
  | next =>
    exact ⟨trivial,⟨hf.steps,hf.failure,hf.pendingResult,hf.child⟩,hP.context hw _⟩
  | last _ hr =>
    refine ⟨trivial,⟨hf.steps,hf.failure,?_,hf.child⟩,hP.context hw _⟩
    rintro _ ⟨⟩
    rcases hr with rfl | rfl <;> trivial

lemma Finish.passed (h : Finish then_ step f w r)
    (hthen : ∀ message w, resolveFlowDirective (f.steps.map NamedTask.name) then_ = .error message →
      P.before w → P.before (w.record (.defect .flowDirective)))
    (hf : f.Orderly P.fine valid good) (hw : P.before w) : P.Passed (Orderly P.fine valid good) r := by
  obtain ⟨hresult,hframe,hworld⟩ := h.orderly hP hthen hf hw
  exact ⟨hresult,hframe,hP.leave hworld _⟩

lemma Orderly.afterExecute (hf : f.Orderly P.fine valid good) (hw : P.after (some .suspended) w)
    (hidle : f.waitingChildId = none → P.before w) : P.Passed (Orderly P.fine valid good) (f.afterExecute w) := by
  rw [SequenceFrame.afterExecute]
  split
  · next hfailure =>
    exact ⟨hf.failure _ hfailure,⟨hf.steps,hf.failure,hf.pendingResult,hf.child⟩,hP.fail hw⟩
  split
  · exact ⟨trivial,hf,hw⟩
  · next hwaiting => exact ⟨trivial,hf,hP.leave (hidle (by simpa using hwaiting)) _⟩

lemma Orderly.loopHead (hf : f.Orderly P.fine valid good) (hw : P.before w) {r : FrameResult} {f' : SequenceFrame β κ}
    (hr : f.loopHead = .stop r f') : P.Left (Orderly P.fine valid good) (r,f',w) := by
  rw [SequenceFrame.loopHead] at hr
  split at hr
  · cases hr
    exact ⟨trivial,⟨hf.steps,hf.failure,hf.pendingResult,hf.child⟩,hP.leave hw _⟩
  split at hr
  · next hpending =>
    cases hr
    exact ⟨hf.pendingResult _ hpending,⟨hf.steps,hf.failure,nofun,hf.child⟩,hP.leave hw _⟩
  split at hr
  · cases hr
    exact ⟨trivial,hf,hP.leave hw _⟩
  split at hr
  · next hfailure =>
    cases hr
    exact ⟨hf.failure _ hfailure,⟨hf.steps,hf.failure,hf.pendingResult,hf.child⟩,hP.leave hw _⟩
  · cases hr

section Resolves
variable (hresolves : P.Resolves valid) {r : SequenceFrame β κ × World}
include hresolves

lemma Resume.orderly (h : Resume f w r) (hf : f.Orderly P.fine valid good)
    (hw : P.before w) : r.1.Orderly P.fine valid good ∧ P.before r.2 := by
  have hf' : ({ f with waitingChildId := none } : SequenceFrame β κ).Orderly P.fine valid good :=
    ⟨hf.steps,hf.failure,hf.pendingResult,hf.child⟩
  cases h with
  | fail _ hs => exact ⟨hf'.failWith (hP.honest hs),hw⟩
  | lost => exact ⟨hf',hw⟩
  | finish hstep h => exact (h.orderly hP (hresolves _ hf.steps _ (List.mem_of_getElem? hstep)) hf' hw).2

variable (hT : P.Allows setup (f.steps.map NamedTask.name) T)
include hT

lemma Ask.orderly (h : Ask setup T f w r) (hf : f.Orderly P.fine valid good) (hw : P.before w) :
    r.1.Orderly P.fine valid good ∧ P.after (some .suspended) r.2 ∧ (r.1.waitingChildId = none → P.before r.2) := by
  have hf' (id : Option String) : ({ f with waitingChildId := id } : SequenceFrame β κ).Orderly P.fine valid good :=
    ⟨hf.steps,hf.failure,hf.pendingResult,hf.child⟩
  cases h with
  | wait he => exact ⟨hf' _,(hT.asks f.id he hw).wait,nofun⟩
  | resume he hpending hr =>
    obtain ⟨hframe,hworld⟩ := hr.orderly hP hresolves (hf' _) ((hT.asks f.id he hw).resume _ hpending)
    exact ⟨hframe,hP.leave hworld _,fun _ => hworld⟩
  | detach he => exact ⟨hf,hP.leave (hT.detaches he hw) _,fun _ => hT.detaches he hw⟩

omit hresolves in
lemma Refuse.after {w' : World} (h : Refuse setup T f w w') (hw : P.before w) (failure : ExecutionFailure) :
    P.after (some (.failed failure)) w' := by
  cases h with
  | untouched => exact hP.leave hw _
  | defect hd => exact hP.leave (hT.defects hd hw) _
  | start he => exact (hT.asks f.id he hw).refuse _
  | detach he => exact hP.leave (hT.detaches he hw) _

lemma Leaf.orderly {r : Option FrameResult × SequenceFrame β κ × World} (h : Leaf setup T step f w r)
    (hstep : step ∈ f.steps) (hf : f.Orderly P.fine valid good) (hw : P.before w) :
    P.Passed (Orderly P.fine valid good) r := by
  cases h with
  | fail h hs => exact hf.failStep hP (h.after hP hT hw) hs _ _
  | finish ht h => exact h.passed hP (fun _ _ => hT.directs ht) hf hw
  | ask h =>
    obtain ⟨hframe,hworld,hidle⟩ := h.orderly hP hresolves hT hf hw
    exact hframe.afterExecute hP hworld hidle
  | detach he h => exact h.passed hP (hresolves _ hf.steps _ hstep) hf (hT.detaches he hw)

end Resolves

section Loop
variable {runBody : RunBodyFn β κ} (hrun : ∀ step input f w, step ∈ f.steps → f.Orderly P.fine valid good →
  P.before w → P.Passed (Orderly P.fine valid good) (runBody step input f w))
include hrun

variable (hf : f.Orderly P.fine valid good)
include hf

lemma Orderly.takeStep (hw : P.before w) (hstep : step ∈ f.steps) :
    P.Passed (Orderly P.fine valid good) (f.takeStep setup w runBody step) := by
  have hw' : P.before (f.takenUp w step) := Rule.recordIf (hP.record hw rfl rfl) fun _ h => hP.record h rfl rfl
  have hw'' : P.before (f.transforming (f.takenUp w step) step) := Rule.recordIf hw' fun _ h => hP.record h rfl rfl
  simp only [SequenceFrame.takeStep]
  split
  · exact hf.failStep hP (fun _ => hP.leave hw' _) (by decide) _ _
  · exact ⟨trivial,⟨hf.steps,hf.failure,hf.pendingResult,hf.child⟩,hP.leave (hP.record hw' rfl rfl) _⟩
  split
  · exact hf.failStep hP (fun _ => hP.leave hw'' _) (by decide) _ _
  · exact hrun _ _ _ _ hstep ⟨hf.steps,hf.failure,hf.pendingResult,hf.child⟩ hw''

lemma Orderly.advanceLoop (hw : P.before w) (k : ℕ) :
    P.Left (Orderly P.fine valid good) (advanceLoop setup runBody k f w) := by
  induction k generalizing f w with
  | zero =>
    rw [SequenceFrame.advanceLoop]
    split
    · next hhead => exact hf.loopHead hP hw hhead
    · exact ⟨hP.honest nofun,hf.failWith (hP.honest nofun),hP.leave (hP.record hw rfl rfl) _⟩
  | succ k ih =>
    rw [SequenceFrame.advanceLoop]
    split
    · next hhead => exact hf.loopHead hP hw hhead
    next step hhead =>
    have h : P.Passed (Orderly P.fine valid good) (f.takeStep setup w runBody step) :=
      hf.takeStep hP hrun hw (loopHead_mem hhead)
    split <;> rename_i heq <;> rw [heq] at h
    · exact h
    · exact ih h.frame (hP.next h.world)

lemma Orderly.advance (hw : P.before w) : P.Left (Orderly P.fine valid good) (f.advance setup w runBody) := by
  rw [SequenceFrame.advance]
  split
  · next hpending =>
    exact ⟨hf.pendingResult _ hpending,⟨hf.steps,hf.failure,nofun,hf.child⟩,hP.leave hw _⟩
  split
  · next hterminal => exact ⟨hf.terminalResult hterminal,hf,hP.leave hw _⟩
  · exact hf.advanceLoop hP hrun hw _

end Loop

lemma Orderly.abandon (hforks : P.forks) (hf : f.Orderly P.fine valid good) (hw : P.before w)
    {abandonChild : κ → World → κ × World} (hchild : ∀ c w, good c → P.before w →
      good (abandonChild c w).1 ∧ P.before (abandonChild c w).2) :
    (f.abandon w abandonChild).1.Orderly P.fine valid good ∧ P.before (f.abandon w abandonChild).2 := by
  rw [SequenceFrame.abandon]
  split
  · exact ⟨hf,hw⟩
  have hw' := hP.forgetWaiting hforks hw f.waitingChildId
  dsimp only
  split
  · exact ⟨⟨hf.steps,hf.failure,hf.pendingResult,hf.child⟩,hw'⟩
  · next c hc =>
    obtain ⟨hgood,hworld⟩ := hchild c _ (hf.child c hc) hw'
    refine ⟨⟨hf.steps,hf.failure,hf.pendingResult,?_⟩,hworld⟩
    rintro _ ⟨⟩
    exact hgood

lemma Orderly.applyOutcomeTo (hresolves : P.Resolves valid) (hf : f.Orderly P.fine valid good) (hw : P.before w) {applyChild : κ → World → Option (κ × World)}
    {id : FrameId} {outcome : ChildOutcome} {r : SequenceFrame β κ × World}
    (hchild : ∀ c w r, good c → P.before w → applyChild c w = some r → good r.1 ∧ P.before r.2)
    (h : f.applyOutcomeTo setup w applyChild id outcome = some r) :
    r.1.Orderly P.fine valid good ∧ P.before r.2 := by
  rw [SequenceFrame.applyOutcomeTo] at h
  split at h
  · cases h
    exact (applyOutcome_resume _ _ _ _).orderly hP hresolves hf hw
  split at h
  · cases h
  · next c hc =>
    obtain ⟨r',hr',rfl⟩ := Option.map_eq_some_iff.mp h
    obtain ⟨hgood,hworld⟩ := hchild c _ _ (hf.child c hc) hw hr'
    refine ⟨⟨hf.steps,hf.failure,hf.pendingResult,?_⟩,hworld⟩
    rintro _ ⟨⟩
    exact hgood

end Lawful
end Steps
end SequenceFrame

section Containers
variable {setup : Setup} {β κ : Type} {ops : FrameOps β κ} {P : Rule} (hP : P.Lawful)
  {valid : List (NamedTask β) → Prop} {good : SequenceFrame β κ → Prop}
  (hops : ops.Orderly P valid good) {w : World}
include hP hops

namespace ForkFrame
variable (hforks : P.forks) {branches : List (ForkBranch β κ)} {f : ForkFrame β κ}
include hforks

lemma advanceBranches_orderly (compete : Bool) (hb : ∀ b ∈ branches, good b.frame) (hw : P.before w) :
    (∀ result, (advanceBranches ops compete branches w).1 = .stopped result → result.Fine P.fine) ∧
      (∀ b ∈ (advanceBranches ops compete branches w).2.1, good b.frame) ∧
      P.before (advanceBranches ops compete branches w).2.2 := by
  induction branches generalizing w with
  | nil => exact ⟨nofun,by simp [advanceBranches],hw⟩
  | cons b rest ih =>
    obtain ⟨hb,hrest⟩ := List.forall_mem_cons.mp hb
    rw [advanceBranches]
    split
    · obtain ⟨hresult,hframes,hworld⟩ := ih hrest hw
      exact ⟨hresult,List.forall_mem_cons.mpr ⟨hb,hframes⟩,hworld⟩
    obtain ⟨hresult,hframe,hafter⟩ := hops.advance b.frame w hb hw
    have hworld := hP.fork hforks hafter
    split <;> rename_i heq <;> rw [heq] at hresult hframe hworld
    · obtain ⟨hresult,hframes,hworld⟩ := ih hrest hworld
      exact ⟨hresult,List.forall_mem_cons.mpr ⟨hframe,hframes⟩,hworld⟩
    · refine ⟨?_,List.forall_mem_cons.mpr ⟨hframe,hrest⟩,hworld⟩
      rintro _ ⟨⟩
      trivial
    · split
      · refine ⟨?_,List.forall_mem_cons.mpr ⟨hframe,hrest⟩,hworld⟩
        rintro _ ⟨⟩
        trivial
      · obtain ⟨hresult,hframes,hworld⟩ := ih hrest hworld
        exact ⟨hresult,List.forall_mem_cons.mpr ⟨hframe,hframes⟩,hworld⟩
    · refine ⟨?_,List.forall_mem_cons.mpr ⟨hframe,hrest⟩,hworld⟩
      rintro _ ⟨⟩
      refine hP.alike hresult ?_
      split <;> rfl

omit hP in
lemma abandonBranches_orderly (hb : ∀ b ∈ branches, good b.frame) (hw : P.before w) :
    (∀ b ∈ (abandonBranches ops branches w).1, good b.frame) ∧ P.before (abandonBranches ops branches w).2 := by
  induction branches generalizing w with
  | nil => exact ⟨by simp [abandonBranches],hw⟩
  | cons b rest ih =>
    obtain ⟨hb,hrest⟩ := List.forall_mem_cons.mp hb
    obtain ⟨hframe,hworld⟩ := hops.abandon hforks b.frame w hb hw
    obtain ⟨hframes,hworld⟩ := ih hrest hworld
    exact ⟨List.forall_mem_cons.mpr ⟨hframe,hframes⟩,hworld⟩

omit hP hops hforks in
lemma joinAllForkResult_honest {failure : ExecutionFailure}
    (h : joinAllForkResult setup branches = .error failure) : failure.Honest := by
  rw [joinAllForkResult] at h
  split at h <;> cases h
  nofun

lemma stop_orderly (hf : ∀ b ∈ f.branches, good b.frame) (hw : P.before w)
    {result : FrameResult} (hresult : result.Fine P.fine) :
    P.Left (fun g => ∀ b ∈ g.branches, good b.frame) (f.stop ops result w) := by
  obtain ⟨hframes,hworld⟩ := abandonBranches_orderly hops hforks hf hw
  exact ⟨hresult,hframes,hP.leave hworld _⟩

lemma advance_orderly (hf : ∀ b ∈ f.branches, good b.frame) (hw : P.before w) :
    P.Left (fun g => ∀ b ∈ g.branches, good b.frame) (f.advance setup ops w) := by
  obtain ⟨hresult,hframes,hworld⟩ := advanceBranches_orderly hP hops hforks f.compete hf hw
  rw [advance]
  split
  · exact ⟨trivial,hf,hP.leave hw _⟩
  split
  · exact ⟨trivial,hf,hP.leave hw _⟩
  split <;> rename_i heq <;> rw [heq] at hresult hframes hworld
  · exact stop_orderly hP hops hforks hframes hworld (hresult _ rfl)
  split
  · exact ⟨trivial,hframes,hP.leave hworld _⟩
  split
  · next hjoin => exact stop_orderly hP hops hforks hframes hworld (hP.honest (joinAllForkResult_honest hjoin))
  · exact ⟨trivial,hframes,hP.leave hworld _⟩

omit hP hforks in
lemma applyOutcomeIn_orderly {id : FrameId} {outcome : ChildOutcome}
    {r : List (ForkBranch β κ) × World} (hb : ∀ b ∈ branches, good b.frame) (hw : P.before w)
    (h : applyOutcomeIn ops id outcome branches w = some r) : (∀ b ∈ r.1, good b.frame) ∧ P.before r.2 := by
  induction branches generalizing r with
  | nil => cases h
  | cons b rest ih =>
    obtain ⟨hb,hrest⟩ := List.forall_mem_cons.mp hb
    rw [applyOutcomeIn] at h
    split at h
    · next heq =>
      cases h
      obtain ⟨hframe,hworld⟩ := hops.applyOutcome _ _ _ _ _ hb hw heq
      exact ⟨List.forall_mem_cons.mpr ⟨hframe,hrest⟩,hworld⟩
    · obtain ⟨r',hr',rfl⟩ := Option.map_eq_some_iff.mp h
      obtain ⟨hframes,hworld⟩ := ih (r := r') hrest hr'
      exact ⟨List.forall_mem_cons.mpr ⟨hb,hframes⟩,hworld⟩

omit hP hforks in
lemma branchesFor_orderly (scope : Scope) (budget : ℕ) (data : StepDataValue)
    {tasks : List (NamedTask β)} (htasks : ∀ t ∈ tasks, valid [t]) (index : ℕ) (id : FrameId) :
    ∀ b ∈ branchesFor scope budget data tasks index id, good b.frame := by
  induction tasks generalizing index id with
  | nil => simp [branchesFor]
  | cons t rest ih =>
    obtain ⟨ht,hrest⟩ := List.forall_mem_cons.mp htasks
    exact List.forall_mem_cons.mpr ⟨hops.fresh _ ht rfl rfl rfl,ih hrest _ _⟩

end ForkFrame

namespace ForFrame
variable {f : ForFrame β κ}

variable (hf : f.Orderly P.fine valid good)
include hf

omit hops in
lemma Orderly.fail (hw : P.before w) (message : String) :
    P.Left (Orderly P.fine valid good) (f.fail w message) := by
  refine ⟨hP.honest nofun,⟨hf.body,?_,hf.bodyFrame⟩,hP.leave hw _⟩
  rintro _ ⟨⟩
  exact hP.honest nofun

lemma Orderly.finishIteration (hw : P.before w) :
    P.Passed (Orderly P.fine valid good) (f.finishIteration setup ops w) := by
  rw [ForFrame.finishIteration]
  split
  · exact ⟨trivial,hf,hP.leave hw _⟩
  next body hbody =>
  obtain ⟨hresult,hframe,hworld⟩ := hops.advance body w (hf.bodyFrame _ hbody) hw
  split <;> rename_i heq <;> rw [heq] at hresult hframe hworld
  · refine ⟨trivial,⟨hf.body,hf.failure,?_⟩,hworld⟩
    rintro _ ⟨⟩
    exact hframe
  · refine ⟨hresult,⟨hf.body,?_,?_⟩,hworld⟩ <;> rintro _ ⟨⟩
    · exact hresult
    · exact hframe
  · exact ⟨trivial,⟨hf.body,hf.failure,by simp⟩,hworld⟩
  · have hworld := hP.completed hworld
    have hcleared (value : StepDataValue) :
        ({ f with accumulator := value, bodyFrame := none } : ForFrame β κ).Orderly P.fine valid good :=
      ⟨hf.body,hf.failure,by simp⟩
    dsimp only
    split
    · exact (hcleared _).fail hP hworld _
    · exact ⟨trivial,⟨hf.body,hf.failure,by simp⟩,hP.leave hworld _⟩
    · exact ⟨trivial,⟨hf.body,hf.failure,by simp⟩,hP.leave hworld _⟩

omit hP in
lemma Orderly.beginIteration (item : Value) :
    (f.beginIteration setup w item).1.Orderly P.fine valid good := by
  refine ⟨hf.body,hf.failure,?_⟩
  rintro _ ⟨⟩
  exact hops.fresh _ hf.body rfl rfl rfl

lemma Orderly.advanceLoop (hw : P.before w) (k : ℕ) :
    P.Left (Orderly P.fine valid good) (advanceLoop setup ops k f w) := by
  induction k generalizing f w with
  | zero =>
    have h : P.Passed (Orderly P.fine valid good) (f.finishIteration setup ops w) := hf.finishIteration hP hops hw
    rw [ForFrame.advanceLoop]
    split <;> rename_i heq <;> rw [heq] at h
    · exact h
    have hworld := hP.next h.world
    split
    · exact ⟨trivial,⟨h.frame.body,h.frame.failure,h.frame.bodyFrame⟩,hP.leave hworld _⟩
    · exact h.frame.fail hP (hP.record hworld rfl rfl) _
  | succ k ih =>
    have h : P.Passed (Orderly P.fine valid good) (f.finishIteration setup ops w) := hf.finishIteration hP hops hw
    rw [ForFrame.advanceLoop]
    split <;> rename_i heq <;> rw [heq] at h
    · exact h
    have hworld := hP.next h.world
    split
    · exact ⟨trivial,⟨h.frame.body,h.frame.failure,h.frame.bodyFrame⟩,hP.leave hworld _⟩
    · exact ih (h.frame.beginIteration hops _) (hP.frames hworld 1)

lemma Orderly.advance (hw : P.before w) : P.Left (Orderly P.fine valid good) (f.advance setup ops w) := by
  rw [ForFrame.advance]
  split
  · exact ⟨trivial,hf,hP.leave hw _⟩
  split
  · next hfailure =>
    exact ⟨hf.failure _ hfailure,⟨hf.body,hf.failure,hf.bodyFrame⟩,hP.leave hw _⟩
  split
  · exact hf.advanceLoop hP hops hw _
  split
  · exact hf.fail hP hw _
  · refine Orderly.advanceLoop hP hops ?_ hw _
    exact ⟨hf.body,hf.failure,hf.bodyFrame⟩

omit hf

omit hP in
lemma Orderly.abandon (hforks : P.forks) (hf : f.Orderly P.fine valid good) (hw : P.before w) :
    (f.abandon ops w).1.Orderly P.fine valid good ∧ P.before (f.abandon ops w).2 := by
  rw [ForFrame.abandon]
  split
  · exact ⟨hf,hw⟩
  split
  · exact ⟨⟨hf.body,hf.failure,hf.bodyFrame⟩,hw⟩
  · next body hbody =>
    obtain ⟨hframe,hworld⟩ := hops.abandon hforks _ _ (hf.bodyFrame _ hbody) hw
    refine ⟨⟨hf.body,hf.failure,?_⟩,hworld⟩
    rintro _ ⟨⟩
    exact hframe

end ForFrame

namespace Container
variable {c : Container β κ} {r : Container β κ × World}

lemma Orderly.advance (hc : c.Orderly P.fine P.forks valid good) (hw : P.before w) :
    P.Left (Orderly P.fine P.forks valid good) (c.advance setup ops w) := by
  cases c with
  | sequence f =>
    obtain ⟨hresult,hframe,hworld⟩ := hops.advance f w hc hw
    exact ⟨hresult,hframe,hworld⟩
  | fork f =>
    obtain ⟨hresult,hframes,hworld⟩ := ForkFrame.advance_orderly hP hops hc.1 hc.2 hw
    exact ⟨hresult,⟨hc.1,hframes⟩,hworld⟩
  | for_ f =>
    obtain ⟨hresult,hframe,hworld⟩ := ForFrame.Orderly.advance hP hops hc hw
    exact ⟨hresult,hframe,hworld⟩

omit hP in
lemma Orderly.abandon (hforks : P.forks) (hc : c.Orderly P.fine P.forks valid good) (hw : P.before w) :
    (c.abandon ops w).1.Orderly P.fine P.forks valid good ∧ P.before (c.abandon ops w).2 := by
  cases c with
  | sequence f => exact hops.abandon hforks f w hc hw
  | fork f =>
    rw [Container.abandon,ForkFrame.abandon]
    split
    · exact ⟨hc,hw⟩
    · obtain ⟨hframes,hworld⟩ := ForkFrame.abandonBranches_orderly hops hforks hc.2 hw
      exact ⟨⟨hforks,hframes⟩,hworld⟩
  | for_ f => exact ForFrame.Orderly.abandon hops hforks hc hw

omit hP in
lemma Orderly.applyOutcome (hc : c.Orderly P.fine P.forks valid good) (hw : P.before w) {id : FrameId}
    {outcome : ChildOutcome} (h : c.applyOutcome ops id outcome w = some r) :
    r.1.Orderly P.fine P.forks valid good ∧ P.before r.2 := by
  cases c with
  | sequence f =>
    obtain ⟨r',hr',rfl⟩ := Option.map_eq_some_iff.mp h
    exact hops.applyOutcome _ _ _ _ _ hc hw hr'
  | fork f =>
    obtain ⟨r',hr',rfl⟩ := Option.map_eq_some_iff.mp h
    obtain ⟨hframes,hworld⟩ := ForkFrame.applyOutcomeIn_orderly hops hc.2 hw hr'
    exact ⟨⟨hc.1,hframes⟩,hworld⟩
  | for_ f =>
    rw [Container.applyOutcome] at h
    split at h
    · cases h
    · next body hbody =>
      obtain ⟨r',hr',rfl⟩ := Option.map_eq_some_iff.mp h
      obtain ⟨hframe,hworld⟩ := hops.applyOutcome _ _ _ _ _ (hc.bodyFrame _ hbody) hw hr'
      refine ⟨⟨hc.body,hc.failure,?_⟩,hworld⟩
      rintro _ ⟨⟩
      exact hframe

lemma materialize_orderly {name : String} {scope : Scope} {budget : ℕ} {input : StepDataValue}
    {body : TaskBody (NamedTask β)} (hbody : ∀ l ∈ body.sequences, valid l)
    (hforks : ∀ forked, body = .fork forked → P.forks)
    (hw : P.before w) (h : materialize name scope budget input w body = some r) :
    r.1.Orderly P.fine P.forks valid good ∧ P.before r.2 := by
  cases body <;> simp only [materialize,reduceCtorEq,Option.some.injEq] at h <;> subst h
  · exact ⟨hops.fresh _ (hbody _ List.mem_cons_self) rfl rfl rfl,hP.frames hw 1⟩
  · exact ⟨⟨hbody _ List.mem_cons_self,by simp,by simp⟩,hw⟩
  · refine ⟨⟨hforks _ rfl,ForkFrame.branchesFor_orderly hops _ _ _ (fun t ht => hbody _ ?_) _ _⟩,
      hP.frames hw _⟩
    exact List.mem_map_of_mem ht

end Container

namespace SequenceFrame
variable {validSteps : List (NamedTask (TaskBody (NamedTask β))) → Prop}
  {f : SequenceFrame (TaskBody (NamedTask β)) (Container β κ)} {step : NamedTask (TaskBody (NamedTask β))}
  (hdescends : P.Descends setup validSteps valid)
include hdescends

omit hops in
lemma Orderly.afterContainer (hf : f.Orderly P.fine validSteps (Container.Orderly P.fine P.forks valid good))
    (hstep : step ∈ f.steps) {r : FrameResult × Container β κ × World}
    (hr : P.Left (Container.Orderly P.fine P.forks valid good) r) :
    P.Passed (Orderly P.fine validSteps (Container.Orderly P.fine P.forks valid good)) (afterContainer setup step f r) := by
  obtain ⟨result,child,w⟩ := r
  obtain ⟨hresult,hcontainer,hw⟩ := hr
  have hchild : ({ f with child := some child } : SequenceFrame _ _).Orderly P.fine validSteps
      (Container.Orderly P.fine P.forks valid good) := by
    refine ⟨hf.steps,hf.failure,hf.pendingResult,?_⟩
    rintro _ ⟨⟩
    exact hcontainer
  cases result with
  | failed failure => exact ⟨hresult,hchild.failWith hresult,hw⟩
  | suspended => exact ⟨trivial,hchild,hw⟩
  | ended value => exact ⟨trivial,hchild,hw⟩
  | completed value =>
    refine (applyCompletedStep_finish _ _ _ _ _ _).passed hP ?_
      ⟨hf.steps,hf.failure,hf.pendingResult,by simp⟩ (hP.record (hP.completed hw) rfl rfl)
    exact hdescends.resolves _ hf.steps step hstep

lemma Orderly.advanceContainer (hf : f.Orderly P.fine validSteps (Container.Orderly P.fine P.forks valid good))
    (hw : P.before w) (hstep : step ∈ f.steps) (hcontainer : step.task.body.isContainer = true)
    (input : StepDataValue) : P.Passed (Orderly P.fine validSteps (Container.Orderly P.fine P.forks valid good))
      (advanceContainer setup ops step input f w) := by
  rw [SequenceFrame.advanceContainer]
  split
  · next child hchild =>
    exact hf.afterContainer hP hdescends hstep
      (Container.Orderly.advance hP hops (hf.child _ hchild) (hP.record hw rfl rfl))
  split
  · next hnone =>
    cases hbody : step.task.body <;> simp_all [Container.materialize,TaskBody.isContainer]
  · next hmaterialize =>
    obtain ⟨hchild,hw'⟩ := Container.materialize_orderly hP hops (hdescends.nested hf.steps hstep)
      (fun _ => hdescends.forks hf.steps hstep) hw hmaterialize
    refine hf.afterContainer hP hdescends hstep (Container.Orderly.advance hP hops hchild ?_)
    exact Rule.recordIf (hP.record (hP.record hw' rfl rfl) rfl rfl)
      fun hloop => hdescends.loops hf.steps hstep hloop

lemma Orderly.runBody (step : NamedTask (TaskBody (NamedTask β))) (input : StepDataValue)
    (f : SequenceFrame (TaskBody (NamedTask β)) (Container β κ)) (w : World) (hstep : step ∈ f.steps)
    (hf : f.Orderly P.fine validSteps (Container.Orderly P.fine P.forks valid good)) (hw : P.before w) :
    P.Passed (Orderly P.fine validSteps (Container.Orderly P.fine P.forks valid good)) (runBody setup ops step input f w) := by
  rcases runBody_cases setup ops step input f w with ⟨hcontainer,h⟩ | ⟨-,h⟩
  · rw [h]
    exact hf.advanceContainer hP hops hdescends hw hstep hcontainer _
  · exact h.orderly hP hdescends.resolves (hdescends.terms hf.steps hstep) hstep hf hw

end SequenceFrame

theorem FrameOps.Orderly.succ {validSteps : List (NamedTask (TaskBody (NamedTask β))) → Prop}
    (hdescends : P.Descends setup validSteps valid) : (ops.succ setup).Orderly P validSteps
      (SequenceFrame.Orderly P.fine validSteps (Container.Orderly P.fine P.forks valid good)) where
  fresh f hsteps hfailure hpending hchild := ⟨hsteps,by simp [hfailure],by simp [hpending],by simp [hchild]⟩
  advance _ _ hf hw := hf.advance hP (SequenceFrame.Orderly.runBody hP hops hdescends) hw
  abandon hforks _ _ hf hw := hf.abandon hP hforks hw
    (fun _ _ hc hw => Container.Orderly.abandon hops hforks hc hw)
  applyOutcome _ _ _ _ _ hf hw h := hf.applyOutcomeTo hP hdescends.resolves hw
    (fun _ _ _ hc hw hr => Container.Orderly.applyOutcome hops hc hw hr) h

end Containers

section Levels
variable (valid : (n : ℕ) → Tasks n → Prop)

def Contained.Orderly (fine : ExecutionFailure → Prop) (forks : Prop) : (n : ℕ) → Contained n → Prop
  | 0, _ => True
  | n+1, c => Container.Orderly fine forks (valid n)
      (SequenceFrame.Orderly fine (valid n) (Contained.Orderly fine forks n)) c

abbrev Frame.Orderly (forks : Prop) (n : ℕ) (f : Frame n) : Prop :=
  SequenceFrame.Orderly ExecutionFailure.Honest (valid n) (Contained.Orderly valid ExecutionFailure.Honest forks n) f

variable {valid}

theorem frameOps_orderly (setup : Setup) {P : Rule} (hP : P.Lawful)
    (hdescends : ∀ n, P.Descends setup (valid (n+1)) (valid n)) (n : ℕ) :
    (frameOps setup n).Orderly P (valid n)
      (SequenceFrame.Orderly P.fine (valid n) (Contained.Orderly valid P.fine P.forks n)) := by
  induction n with
  | zero =>
    exact {
      fresh := fun f hsteps hfailure hpending hchild =>
        ⟨hsteps,by simp [hfailure],by simp [hpending],by simp [hchild]⟩
      advance := fun f w hf hw => hf.advance hP (fun step => step.task.body.elim) hw
      abandon := fun hforks f w hf hw => hf.abandon hP hforks hw (fun child => child.elim)
      applyOutcome := fun _ _ f w _ hf hw h =>
        hf.applyOutcomeTo hP (fun _ _ step => step.task.body.elim) hw (fun child => child.elim) h }
  | succ n ih => exact ih.succ hP (hdescends n)

end Levels

section Clean
variable {ok : Event → Prop} {w : World}

def World.Clean (ok : Event → Prop) (w : World) : Prop := ∀ e ∈ w.log, ok e

namespace World.Clean

lemma record (h : w.Clean ok) {e : Event} (he : ok e) : (w.record e).Clean ok :=
  List.forall_mem_cons.mpr ⟨he,h⟩

lemma converse (hok : Permissive ok) (h : w.Clean ok) : w.converse.2.Clean ok := by
  refine converse_keeps (fun _ _ h => h) (fun w x h => ?_) h
  have h' : (w.record (.deliver x.1 x.2)).Clean ok := h.record (hok _ rfl rfl)
  rw [deliver]
  split <;> exact h'

end World.Clean

def Rule.clean (ok : Event → Prop) : Rule := ⟨World.Clean ok,fun _ => World.Clean ok,ExecutionFailure.Honest,True⟩

lemma Rule.clean_lawful (hok : Permissive ok) : (Rule.clean ok).Lawful where
  leave h _ := h
  next h := h
  completed h := h
  fail h := h
  context h _ := h
  frames h _ := h
  record h hframes hdefect := World.Clean.record h (hok _ (Event.asksFor_of_ofFrames hframes) hdefect)
  honest h := h
  alike h hstatus := fun hok => h (hstatus ▸ hok)
  fork _ _ _ h := h
  forget _ _ _ h := h

lemma Terms.Allowed.clean {names : List String} {T : Terms} (hok : Permissive ok) (h : T.Allowed ok names)
    (setup : Setup) : (Rule.clean ok).Allows setup names T where
  directs ht hresolve hw := World.Clean.record hw (h.directs ht hresolve)
  defects hd hw := World.Clean.record hw (h.defects hd)
  asks {e w} owner he hw := by
    have hasked : ((w.register (setup.freshId w.nextChild) owner).record e).converse.2.Clean ok :=
      World.Clean.converse hok (World.Clean.record hw (h.asks he))
    exact ⟨hasked,fun _ _ => hasked,fun _ => hasked⟩
  detaches he hw := World.Clean.converse hok (World.Clean.record hw (h.asks he))

theorem frameOps_clean (setup : Setup) (hok : Permissive ok) {valid : (n : ℕ) → Tasks n → Prop}
    (hdescends : ∀ n, Descends ok (valid (n+1)) (valid n)) (n : ℕ) :
    (frameOps setup n).Orderly (Rule.clean ok) (valid n) (Frame.Orderly valid True n) :=
  frameOps_orderly setup (Rule.clean_lawful hok) (fun n => {
    terms := fun hsteps hstep => ((hdescends n).terms hsteps hstep).clean hok setup
    loops := fun hsteps hstep hloop hw => World.Clean.record hw ((hdescends n).loops hsteps hstep hloop)
    nested := (hdescends n).nested
    forks := fun _ _ _ => trivial }) n

end Clean

abbrev Frame.Honest (n : ℕ) (f : Frame n) : Prop := Frame.Orderly (fun _ _ => True) True n f

theorem frameOps_honest (setup : Setup) (n : ℕ) :
    (frameOps setup n).Orderly (Rule.clean fun _ => True) (fun _ => True) (Frame.Honest n) := by
  have hdescends : ∀ n, Descends (fun _ => True) (fun _ : Tasks (n+1) => True) (fun _ : Tasks n => True) := by
    intro n
    constructor
    · exact fun _ _ => ⟨fun _ _ => trivial,fun _ => trivial,fun _ => trivial⟩
    · exact fun _ _ _ => trivial
    · exact fun _ _ _ _ => trivial
  exact @frameOps_clean (fun _ => True) setup (fun _ _ _ => trivial) (fun _ _ => True) hdescends n

end Strij.OpenWorkflow
