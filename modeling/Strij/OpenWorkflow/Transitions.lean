import Strij.Lib.Checks
import Strij.OpenWorkflow.Interpreter

/-! What a step that is no container can do to its sequence frame and to the world. -/
namespace Strij.OpenWorkflow
open Strij.Lib (bind_eq_ok)
open Strij.Wire (TaskStatus)

def Event.asksFor : Event → Option (Option String)
  | .submit id _ => some (some id)
  | .startRun id _ _ => some id
  | _ => none

/-- What the task of a step can bring about: the directives that are applied after it, the events that
ask for a child, and the branches it comes to. -/
structure Terms where
  directs : String → Prop
  asks : Option String → Event → Prop
  defects : Defect → Prop
  asksFor : ∀ {id e}, asks id e → e.asksFor = some id

namespace SequenceFrame
variable (setup : Setup) {β κ : Type} {context : Jv}

def LeavesContext (step : NamedTask β) (w : World) (context : Jv) : Prop :=
  step.task.export_ = none → context = w.context

/-- A step that is completed moves on by its directive, ends the frame or fails. -/
inductive Finish (then_ : String) (step : NamedTask β) (f : SequenceFrame β κ) (w : World) :
    Option FrameResult × SequenceFrame β κ × World → Prop
  | stuck (h : f.stepInput = none) : Finish then_ step f w (none,f,w)
  | fail {status : TaskStatus} (h : status ≠ .ok) (name message : String) :
      Finish then_ step f w ({ f with stepInput := none }.failStep w status name message)
  | misdirect {name message : String} (data : StepDataValue) {context : Jv}
      (h : resolveFlowDirective (f.steps.map NamedTask.name) then_ = .error message)
      (hc : LeavesContext step w context) : Finish then_ step f w
      ({ f with data := data, stepInput := none }.failStep
        ({ w with context := context }.record (.defect .flowDirective)) .internal name message)
  | next (data : StepDataValue) {context : Jv} (hc : LeavesContext step w context) (cursor : ℕ) :
      Finish then_ step f w (none,{ f with data := data, stepInput := none, cursor := cursor },
        { w with context := context })
  | last {data : StepDataValue} {context : Jv} (hc : LeavesContext step w context) {r : FrameResult}
      (h : r = .completed data ∨ r = .ended data) : Finish then_ step f w
      (none,{ f with data := data, stepInput := none, pendingResult := some r, state := .completed },
        { w with context := context })

/-- An outcome is applied to the frame that waits for it. -/
inductive Resume (f : SequenceFrame β κ) (w : World) : SequenceFrame β κ × World → Prop
  | fail (failure : ExecutionFailure) (h : failure.status ≠ .ok) :
      Resume f w ({ f with waitingChildId := none }.failWith failure,w)
  | lost (h : f.steps[f.cursor]? = none) : Resume f w ({ f with waitingChildId := none },w)
  | finish {step : NamedTask β} (hstep : f.steps[f.cursor]? = some step)
      {r : Option FrameResult × SequenceFrame β κ × World}
      (h : Finish (stepThen step) step { f with waitingChildId := none } w r) : Resume f w r.2

def askedWorld (f : SequenceFrame β κ) (w : World) (e : Event) : World :=
  ((w.register (setup.freshId w.nextChild) f.id).record e).converse.2

variable (T : Terms)

inductive Ask (f : SequenceFrame β κ) (w : World) : SequenceFrame β κ × World → Prop
  | wait {e : Event} (he : T.asks (some (setup.freshId w.nextChild)) e)
      (h : (f.askedWorld setup w e).pending.lookup (setup.freshId w.nextChild) = none) :
      Ask f w ({ f with waitingChildId := some (setup.freshId w.nextChild) },f.askedWorld setup w e)
  | resume {e : Event} (he : T.asks (some (setup.freshId w.nextChild)) e) {outcome : ChildOutcome}
      {r : SequenceFrame β κ × World}
      (h : (f.askedWorld setup w e).pending.lookup (setup.freshId w.nextChild) = some outcome)
      (hr : Resume { f with waitingChildId := some (setup.freshId w.nextChild) }
        ((f.askedWorld setup w e).drop (setup.freshId w.nextChild)) r) : Ask f w r
  | detach {e : Event} (he : T.asks none e) : Ask f w (f,(w.record e).converse.2)

inductive Refuse (f : SequenceFrame β κ) (w : World) : World → Prop
  | untouched : Refuse f w w
  | defect {d : Defect} (h : T.defects d) : Refuse f w (w.record (.defect d))
  | start {e : Event} (he : T.asks (some (setup.freshId w.nextChild)) e) :
      Refuse f w ((f.askedWorld setup w e).forgetChild (setup.freshId w.nextChild))
  | detach {e : Event} (he : T.asks none e) : Refuse f w (w.record e).converse.2

inductive Leaf (step : NamedTask β) (f : SequenceFrame β κ) (w : World) :
    Option FrameResult × SequenceFrame β κ × World → Prop
  | fail {w' : World} (h : Refuse setup T f w w') {status : TaskStatus} (hs : status ≠ .ok)
      (name message : String) : Leaf step f w (f.failStep w' status name message)
  | finish {then_ : String} (ht : T.directs then_) {r : Option FrameResult × SequenceFrame β κ × World}
      (h : Finish then_ step f w r) : Leaf step f w r
  | ask {r : SequenceFrame β κ × World} (h : Ask setup T f w r) : Leaf step f w (r.1.afterExecute r.2)
  | detach {e : Event} (he : T.asks none e) {r : Option FrameResult × SequenceFrame β κ × World}
      (h : Finish (stepThen step) step f (w.record e).converse.2 r) : Leaf step f w r

variable (f : SequenceFrame β κ) (w : World) (step : NamedTask β)

lemma applyFlowDirective_finish {g : SequenceFrame β κ} {data : StepDataValue}
    (hf : f = { g with data := data, stepInput := none }) (hc : LeavesContext step w context)
    (then_ : String) :
    Finish then_ step g w (f.applyFlowDirective { w with context := context } step then_) := by
  subst hf
  rw [applyFlowDirective]
  split
  · next hresolve => exact .misdirect _ hresolve hc
  · exact .next _ hc _
  · exact .next _ hc _
  · exact .last hc (.inl rfl)
  · exact .last hc (.inr rfl)

lemma exportTaskResult_leavesContext {scope : Scope} {input output : StepDataValue}
    (h : exportTaskResult setup.engine w.context scope step input output = .ok context) :
    LeavesContext step w context := by
  intro hexport
  simp only [exportTaskResult,hexport,Option.bind_none] at h
  cases h
  rfl

lemma applyCompletedStep_finish (raw : StepDataValue) (then_ : String) :
    Finish then_ step f w (f.applyCompletedStep setup w step raw then_) := by
  rw [applyCompletedStep]
  split
  · next h => exact .stuck h
  split
  · exact .fail (by decide) _ _
  split
  · exact .fail (by decide) _ _
  · next h => exact applyFlowDirective_finish _ _ _ rfl (exportTaskResult_leavesContext _ _ _ h) _

lemma applyOutcome_resume (outcome : ChildOutcome) : Resume f w (f.applyOutcome setup w outcome) := by
  simp only [applyOutcome]
  split
  · next h => exact .fail _ (by simpa [ChildOutcome.isError,failureAt] using h)
  split
  · next h => exact .lost h
  · next h => exact .finish h (applyCompletedStep_finish _ _ _ _ _ _)

section Terms
variable {T : Terms} {engine : ExpressionEngine} {name : String}

lemma drainOwn_ask {e : Event} (he : T.asks (some (setup.freshId w.nextChild)) e) :
    Ask setup T f w ({ f with waitingChildId := some (setup.freshId w.nextChild) }.drainOwn setup
      (f.askedWorld setup w e) (setup.freshId w.nextChild)) := by
  rw [drainOwn]
  split
  · next h => exact .wait he h
  · next h => exact .resume he h (applyOutcome_resume _ _ _ _)

lemma advanceCall_leaf (call : CallBody) (input : StepDataValue)
    (hasks : ∀ id child, T.asks (some id) (.submit id child)) :
    Leaf setup T step f w (f.advanceCall setup w step call input) := by
  rw [advanceCall,executeCall]
  cases projectCall setup.engine call.with_ input.json (lexicalArguments f.scope w.context) with
  | error message => exact .fail .untouched (by decide) _ _
  | ok projection => exact .ask (drainOwn_ask setup f w (hasks _ _))

lemma advanceSet_leaf (body : SetBody) (input : StepDataValue) (ht : T.directs (stepThen step)) :
    Leaf setup T step f w (f.advanceSet setup w step body input) := by
  rw [advanceSet]
  split
  · exact .fail .untouched (by decide) _ _
  · exact .finish ht (applyCompletedStep_finish _ _ _ _ _ _)

lemma selectCase_mem {context : Jv} {scope : Scope} {subject : Jv} {cases : List NamedCase} {c : NamedCase}
    (h : selectCase engine context scope name subject cases = .ok (some c)) : c ∈ cases := by
  induction cases with
  | nil => cases h
  | cons c' rest ih =>
    rw [selectCase] at h
    split at h
    · exact List.mem_cons_of_mem _ (ih h)
    · dsimp only at h
      split at h
      · cases h
      · obtain ⟨b,-,h⟩ := bind_eq_ok.mp h
        split at h
        · cases h
          exact List.mem_cons_self
        · exact List.mem_cons_of_mem _ (ih h)

lemma selectSwitchDirective_mem {context : Jv} {scope : Scope}
    {body : SwitchBody} {input : StepDataValue} {then_ : String}
    (h : selectSwitchDirective engine context scope name body input = .ok (some then_)) :
    ∃ c ∈ body.cases, c.then_ = some then_ := by
  have hfallback : (body.cases.find? (fun c => c.when_.isNone)).bind NamedCase.then_ = some then_ →
      ∃ c ∈ body.cases, c.then_ = some then_ := by
    intro h
    obtain ⟨c,hc,hthen⟩ := Option.bind_eq_some_iff.mp h
    exact ⟨c,List.mem_of_find?_eq_some hc,hthen⟩
  rw [selectSwitchDirective] at h
  split at h
  · exact hfallback (Except.ok.inj h)
  split at h
  · cases h
  obtain ⟨selected,hselected,h⟩ := bind_eq_ok.mp h
  cases selected with
  | none => exact hfallback (Except.ok.inj h)
  | some c => exact ⟨c,selectCase_mem hselected,Except.ok.inj h⟩

lemma advanceSwitch_leaf (body : SwitchBody) (input : StepDataValue) (ht : T.directs (stepThen step))
    (hcases : ∀ c ∈ body.cases, ∀ then_ ∈ c.then_, T.directs then_) :
    Leaf setup T step f w (f.advanceSwitch setup w step body input) := by
  rw [advanceSwitch]
  split
  · exact .fail .untouched (by decide) _ _
  · next selected hselected =>
    refine .finish ?_ (applyCompletedStep_finish _ _ _ _ _ _)
    cases selected with
    | none => exact ht
    | some then_ =>
      obtain ⟨c,hc,hthen⟩ := selectSwitchDirective_mem hselected
      exact hcases c hc then_ hthen

section Run
variable (body : RunBody) (input : StepDataValue)
  (hasks : ∀ id embedded input, extractEmbeddedWorkflow body = .ok embedded →
    T.asks id (.startRun id embedded.definition input))
  (hdefect : ∀ e, extractEmbeddedWorkflow body = .error e → T.defects .embeddedWorkflow)
include hasks hdefect

lemma executeRun_cases :
    (∃ message w', Refuse setup T f w w' ∧ f.executeRun setup w body input = (.error message,f,w')) ∨
    (isAwaited body = true ∧ ∃ e : Event, T.asks (some (setup.freshId w.nextChild)) e ∧
      f.executeRun setup w body input = (.ok (),
        { f with waitingChildId := some (setup.freshId w.nextChild) }.drainOwn setup
          (f.askedWorld setup w e) (setup.freshId w.nextChild))) ∨
    (isAwaited body = false ∧ ∃ e : Event, T.asks none e ∧
      f.executeRun setup w body input = (.ok (),f,(w.record e).converse.2)) := by
  simp only [executeRun]
  split
  · next hextract => exact .inl ⟨_,_,.defect (hdefect _ hextract),rfl⟩
  next embedded hextract =>
  split
  · exact .inl ⟨_,_,.untouched,rfl⟩
  split
  · next hawait =>
    split
    · exact .inl ⟨_,_,.start (hasks _ _ _ hextract),rfl⟩
    · exact .inr (.inl ⟨hawait,_,hasks _ _ _ hextract,rfl⟩)
  · next hawait =>
    cases hstart : (w.record (.startRun none embedded.definition input.bytes)).converse.1 with
    | error message => exact .inl ⟨_,_,.detach (hasks _ _ _ hextract),rfl⟩
    | ok _ => exact .inr (.inr ⟨by simpa using hawait,_,hasks _ _ _ hextract,rfl⟩)

omit hasks hdefect in
lemma afterExecute_same : (f.afterExecute w).1 = none → f.afterExecute w = (none,f,w) := by
  intro h
  rw [afterExecute] at h ⊢
  split at h
  · cases h
  · split at h
    · cases h
    · next hwaiting => rw [if_neg hwaiting]

lemma advanceRun_leaf : Leaf setup T step f w (f.advanceRun setup w step body input) := by
  rw [advanceRun]
  rcases executeRun_cases setup f w body input hasks hdefect with
    ⟨message,w',hw',heq⟩ | ⟨hawait,e,he,heq⟩ | ⟨hawait,e,he,heq⟩ <;> rw [heq]
  · exact .fail hw' (by decide) _ _
  · simp only [hawait,if_true]
    have h : Leaf setup T step f w _ := .ask (drainOwn_ask setup f w he)
    split <;> rename_i hafter <;> rwa [hafter] at h
  · simp only [hawait,Bool.false_eq_true,if_false]
    have h : Leaf setup T step f w (f.afterExecute (w.record e).converse.2) := .ask (.detach he)
    split <;> rename_i hafter
    · rwa [hafter] at h
    · rw [afterExecute_same _ _ (by rw [hafter])] at hafter
      cases hafter
      exact .detach he (applyCompletedStep_finish _ _ _ _ _ _)

end Run
end Terms
end SequenceFrame

def Terms.of {τ : Type} (step : NamedTask (TaskBody τ)) : Terms where
  directs then_ := then_ = stepThen step ∨
    ∃ body, step.task.body = .switch body ∧ ∃ c ∈ body.cases, c.then_ = some then_
  asks id e := match step.task.body with
    | .call _ => ∃ id' child, id = some id' ∧ e = .submit id' child
    | .run body => ∃ embedded input, extractEmbeddedWorkflow body = .ok embedded ∧
        e = .startRun id embedded.definition input
    | _ => False
  defects d := match step.task.body with
    | .run body => d = .embeddedWorkflow ∧ ∃ e, extractEmbeddedWorkflow body = .error e
    | .emit | .listen | .raise | .try_ | .wait => d = .taskKind
    | _ => False
  asksFor := by
    intro id e h
    split at h
    · obtain ⟨id',child,rfl,rfl⟩ := h
      rfl
    · obtain ⟨embedded,input,-,rfl⟩ := h
      rfl
    · exact h.elim

namespace SequenceFrame

lemma runBody_cases (setup : Setup) {β κ : Type} (ops : FrameOps β κ)
    (step : NamedTask (TaskBody (NamedTask β))) (input : StepDataValue)
    (f : SequenceFrame (TaskBody (NamedTask β)) (Container β κ)) (w : World) :
    step.task.body.isContainer = true ∧
        runBody setup ops step input f w = advanceContainer setup ops step input f w ∨
      step.task.body.isContainer = false ∧
        Leaf setup (.of step) step f w (runBody setup ops step input f w) := by
  have hthen : (Terms.of step).directs (stepThen step) := .inl rfl
  rw [runBody]
  split <;> rename_i hbody <;> rw [hbody]
  · refine .inr ⟨rfl,advanceCall_leaf _ _ _ _ _ _ fun id child => ?_⟩
    simp only [Terms.of,hbody]
    exact ⟨id,child,rfl,rfl⟩
  · refine .inr ⟨rfl,advanceRun_leaf _ _ _ _ _ _ ?_ ?_⟩
    · intro id embedded input hextract
      simp only [Terms.of,hbody]
      exact ⟨embedded,input,hextract,rfl⟩
    · intro e hextract
      simp only [Terms.of,hbody,true_and]
      exact ⟨e,hextract⟩
  · exact .inl ⟨rfl,rfl⟩
  · exact .inl ⟨rfl,rfl⟩
  · exact .inl ⟨rfl,rfl⟩
  · exact .inr ⟨rfl,advanceSet_leaf _ _ _ _ _ _ hthen⟩
  · refine .inr ⟨rfl,advanceSwitch_leaf _ _ _ _ _ _ hthen ?_⟩
    exact fun c hc then_ hthen => .inr ⟨_,hbody,c,hc,hthen⟩
  all_goals
    refine .inr ⟨rfl,.fail (.defect ?_) (by decide) _ _⟩
    simp only [Terms.of,hbody]

end SequenceFrame

namespace WorkflowInterpreter
variable {setup : Setup}

lemma drain_keeps {P : WorkflowInterpreter → Prop} (hP : ∀ i id outcome, P i → i.state.isTerminal = false →
      i.world.pending.lookup id = some outcome → P (i.drainOne setup id outcome))
    {i : WorkflowInterpreter} (h : P i) (k : ℕ) : P (drain setup k i) := by
  induction k generalizing i with
  | zero => exact h
  | succ k ih =>
    rw [drain]
    split
    · exact h
    next hrunning =>
    split
    · exact h
    split
    · exact h
    · next outcome hid => exact ih (hP i _ outcome h (by simpa using hrunning) hid)

lemma cancelRuns_keeps {P : World → Prop} (hP : ∀ w id, P w → P (w.record (.cancelRun id))) {w : World}
    (h : P w) : P (cancelRuns setup w) := by
  rw [cancelRuns]
  split
  · generalize w.owners.keys = ids
    induction ids generalizing w with
    | nil => exact h
    | cons id ids ih => exact ih (hP w id h)
  · exact h

end WorkflowInterpreter
end Strij.OpenWorkflow
