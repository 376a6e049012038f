import Strij.Lib.FiniteMap
import Strij.OpenWorkflow.Reference

/-! Frames and the direct style: a frame is bound for the result that the reference evaluator comes to from
where the frame stands, and advancing it keeps it so. -/
namespace Strij.OpenWorkflow
open Reference (Result Yield fromStep follow proceed loop goOn)

/-- The children answer as `answer` has it, and no budget is exceeded. -/
structure Fair (answer : ChildTask → String) (log : List Event) : Prop where
  budget : .budget ∉ log
  answers : ∀ id outcome child, .deliver id outcome ∈ log → .submit id child ∈ log →
    outcome.status = .ok ∧ outcome.body = answer child

lemma Fair.of_suffix {answer : ChildTask → String} {log log' : List Event} (h : Fair answer log')
    (hlog : log <:+ log') : Fair answer log where
  budget hmem := h.budget (hlog.mem hmem)
  answers id outcome child hdeliver hsubmit := h.answers id outcome child (hlog.mem hdeliver) (hlog.mem hsubmit)

namespace World
variable {w w' : World} {setup : Setup}

def Queued (w : World) : Prop := ∀ id outcome, w.pending.lookup id = some outcome → .deliver id outcome ∈ w.log

lemma Queued.deliver (h : w.Queued) (x : String × ChildOutcome) : (w.deliver x).Queued := by
  have hrecord : (w.record (.deliver x.1 x.2)).Queued := fun id outcome hid =>
    List.mem_cons_of_mem _ (h id outcome hid)
  rw [World.deliver]
  split
  · intro id outcome hid
    by_cases heq : id = x.1
    · subst heq
      cases Option.some.inj ((AList.lookup_insert _).symm.trans hid)
      exact List.mem_cons_self
    · exact hrecord id outcome ((AList.lookup_insert_ne heq).symm.trans hid)
  · exact hrecord

lemma Queued.converse (h : w.Queued) : w.converse.2.Queued :=
  converse_keeps (fun _ _ h => h) (fun _ x h => h.deliver x) h

lemma Queued.act (h : w.Queued) (hact : Act setup w w') : w'.Queued := by
  cases hact with
  | record _ => exact fun id outcome hid => List.mem_cons_of_mem _ (h id outcome hid)
  | ask _ _ => exact fun id outcome hid => List.mem_cons_of_mem _ (h id outcome hid)
  | detach _ => exact fun id outcome hid => List.mem_cons_of_mem _ (h id outcome hid)
  | converse => exact h.converse
  | drop k => exact fun id outcome hid => h id outcome (Strij.Lib.lookup_erase_eq_some hid).2
  | context _ => exact h
  | frames _ => exact h
  | forget _ => exact h

lemma Queued.acts (h : w.Queued) (hacts : Acts setup w w') : w'.Queued := by
  induction hacts with
  | refl => exact h
  | tail _ hact ih => exact ih.act hact

lemma converse_context (w : World) (h : w.context = emptyContext) : w.converse.2.context = emptyContext := by
  refine converse_keeps (P := fun w => w.context = emptyContext) (fun _ _ h => h) (fun w x h => ?_) h
  rw [World.deliver]
  split <;> exact h

end World

def Reference.Result.frameResult : Result → FrameResult
  | .completed value => .completed value
  | .ended value => .ended value

structure Plan (β κ : Type) where
  body : Reference.BodyEval β
  nests : NamedTask β → Prop
  bound : List Event → κ → Result → Prop
  views : κ → List FrameView
  mono : ∀ {log log' c r}, log ⊆ log' → bound log c r → bound log' c r

namespace SequenceFrame
section Definitions
variable (setup : Setup) (answer : ChildTask → String) {β κ : Type} (P : Plan β κ) (log : List Event)

structure Unbroken (f : SequenceFrame β κ) : Prop where
  active : f.state = .active
  failure : f.failure = none
  pending : f.pendingResult = none

structure Up (step : NamedTask β) (input : StepDataValue) (f : SequenceFrame β κ) : Prop where
  current : f.steps[f.cursor]? = some step
  condition : evaluateCondition setup.engine emptyContext f.scope step f.data = .ok true
  input : transformTaskInput setup.engine emptyContext f.scope step f.data = .ok input

def rest (k : ℕ) (f : SequenceFrame β κ) : ℕ → StepDataValue → Option Result :=
  fromStep setup.engine f.scope f.steps P.body k

inductive BoundFor (f : SequenceFrame β κ) (r : Result) : Prop
  | ready (hf : f.Unbroken) (hidle : f.Idle) (k : ℕ) (h : f.rest setup P k f.cursor f.data = some r)
  | waiting (hf : f.Unbroken) (hchild : f.child = none) {id : String} {child : ChildTask}
      {step : NamedTask β} {input : StepDataValue} (hid : f.waitingChildId = some id)
      (hsubmit : .submit id child ∈ log) (hstep : f.steps[f.cursor]? = some step)
      (hinput : f.stepInput = some input) (k : ℕ)
      (h : follow setup.engine f.scope f.steps (f.rest setup P k) f.cursor step input
        (.fromBytes setup.engine.lib (answer child)) (stepThen step) = some r)
  | nested (hf : f.Unbroken) (hwaiting : f.waitingChildId = none) {step : NamedTask β}
      {input : StepDataValue} {c : κ} {inner : Result} (hup : f.Up setup step input) (hnests : P.nests step)
      (hchild : f.child = some c) (hc : P.bound log c inner) (k : ℕ)
      (h : proceed setup.engine f.scope f.steps (f.rest setup P k) f.cursor step input
        (inner.yield (stepThen step)) = some r)
  | left (hstate : f.state = .completed) (hidle : f.Idle) (hcursor : (f.steps[f.cursor]?).isSome = true)
      (hfailure : f.failure = none) (h : f.pendingResult = some r.frameResult)

def Waits (f : SequenceFrame β κ) : Prop := ∃ v ∈ f.views P.views, v.slot.2.isSome = true

inductive Advances (r : Result) : FrameResult → SequenceFrame β κ → World → Prop
  | suspended {f : SequenceFrame β κ} {w : World} (hcontext : w.context = emptyContext)
      (h : f.BoundFor setup answer P w.log r) (hwaits : f.Waits P) : Advances r .suspended f w
  | completed {f : SequenceFrame β κ} {w : World} (hcontext : w.context = emptyContext) (hidle : f.Idle)
      {value : StepDataValue} (h : r = .completed value) : Advances r (.completed value) f w
  | ended {f : SequenceFrame β κ} {w : World} (hcontext : w.context = emptyContext)
      {value : StepDataValue} (h : r = .ended value) : Advances r (.ended value) f w

inductive StepAdvances (r : Result) : Option FrameResult × SequenceFrame β κ × World → Prop
  | next {f : SequenceFrame β κ} {w : World} (hcontext : w.context = emptyContext)
      (h : f.BoundFor setup answer P w.log r) : StepAdvances r (none,f,w)
  | stop {result : FrameResult} {f : SequenceFrame β κ} {w : World}
      (h : Advances setup answer P r result f w) : StepAdvances r (some result,f,w)

/-- The step that was taken up is due: from its beginning, or with its nested frame. -/
inductive Due (step : NamedTask β) (input : StepDataValue) (f : SequenceFrame β κ) (r : Result) : Prop
  | fresh (hidle : f.Idle) {y : Yield} (hbody : P.body f.scope step input = some y) (k : ℕ)
      (h : proceed setup.engine f.scope f.steps (f.rest setup P k) f.cursor step input y = some r)
  | again (hwaiting : f.waitingChildId = none) (hnests : P.nests step) {c : κ} {inner : Result}
      (hchild : f.child = some c) (hc : P.bound log c inner) (k : ℕ)
      (h : proceed setup.engine f.scope f.steps (f.rest setup P k) f.cursor step input
        (inner.yield (stepThen step)) = some r)

def BodyFollows (runBody : RunBodyFn β κ) : Prop :=
  ∀ step input (f : SequenceFrame β κ) (w : World) r, f.Unbroken → f.Up setup step input →
    f.stepInput = some input → Due setup P w.log step input f r → w.Queued → w.context = emptyContext →
    Fair answer (runBody step input f w).2.2.log →
      StepAdvances setup answer P r (runBody step input f w)

end Definitions

section Steps
variable {setup : Setup} {answer : ChildTask → String} {β κ : Type} {P : Plan β κ} {log log' : List Event}
  {f : SequenceFrame β κ} {r : Result} {w : World} {step : NamedTask β} {input : StepDataValue}
  {applyChild : κ → World → Option (κ × World)} {out : SequenceFrame β κ × World} {runBody : RunBodyFn β κ} {id : String} {k : ℕ}

lemma BoundFor.mono (h : f.BoundFor setup answer P log r) (hlog : log ⊆ log') :
    f.BoundFor setup answer P log' r := by
  cases h with
  | ready hf hidle k h => exact .ready hf hidle k h
  | waiting hf hchild hid hsubmit hstep hinput k h =>
    exact .waiting hf hchild hid (hlog hsubmit) hstep hinput k h
  | nested hf hwaiting hup hnests hchild hc k h =>
    exact .nested hf hwaiting hup hnests hchild (P.mono hlog hc) k h
  | left hstate hidle hcursor hfailure h => exact .left hstate hidle hcursor hfailure h

lemma applyCompletedStep_bound (answer : ChildTask → String) (log : List Event) (hf : f.Unbroken)
    (hidle : f.Idle) (hstep : f.steps[f.cursor]? = some step) (hinput : f.stepInput = some input)
    {raw : StepDataValue} {then_ : String} (hcontext : w.context = emptyContext)
    (h : follow setup.engine f.scope f.steps (f.rest setup P k) f.cursor step input raw then_ = some r) :
    ∃ f', f.applyCompletedStep setup w step raw then_ = (none,f',w) ∧
      f'.BoundFor setup answer P log r ∧ f'.failure = none ∧ f'.Idle := by
  rw [follow] at h
  split at h
  · cases h
  next hexport =>
  have hexported : ∀ output, exportTaskResult setup.engine w.context f.scope step input output =
      .ok w.context := by
    intro output
    rw [exportTaskResult,Option.not_isSome_iff_eq_none.mp hexport]
    rfl
  rw [← hcontext] at h
  split at h
  · cases h
  next output houtput =>
  simp only [applyCompletedStep,hinput,houtput,hexported,applyFlowDirective]
  cases hresolve : resolveFlowDirective (f.steps.map NamedTask.name) then_ with
  | error message =>
    rw [hresolve] at h
    cases h
  | ok directive =>
    rw [hresolve] at h
    cases directive with
    | continue_ => exact ⟨_,rfl,.ready ⟨hf.active,hf.failure,hf.pending⟩ hidle k h,hf.failure,hidle⟩
    | jump target => exact ⟨_,rfl,.ready ⟨hf.active,hf.failure,hf.pending⟩ hidle k h,hf.failure,hidle⟩
    | exit =>
      cases h
      exact ⟨_,rfl,.left rfl hidle (by rw [hstep]; rfl) hf.failure rfl,hf.failure,hidle⟩
    | end_ =>
      cases h
      exact ⟨_,rfl,.left rfl hidle (by rw [hstep]; rfl) hf.failure rfl,hf.failure,hidle⟩

lemma applyOutcome_bound (h : f.BoundFor setup answer P log r) {outcome : ChildOutcome}
    (hactive : f.state = .active) (hid : f.waitingChildId = some id)
    (houtcome : ∀ child, .submit id child ∈ log → outcome.status = .ok ∧ outcome.body = answer child)
    (hcontext : w.context = emptyContext) :
    ∃ f', f.applyOutcome setup w outcome = (f',w) ∧ f'.BoundFor setup answer P log r ∧
      f'.failure = none ∧ f'.Idle := by
  cases h with
  | ready _ hidle => cases hidle.2.symm.trans hid
  | nested _ hwaiting => cases hwaiting.symm.trans hid
  | left hstate => cases hstate.symm.trans hactive
  | @waiting hf hchild id' child step input hid' hsubmit hstep hinput k h =>
    cases hid'.symm.trans hid
    obtain ⟨hstatus,hbody⟩ := houtcome child hsubmit
    let g : SequenceFrame β κ := { f with waitingChildId := none }
    have hg : g.Unbroken := ⟨hf.active,hf.failure,hf.pending⟩
    obtain ⟨f',heq,hbound,hfailure,hidle⟩ :=
      applyCompletedStep_bound answer log hg ⟨hchild,rfl⟩ hstep hinput hcontext h
    refine ⟨f',?_,hbound,hfailure,hidle⟩
    have herror : outcome.isError = false := by simp [ChildOutcome.isError,hstatus]
    rw [applyOutcome,herror,if_neg Bool.false_ne_true]
    dsimp only
    rw [hstep]
    dsimp only
    rw [hbody]
    exact congrArg Prod.snd heq

lemma BoundFor.stepAdvances (h : f.BoundFor setup answer P w.log r) (hcontext : w.context = emptyContext)
    (hfailure : f.failure = none) (hwaiting : f.waitingChildId = none) :
    StepAdvances setup answer P r (f.afterExecute w) := by
  rw [afterExecute,hfailure]
  dsimp only
  rw [hwaiting]
  exact .next hcontext h

lemma afterExecute_world (f : SequenceFrame β κ) (w : World) : (f.afterExecute w).2.2 = w := by
  rw [afterExecute]
  split
  · rfl
  · split <;> rfl

lemma advanceCall_bound (hf : f.Unbroken) (hidle : f.Idle) (hstep : f.steps[f.cursor]? = some step)
    (hinput : f.stepInput = some input) {call : CallBody} {p : CallProjection}
    (hproject : projectCall setup.engine call.with_ input.json (lexicalArguments f.scope emptyContext) = .ok p)
    (h : follow setup.engine f.scope f.steps (f.rest setup P k) f.cursor step input
      (.fromBytes setup.engine.lib (answer ⟨p.type,p.parameters,p.requirements,input.bytes⟩))
      (stepThen step) = some r) (hqueued : w.Queued) (hcontext : w.context = emptyContext)
    (hfair : Fair answer (f.advanceCall setup w step call input).2.2.log) :
    StepAdvances setup answer P r (f.advanceCall setup w step call input) := by
  let id := setup.freshId w.nextChild
  let child : ChildTask := ⟨p.type,p.parameters,p.requirements,input.bytes⟩
  let asked : World := ((w.register id f.id).record (.submit id child)).converse.2
  let g : SequenceFrame β κ := { f with waitingChildId := some id }
  have heq : f.advanceCall setup w step call input =
      (g.drainOwn setup asked id).1.afterExecute (g.drainOwn setup asked id).2 := by
    rw [advanceCall,executeCall,hcontext,hproject]
  have hconverse : Act setup ((w.register id f.id).record (.submit id child)) asked := .converse
  have hacts : Acts setup w asked := .head (.ask f.id rfl) (.single hconverse)
  have hsubmit : .submit id child ∈ asked.log := hconverse.log_suffix.mem List.mem_cons_self
  have hasked : asked.context = emptyContext := World.converse_context _ hcontext
  have hbound : g.BoundFor setup answer P asked.log r :=
    .waiting ⟨hf.active,hf.failure,hf.pending⟩ hidle.1 rfl hsubmit hstep hinput k h
  rw [heq] at hfair ⊢
  rw [drainOwn] at hfair ⊢
  cases hpending : asked.pending.lookup id with
  | none =>
    dsimp only
    rw [afterExecute,hf.failure]
    refine .stop (.suspended hasked hbound ⟨g.view,List.mem_cons_self,?_⟩)
    simp [view,g,hf.active]
  | some outcome =>
    rw [hpending,afterExecute_world] at hfair
    have hresumed : Acts setup (asked.drop id) (g.applyOutcome setup (asked.drop id) outcome).2 :=
      (applyOutcome_resume setup g (asked.drop id) outcome).acts
    have hanswers := (hfair.of_suffix hresumed.log_suffix).answers id outcome
    have hdelivered : .deliver id outcome ∈ asked.log := hqueued.acts hacts id outcome hpending
    obtain ⟨f',happly,hbound',hfailure,hidle'⟩ := applyOutcome_bound (w := asked.drop id) hbound hf.active rfl
      (fun child hchild => hanswers child hdelivered hchild) hasked
    have hdropped : f'.BoundFor setup answer P (asked.drop id).log r := hbound'
    dsimp only
    rw [happly]
    exact hdropped.stepAdvances hasked hfailure hidle'.2

lemma Advances.result (hcontext : w.context = emptyContext)
    (hidle : f.Idle) (r : Result) : Advances setup answer P r r.frameResult f w := by
  cases r with
  | completed value => exact .completed hcontext hidle rfl
  | ended value => exact .ended hcontext rfl

/-- What the loop of a frame that is bound for a result finds at its head. -/
lemma BoundFor.loopHead (h : f.BoundFor setup answer P w.log r) (hcontext : w.context = emptyContext) :
    (∃ result f', f.loopHead = .stop result f' ∧ Advances setup answer P r result f' w) ∨
    ∃ step, f.loopHead = .take step ∧ f.Unbroken ∧ f.steps[f.cursor]? = some step ∧ f.waitingChildId = none ∧
      ((f.child = none ∧ ∃ k, f.rest setup P k f.cursor f.data = some r) ∨
        ∃ input, f.Up setup step input ∧ Due setup P w.log step input f r) := by
  cases h with
  | ready hf hidle k h =>
    cases hstep : f.steps[f.cursor]? with
    | none =>
      have hidle' : ({ f with state := .completed } : SequenceFrame β κ).Idle := hidle
      refine .inl ⟨.completed f.data,_,?_,.completed hcontext hidle' ?_⟩
      · simp [SequenceFrame.loopHead,hstep]
      cases k with
      | zero => cases h
      | succ k =>
        rw [rest,fromStep,hstep] at h
        exact (Option.some.inj h).symm
    | some step =>
      refine .inr ⟨step,?_,hf,rfl,hidle.2,.inl ⟨hidle.1,k,h⟩⟩
      simp [SequenceFrame.loopHead,hstep,hf.pending,hidle.2,hf.failure]
  | @waiting hf hchild id child step input hid hsubmit hstep hinput k h =>
    refine .inl ⟨.suspended,f,?_,.suspended hcontext (.waiting hf hchild hid hsubmit hstep hinput k h) ?_⟩
    · simp [SequenceFrame.loopHead,hstep,hf.pending,hid]
    · exact ⟨f.view,List.mem_cons_self,by simp [view,hf.active,hid]⟩
  | @nested hf hwaiting step input c inner hup hnests hchild hc k h =>
    refine .inr ⟨step,?_,hf,hup.current,hwaiting,.inr ⟨input,hup,.again hwaiting hnests hchild hc k h⟩⟩
    simp [SequenceFrame.loopHead,hup.current,hf.pending,hwaiting,hf.failure]
  | left hstate hidle hcursor hfailure h =>
    obtain ⟨step,hstep⟩ := Option.isSome_iff_exists.mp hcursor
    have hidle' : ({ f with pendingResult := none } : SequenceFrame β κ).Idle := hidle
    refine .inl ⟨_,_,?_,.result hcontext hidle' r⟩
    simp [SequenceFrame.loopHead,hstep,h]

variable (hrun : BodyFollows setup answer P runBody)
include hrun

lemma takeStep_bound
    (hf : f.Unbroken) (hstep : f.steps[f.cursor]? = some step) (hwaiting : f.waitingChildId = none)
    (h : (f.child = none ∧ ∃ k, f.rest setup P k f.cursor f.data = some r) ∨
      ∃ input, f.Up setup step input ∧ Due setup P w.log step input f r)
    (hqueued : w.Queued) (hcontext : w.context = emptyContext)
    (hfair : Fair answer (f.takeStep setup w runBody step).2.2.log) :
    StepAdvances setup answer P r (f.takeStep setup w runBody step) := by
  have hup : Acts setup w (f.takenUp w step) := .head (.record rfl) (recordIf_acts _ _ _ rfl)
  have hup_context : (f.takenUp w step).context = emptyContext := (takenUp_context f w step).trans hcontext
  have htransform : Acts setup (f.takenUp w step) (f.transforming (f.takenUp w step) step) :=
    recordIf_acts _ _ _ rfl
  have htransform_context : (f.transforming (f.takenUp w step) step).context = emptyContext :=
    (transforming_context f _ step).trans hup_context
  have hlog : w.log <:+ (f.transforming (f.takenUp w step) step).log := Acts.log_suffix (hup.trans htransform)
  -- once the input is there, the body runs
  have hbody : ∀ input, f.Up setup step input →
      Due setup P (f.transforming (f.takenUp w step) step).log step input { f with stepInput := some input } r →
      StepAdvances setup answer P r (f.takeStep setup w runBody step) := by
    intro input hinput hdue
    have heq : f.takeStep setup w runBody step =
        runBody step input { f with stepInput := some input } (f.transforming (f.takenUp w step) step) := by
      simp only [takeStep,hup_context,hinput.condition,htransform_context,hinput.input]
    rw [heq] at hfair ⊢
    exact hrun step input _ _ r ⟨hf.active,hf.failure,hf.pending⟩
      ⟨hinput.current,hinput.condition,hinput.input⟩ rfl hdue (hqueued.acts (hup.trans htransform))
      htransform_context hfair
  rcases h with ⟨hchild,k,h⟩ | ⟨input,hinput,hdue⟩
  · cases k with
    | zero => cases h
    | succ k =>
      rw [rest,fromStep,hstep] at h
      dsimp only at h
      split at h
      · cases h
      · next hcondition =>
        simp only [takeStep,hup_context,hcondition]
        refine .next hup_context (.ready ⟨hf.active,hf.failure,hf.pending⟩ ⟨hchild,hwaiting⟩ k h)
      · next hcondition =>
        split at h
        · cases h
        next input hinput =>
        obtain ⟨y,hy,h⟩ := Option.bind_eq_some_iff.mp h
        exact hbody input ⟨hstep,hcondition,hinput⟩ (.fresh ⟨hchild,hwaiting⟩ hy k h)
  · refine hbody input hinput ?_
    cases hdue with
    | fresh hidle hy k h => exact .fresh ⟨hidle.1,hidle.2⟩ hy k h
    | again hwaiting hnests hchild hc k h => exact .again hwaiting hnests hchild (P.mono hlog.subset hc) k h

lemma advanceLoop_bound (hacts : BodyActs setup runBody) (k : ℕ)
    (h : f.BoundFor setup answer P w.log r) (hqueued : w.Queued) (hcontext : w.context = emptyContext)
    (hfair : Fair answer (advanceLoop setup runBody k f w).2.2.log) :
    Advances setup answer P r (advanceLoop setup runBody k f w).1 (advanceLoop setup runBody k f w).2.1
      (advanceLoop setup runBody k f w).2.2 := by
  induction k generalizing f w with
  | zero =>
    rw [advanceLoop] at hfair ⊢
    rcases h.loopHead hcontext with ⟨result,f',hhead,h⟩ | ⟨step,hhead,-⟩
    · rw [hhead]
      exact h
    · rw [hhead] at hfair
      exact absurd List.mem_cons_self hfair.budget
  | succ k ih =>
    rw [advanceLoop] at hfair ⊢
    rcases h.loopHead hcontext with ⟨result,f',hhead,h⟩ | ⟨step,hhead,hf,hstep,hwaiting,h⟩
    · rw [hhead]
      exact h
    · rw [hhead] at hfair ⊢
      dsimp only at hfair ⊢
      have htaken := takeStep_acts setup f w hacts (List.mem_of_getElem? hstep)
      have hadvances := takeStep_bound hrun hf hstep hwaiting h hqueued hcontext
      generalize f.takeStep setup w runBody step = taken at hfair htaken hadvances ⊢
      obtain ⟨result,f',w'⟩ := taken
      cases result with
      | some result =>
        cases hadvances hfair with
        | stop h => exact h
      | none =>
        have hrest := advanceLoop_acts setup f' w' hacts k
        cases hadvances (hfair.of_suffix hrest.log_suffix) with
        | next hcontext h => exact ih h (hqueued.acts htaken) hcontext hfair

theorem advance_bound (hacts : BodyActs setup runBody)
    (h : f.BoundFor setup answer P w.log r) (hqueued : w.Queued) (hcontext : w.context = emptyContext)
    (hfair : Fair answer (f.advance setup w runBody).2.2.log) :
    Advances setup answer P r (f.advance setup w runBody).1 (f.advance setup w runBody).2.1
      (f.advance setup w runBody).2.2 := by
  have hloop : f.Unbroken → Advances setup answer P r (f.advance setup w runBody).1
      (f.advance setup w runBody).2.1 (f.advance setup w runBody).2.2 := by
    intro hf
    have heq : f.advance setup w runBody =
        advanceLoop setup runBody kDefaultSynchronousTransitionBudget f w := by
      simp only [advance,hf.pending,terminalResult,hf.active]
    rw [heq] at hfair ⊢
    exact advanceLoop_bound hrun hacts _ h hqueued hcontext hfair
  cases h with
  | ready hf hidle k h => exact hloop hf
  | waiting hf => exact hloop hf
  | nested hf => exact hloop hf
  | left hstate hidle hcursor hfailure h =>
    have hidle' : ({ f with pendingResult := none } : SequenceFrame β κ).Idle := hidle
    rw [advance,h]
    exact .result hcontext hidle' r

omit hrun

lemma applyOutcomeTo_bound {fid : FrameId} {outcome : ChildOutcome} (h : f.BoundFor setup answer P w.log r)
    (hslots : ∀ v ∈ f.views P.views, v.slot.1 = fid → v.slot.2 = some id)
    (houtcome : ∀ child, .submit id child ∈ w.log → outcome.status = .ok ∧ outcome.body = answer child)
    (hcontext : w.context = emptyContext)
    (hchild : ∀ c inner out, P.bound w.log c inner → (∀ v ∈ P.views c, v.slot.1 = fid → v.slot.2 = some id) →
      applyChild c w = some out → out.2 = w ∧ P.bound w.log out.1 inner)
    (happly : f.applyOutcomeTo setup w applyChild fid outcome = some out) :
    out.2 = w ∧ out.1.BoundFor setup answer P w.log r := by
  rw [applyOutcomeTo] at happly
  split at happly
  · next hfid =>
    have hslot : (if f.state = .active then f.waitingChildId else none) = some id :=
      hslots f.view List.mem_cons_self hfid
    split at hslot
    · next hactive =>
      obtain ⟨f',heq,hbound,-⟩ := applyOutcome_bound (w := w) h hactive hslot houtcome hcontext
      rw [heq] at happly
      cases happly
      exact ⟨rfl,hbound⟩
    · cases hslot
  · split at happly
    · cases happly
    next c hc =>
    obtain ⟨⟨c',w'⟩,hc',rfl⟩ := Option.map_eq_some_iff.mp happly
    cases h with
    | ready _ hidle => cases hidle.1.symm.trans hc
    | waiting _ hnone => cases hnone.symm.trans hc
    | left _ hidle => cases hidle.1.symm.trans hc
    | @nested hf hwaiting step input c₀ inner hup hnests hchild₀ hbound k h =>
      cases hchild₀.symm.trans hc
      have hviews : ∀ v ∈ P.views c, v.slot.1 = fid → v.slot.2 = some id := fun v hv =>
        hslots v (List.mem_cons_of_mem _ (by rw [hc]; exact hv))
      obtain ⟨hw,hbound'⟩ := hchild c inner _ hbound hviews hc'
      exact ⟨hw,.nested ⟨hf.active,hf.failure,hf.pending⟩ hwaiting ⟨hup.current,hup.condition,hup.input⟩
        hnests rfl hbound' k h⟩

lemma applyOutcomeTo_idle {fid : FrameId} {outcome : ChildOutcome} (hidle : f.Idle)
    (happly : f.applyOutcomeTo setup w applyChild fid outcome = some out) : f.id = fid := by
  by_contra hne
  rw [applyOutcomeTo,if_neg hne,hidle.1] at happly
  cases happly

end Steps
end SequenceFrame

end Strij.OpenWorkflow
