import Strij.OpenWorkflow.World

/-! The frame tree. A sequence frame runs the steps of one task list and owns at most one nested container; the
frames of level `n+1` are built over those of level `n`, as the tasks are. -/
namespace Strij.OpenWorkflow
open Strij.Wire (TaskStatus)

structure ExecutionFailure where
  status : TaskStatus
  origin : Option FrameId
  step : String
  message : String
  composed : Bool
  deriving DecidableEq, Repr

inductive FrameResult
  | suspended
  | completed (value : StepDataValue)
  | ended (value : StepDataValue)
  | failed (failure : ExecutionFailure)

inductive FrameState
  | pending
  | active
  | completed
  | failed
  | abandoned
  deriving DecidableEq, Repr

def FrameState.isTerminal : FrameState → Bool
  | .pending | .active => false
  | .completed | .failed | .abandoned => true

def FrameState.failActive : FrameState → FrameState
  | .active => .failed
  | state => state

structure Branch where
  index : ℕ
  name : String
  deriving DecidableEq, Repr

/-- `SequenceFrame`, over steps with bodies `β` and with nested containers `κ`. -/
structure SequenceFrame (β κ : Type) where
  id : FrameId
  steps : List (NamedTask β)
  branch : Option Branch := none
  scope : Scope := []
  forIterationBudget : ℕ
  state : FrameState := .pending
  cursor : ℕ := 0
  data : StepDataValue := .null
  stepInput : Option StepDataValue := none
  child : Option κ := none
  waitingChildId : Option String := none
  failure : Option ExecutionFailure := none
  pendingResult : Option FrameResult := none

def kDefaultSynchronousTransitionBudget : ℕ := 100000
def kDefaultSynchronousIterationBudget : ℕ := kDefaultSynchronousTransitionBudget

def stepThen {β : Type} (step : NamedTask β) : String := step.task.then_.getD "continue"

def declares {β : Type} (step : NamedTask β) : Bool :=
  step.task.if_.isSome || (step.task.input.bind Input.from_).isSome

namespace SequenceFrame
section Sequence
variable (setup : Setup) {β κ : Type} (f : SequenceFrame β κ) (w : World)

def enter (data : StepDataValue) : SequenceFrame β κ := { f with data := data, state := .active }

def failWith (failure : ExecutionFailure) : SequenceFrame β κ :=
  { f with failure := some failure, state := .failed }

def failureAt (status : TaskStatus) (step message : String) : ExecutionFailure :=
  ⟨status,some f.id,step,message,false⟩

def failStep (status : TaskStatus) (step message : String) :
    Option FrameResult × SequenceFrame β κ × World :=
  (some (.failed (f.failureAt status step message)),f.failWith (f.failureAt status step message),w)

def currentStepName : String := ((f.steps[f.cursor]?).map NamedTask.name).getD ""

def applyFlowDirective (step : NamedTask β) (then_ : String) :
    Option FrameResult × SequenceFrame β κ × World :=
  match resolveFlowDirective (f.steps.map NamedTask.name) then_ with
  | .error message => f.failStep (w.record (.defect .flowDirective)) .internal step.name message
  | .ok .continue_ => (none,{ f with cursor := f.cursor+1 },w)
  | .ok (.jump target) => (none,{ f with cursor := target },w)
  | .ok .exit => (none,{ f with pendingResult := some (.completed f.data), state := .completed },w)
  | .ok .end_ => (none,{ f with pendingResult := some (.ended f.data), state := .completed },w)

/-- `applyCompletedStep`. The step's input is there whenever the code comes here. -/
def applyCompletedStep (step : NamedTask β) (rawOutput : StepDataValue) (then_ : String) :
    Option FrameResult × SequenceFrame β κ × World :=
  match f.stepInput with
  | none => (none,f,w)
  | some input =>
    match transformTaskOutput setup.engine w.context f.scope step input rawOutput with
    | .error message => { f with stepInput := none }.failStep w .internal step.name message
    | .ok output => match exportTaskResult setup.engine w.context f.scope step input output with
      | .error message => { f with stepInput := none }.failStep w .internal step.name message
      | .ok context => { f with data := output, stepInput := none }.applyFlowDirective
          { w with context := context } step then_

def applyOutcome (outcome : ChildOutcome) : SequenceFrame β κ × World :=
  let f := { f with waitingChildId := none }
  if outcome.isError then
    (f.failWith (f.failureAt outcome.status f.currentStepName outcome.reason),w)
  else match f.steps[f.cursor]? with
    | none => (f,w)
    | some step =>
      (f.applyCompletedStep setup w step (.fromBytes setup.engine.lib outcome.body) (stepThen step)).2

/-- The end of `ExecuteCall` and `ExecuteRun`: an outcome that is there already is applied. -/
def drainOwn (id : String) : SequenceFrame β κ × World :=
  match w.pending.lookup id with
  | none => (f,w)
  | some outcome => f.applyOutcome setup (w.drop id) outcome

def executeCall (call : CallBody) (input : StepDataValue) :
    Except String Unit × SequenceFrame β κ × World :=
  match projectCall setup.engine call.with_ input.json (lexicalArguments f.scope w.context) with
  | .error message => (.error message,f,w)
  | .ok projection =>
    let id := setup.freshId w.nextChild
    let child := ⟨projection.type,projection.parameters,projection.requirements,input.bytes⟩
    let w := ((w.register id f.id).record (.submit id child)).converse.2
    (.ok (),{ f with waitingChildId := some id }.drainOwn setup w id)

def isAwaited (body : RunBody) : Bool := body.await.getD true

def executeRun (body : RunBody) (input : StepDataValue) :
    Except String Unit × SequenceFrame β κ × World :=
  match extractEmbeddedWorkflow body with
  | .error (_,message) => (.error message,f,w.record (.defect .embeddedWorkflow))
  | .ok embedded =>
    if !setup.runner then (.error "no nested workflow runner is configured",f,w)
    else if isAwaited body then
      let id := setup.freshId w.nextChild
      let r := ((w.register id f.id).record
        (.startRun (some id) embedded.definition input.bytes)).converse
      match r.1 with
      | .error message => (.error message,f,r.2.forgetChild id)
      | .ok () => (.ok (),{ f with waitingChildId := some id }.drainOwn setup r.2 id)
    else
      let r := (w.record (.startRun none embedded.definition input.bytes)).converse
      (r.1,f,r.2)

/-- What a step that submitted a child comes to: the failure of an outcome that was there already,
the wait for one, or the next step. -/
def afterExecute : Option FrameResult × SequenceFrame β κ × World :=
  match f.failure with
  | some failure => (some (.failed failure),{ f with state := f.state.failActive },w)
  | none => if f.waitingChildId.isSome then (some .suspended,f,w) else (none,f,w)

def advanceCall (step : NamedTask β) (call : CallBody) (input : StepDataValue) :
    Option FrameResult × SequenceFrame β κ × World :=
  match f.executeCall setup w call input with
  | (.error message,f,w) => f.failStep w .internal step.name message
  | (.ok (),f,w) => f.afterExecute w

def advanceRun (step : NamedTask β) (body : RunBody) (input : StepDataValue) :
    Option FrameResult × SequenceFrame β κ × World :=
  match f.executeRun setup w body input with
  | (.error message,f,w) => f.failStep w .internal step.name message
  | (.ok (),f,w) =>
    match f.afterExecute w with
    | (some r,f,w) => (some r,f,w)
    | (none,f,w) =>
      if isAwaited body then (none,f,w)
      -- a detached run completes the step with its transformed input
      else f.applyCompletedStep setup w step input (stepThen step)

def advanceSet (step : NamedTask β) (body : SetBody) (input : StepDataValue) :
    Option FrameResult × SequenceFrame β κ × World :=
  match evaluateSet setup.engine w.context f.scope body input with
  | .error message => f.failStep w .internal step.name message
  | .ok value => f.applyCompletedStep setup w step value (stepThen step)

def advanceSwitch (step : NamedTask β) (body : SwitchBody) (input : StepDataValue) :
    Option FrameResult × SequenceFrame β κ × World :=
  match selectSwitchDirective setup.engine w.context f.scope step.name body input with
  | .error message => f.failStep w .internal step.name message
  | .ok selected => f.applyCompletedStep setup w step input (selected.getD (stepThen step))

abbrev RunBodyFn (β κ : Type) := NamedTask β → StepDataValue → SequenceFrame β κ → World →
  Option FrameResult × SequenceFrame β κ × World

def takenUp (step : NamedTask β) : World :=
  (w.record (.takeUp f.id f.cursor f.child.isSome (declares step))).recordIf step.task.if_.isSome
    (.evaluateIf f.id f.cursor)

def transforming (step : NamedTask β) : World :=
  w.recordIf (step.task.input.bind Input.from_).isSome (.evaluateFrom f.id f.cursor)

def takeStep (runBody : RunBodyFn β κ) (step : NamedTask β) :
    Option FrameResult × SequenceFrame β κ × World :=
  let w := f.takenUp w step
  match evaluateCondition setup.engine w.context f.scope step f.data with
  | .error message => f.failStep w .internal step.name message
  | .ok false => (none,{ f with cursor := f.cursor+1 },w.record (.skip f.id f.cursor))
  | .ok true =>
    let w := f.transforming w step
    match transformTaskInput setup.engine w.context f.scope step f.data with
    | .error message => f.failStep w .internal step.name message
    | .ok input => runBody step input { f with stepInput := some input } w

def budgetMessage (name : String) : String :=
  "the sequence exceeded its synchronous step budget at step '" ++ name ++ "'"

inductive LoopHead (β κ : Type)
  | stop (result : FrameResult) (f : SequenceFrame β κ)
  | take (step : NamedTask β)

def loopHead : LoopHead β κ :=
  match f.steps[f.cursor]? with
  | none => .stop (.completed f.data) { f with state := .completed }
  | some step =>
    match f.pendingResult with
    | some r => .stop r { f with pendingResult := none }
    | none =>
      if f.waitingChildId.isSome then .stop .suspended f
      else match f.failure with
        | some failure => .stop (.failed failure) { f with state := f.state.failActive }
        | none => .take step

def failBudget (step : NamedTask β) : FrameResult × SequenceFrame β κ × World :=
  let failure := f.failureAt .internal step.name (budgetMessage step.name)
  (.failed failure,f.failWith failure,w.record .budget)

def advanceLoop (runBody : RunBodyFn β κ) : ℕ → SequenceFrame β κ → World →
    FrameResult × SequenceFrame β κ × World
  | 0, f, w => match f.loopHead with
    | .stop r f => (r,f,w)
    | .take step => f.failBudget w step
  | k+1, f, w => match f.loopHead with
    | .stop r f => (r,f,w)
    | .take step => match f.takeStep setup w runBody step with
      | (some r,f,w) => (r,f,w)
      | (none,f,w) => advanceLoop runBody k f w

def terminalResult : Option FrameResult :=
  match f.state, f.failure with
  | .failed, some failure => some (.failed failure)
  | .abandoned, _ => some .suspended
  | .completed, _ => some (.completed f.data)
  | _, _ => none

def advance (runBody : RunBodyFn β κ) : FrameResult × SequenceFrame β κ × World :=
  match f.pendingResult with
  | some r => (r,{ f with pendingResult := none },w)
  | none => match f.terminalResult with
    | some r => (r,f,w)
    | none => advanceLoop setup runBody kDefaultSynchronousTransitionBudget f w

def abandon (abandonChild : κ → World → κ × World) : SequenceFrame β κ × World :=
  if f.state.isTerminal then (f,w)
  else
    let w := match f.waitingChildId with
      | some id => w.forgetChild id
      | none => w
    match f.child with
    | none => ({ f with waitingChildId := none, state := .abandoned },w)
    | some child =>
      let r := abandonChild child w
      ({ f with waitingChildId := none, state := .abandoned, child := some r.1 },r.2)

def applyOutcomeTo (applyChild : κ → World → Option (κ × World)) (id : FrameId)
    (outcome : ChildOutcome) : Option (SequenceFrame β κ × World) :=
  if f.id = id then some (f.applyOutcome setup w outcome)
  else match f.child with
    | none => none
    | some child => (applyChild child w).map (fun r => ({ f with child := some r.1 },r.2))

end Sequence
end SequenceFrame

structure FrameOps (β κ : Type) where
  advance : SequenceFrame β κ → World → FrameResult × SequenceFrame β κ × World
  abandon : SequenceFrame β κ → World → SequenceFrame β κ × World
  applyOutcome : FrameId → ChildOutcome → SequenceFrame β κ → World →
    Option (SequenceFrame β κ × World)

structure ForkBranch (β κ : Type) where
  frame : SequenceFrame β κ
  result : Option StepDataValue := none

structure ForkFrame (β κ : Type) where
  branches : List (ForkBranch β κ)
  compete : Bool
  state : FrameState := .active

structure ForFrame (β κ : Type) where
  name : String
  body : ForBody (NamedTask β)
  scope : Scope
  names : LoopVariableNames
  iterationBudget : ℕ
  state : FrameState := .active
  started : Bool := false
  items : List Value := []
  nextIndex : ℕ := 0
  accumulator : StepDataValue
  bodyFrame : Option (SequenceFrame β κ) := none
  iterationScope : Option LexicalScope := none
  failure : Option ExecutionFailure := none

inductive Container (β κ : Type)
  | sequence (frame : SequenceFrame β κ)
  | fork (frame : ForkFrame β κ)
  | for_ (frame : ForFrame β κ)

namespace ForkFrame
variable (setup : Setup) {β κ : Type} (ops : FrameOps β κ)

def branchesFor (scope : Scope) (budget : ℕ) (data : StepDataValue) :
    List (NamedTask β) → ℕ → FrameId → List (ForkBranch β κ)
  | [], _, _ => []
  | t :: rest, index, id =>
    { frame := SequenceFrame.enter
        ⟨id,[t],some ⟨index,t.name⟩,scope,budget,.pending,0,.null,none,none,none,none,none⟩ data } ::
      branchesFor scope budget data rest (index+1) (id+1)

def composeFailure (branch : SequenceFrame β κ) (failure : ExecutionFailure) : ExecutionFailure :=
  { failure with
    message := "branch '" ++ (branch.branch.map Branch.name).getD "" ++ "': " ++
      (if failure.origin ≠ some branch.id ∧ failure.step ≠ "" then "step '" ++ failure.step ++ "': "
        else "") ++ failure.message
    step := ""
    composed := true }

inductive Pass
  | through
  | stopped (result : FrameResult)

def advanceBranches (compete : Bool) : List (ForkBranch β κ) → World →
    Pass × List (ForkBranch β κ) × World
  | [], w => (.through,[],w)
  | b :: rest, w =>
    if b.result.isSome then
      let r := advanceBranches compete rest w
      (r.1,b :: r.2.1,r.2.2)
    else match ops.advance b.frame w with
      | (.suspended,f,w) =>
        let r := advanceBranches compete rest w
        (r.1,{ b with frame := f } :: r.2.1,r.2.2)
      | (.ended value,f,w) => (.stopped (.ended value),{ b with frame := f } :: rest,w)
      | (.completed value,f,w) =>
        if compete then (.stopped (.completed value),{ b with frame := f } :: rest,w)
        else
          let r := advanceBranches compete rest w
          (r.1,⟨f,some value⟩ :: r.2.1,r.2.2)
      | (.failed failure,f,w) =>
        (.stopped (.failed (if failure.composed then failure else composeFailure f failure)),
          { b with frame := f } :: rest,w)

def abandonBranches : List (ForkBranch β κ) → World → List (ForkBranch β κ) × World
  | [], w => ([],w)
  | b :: rest, w =>
    let r := ops.abandon b.frame w
    let s := abandonBranches rest r.2
    ({ b with frame := r.1 } :: s.1,s.2)

/-- The texts of the results, or the name of the first branch whose result is not JSON. -/
def resultTexts : List (ForkBranch β κ) → Except String (List String)
  | [] => .ok []
  | b :: rest => match b.result with
    | none => resultTexts rest
    | some result =>
      if result.json.isSome then do return result.bytes :: (← resultTexts rest)
      else .error ((b.frame.branch.map Branch.name).getD "")

def joinAllForkResult (branches : List (ForkBranch β κ)) : Except ExecutionFailure StepDataValue :=
  match resultTexts branches with
  | .ok texts => .ok (.fromBytes setup.engine.lib ("[" ++ ",".intercalate texts ++ "]"))
  | .error name => .error ⟨.internal,none,"","branch '" ++ name ++
      "': the branch result is not a JSON value",true⟩

def stoppedState : FrameResult → FrameState
  | .failed _ => .failed
  | _ => .completed

def stop (f : ForkFrame β κ) (result : FrameResult) (w : World) :
    FrameResult × ForkFrame β κ × World :=
  let r := abandonBranches ops f.branches w
  (result,{ f with branches := r.1, state := stoppedState result },r.2)

def advance (f : ForkFrame β κ) (w : World) : FrameResult × ForkFrame β κ × World :=
  if f.state = .abandoned then (.suspended,f,w)
  else if f.branches.isEmpty then
    (.completed (.fromBytes setup.engine.lib "[]"),{ f with state := .completed },w)
  else match advanceBranches ops f.compete f.branches w with
    | (.stopped result,branches,w) => { f with branches := branches }.stop ops result w
    | (.through,branches,w) =>
      if f.compete || !branches.all (fun b => b.result.isSome) then
        (.suspended,{ f with branches := branches },w)
      else match joinAllForkResult setup branches with
        | .error failure => { f with branches := branches }.stop ops (.failed failure) w
        | .ok value => (.completed value,{ f with branches := branches, state := .completed },w)

def abandon (f : ForkFrame β κ) (w : World) : ForkFrame β κ × World :=
  if f.state.isTerminal then (f,w)
  else
    let r := abandonBranches ops f.branches w
    ({ f with branches := r.1, state := .abandoned },r.2)

def applyOutcomeIn (id : FrameId) (outcome : ChildOutcome) : List (ForkBranch β κ) → World →
    Option (List (ForkBranch β κ) × World)
  | [], _ => none
  | b :: rest, w => match ops.applyOutcome id outcome b.frame w with
    | some r => some ({ b with frame := r.1 } :: rest,r.2)
    | none => (applyOutcomeIn id outcome rest w).map (fun r => (b :: r.1,r.2))

end ForkFrame

namespace ForFrame
variable (setup : Setup) {β κ : Type} (ops : FrameOps β κ) (f : ForFrame β κ) (w : World)

def fail (message : String) : FrameResult × ForFrame β κ × World :=
  let failure : ExecutionFailure := ⟨.internal,none,f.name,message,false⟩
  (.failed failure,{ f with failure := some failure, state := .failed },w)

def collection (value : StepDataValue) : Except String (List Value) :=
  if value.json.isNone then .error "the for.in collection is not a JSON value"
  else match value.toValue with
    | .null => .ok []
    | .array items => .ok items
    | _ => .error forInMessage

def startCollection : Except String (List Value) := do
  collection (← evaluateForIn setup.engine w.context f.scope f.body.for_.in_ f.accumulator)

def scopeAt (item : Value) : LexicalScope where
  eachName := f.names.each
  item := Jv.ofValue setup.engine.lib item
  atName := f.names.at_
  index := .number (some (toString f.nextIndex))
    (setup.engine.lib.literalValue (toString f.nextIndex))

/-- `beginIteration`. The body's own loops get the default iteration budget. -/
def beginIteration (item : Value) : ForFrame β κ × World :=
  ({ f with
    nextIndex := f.nextIndex+1
    iterationScope := some (f.scopeAt setup item)
    bodyFrame := some (SequenceFrame.enter
      ⟨w.nextFrame,f.body.do_,none,f.scopeAt setup item :: f.scope,
        kDefaultSynchronousIterationBudget,.pending,0,.null,none,none,none,none,none⟩ f.accumulator) },
    { w with nextFrame := w.nextFrame+1 })

/-- `while` after an iteration; the iteration's variables are in scope. -/
def keepsGoing : Except String Bool :=
  evaluateForWhile setup.engine w.context (f.iterationScope.toList ++ f.scope) f.body.while_
    f.accumulator

def budgetMessage : String :=
  "the for task exceeded its synchronous iteration budget at '" ++ f.name ++ "'"

/-- The first half of a pass of the loop: the body is advanced and, when it completed, the loop goes
on or stops by `while`. Without a result the next element is due. -/
def finishIteration : Option FrameResult × ForFrame β κ × World :=
  match f.bodyFrame with
  | none => (none,f,w)
  | some body => match ops.advance body w with
    | (.suspended,body,w) => (some .suspended,{ f with bodyFrame := some body },w)
    | (.failed failure,body,w) => (some (.failed failure),
        { f with bodyFrame := some body, failure := some failure, state := .failed },w)
    | (.ended value,_,w) => (some (.ended value),
        { f with bodyFrame := none, iterationScope := none, state := .completed },w)
    | (.completed value,_,w) =>
      let f := { f with accumulator := value, bodyFrame := none }
      match f.keepsGoing setup w with
      | .error message => let r := f.fail w message; (some r.1,r.2)
      | .ok false => (some (.completed f.accumulator),
          { f with iterationScope := none, state := .completed },w)
      | .ok true => (none,{ f with iterationScope := none },w)

def advanceLoop : ℕ → ForFrame β κ → World → FrameResult × ForFrame β κ × World
  | 0, f, w => match f.finishIteration setup ops w with
    | (some r,f,w) => (r,f,w)
    | (none,f,w) => match f.items[f.nextIndex]? with
      | none => (.completed f.accumulator,{ f with state := .completed },w)
      | some _ => f.fail (w.record .budget) f.budgetMessage
  | k+1, f, w => match f.finishIteration setup ops w with
    | (some r,f,w) => (r,f,w)
    | (none,f,w) => match f.items[f.nextIndex]? with
      | none => (.completed f.accumulator,{ f with state := .completed },w)
      | some item =>
        let r := f.beginIteration setup w item
        advanceLoop k r.1 r.2

def advance : FrameResult × ForFrame β κ × World :=
  if f.state = .abandoned then (.suspended,f,w)
  else match f.failure with
    | some failure => (.failed failure,{ f with state := f.state.failActive },w)
    | none =>
      if f.started then advanceLoop setup ops f.iterationBudget f w
      else match f.startCollection setup w with
        | .error message => f.fail w message
        | .ok items => advanceLoop setup ops f.iterationBudget { f with started := true, items := items } w

def abandon : ForFrame β κ × World :=
  if f.state.isTerminal then (f,w)
  else match f.bodyFrame with
    | none => ({ f with state := .abandoned },w)
    | some body =>
      let r := ops.abandon body w
      ({ f with state := .abandoned, bodyFrame := some r.1 },r.2)

end ForFrame

namespace Container
variable (setup : Setup) {β κ : Type} (ops : FrameOps β κ)

def advance : Container β κ → World → FrameResult × Container β κ × World
  | .sequence f, w =>
    let r := ops.advance f w
    (r.1,.sequence r.2.1,r.2.2)
  | .fork f, w =>
    let r := f.advance setup ops w
    (r.1,.fork r.2.1,r.2.2)
  | .for_ f, w =>
    let r := f.advance setup ops w
    (r.1,.for_ r.2.1,r.2.2)

def abandon : Container β κ → World → Container β κ × World
  | .sequence f, w =>
    let r := ops.abandon f w
    (.sequence r.1,r.2)
  | .fork f, w =>
    let r := f.abandon ops w
    (.fork r.1,r.2)
  | .for_ f, w =>
    let r := f.abandon ops w
    (.for_ r.1,r.2)

def applyOutcome (id : FrameId) (outcome : ChildOutcome) : Container β κ → World →
    Option (Container β κ × World)
  | .sequence f, w => (ops.applyOutcome id outcome f w).map (fun r => (.sequence r.1,r.2))
  | .fork f, w => (ForkFrame.applyOutcomeIn ops id outcome f.branches w).map
      (fun r => (.fork { f with branches := r.1 },r.2))
  | .for_ f, w => match f.bodyFrame with
    | none => none
    | some body => (ops.applyOutcome id outcome body w).map
        (fun r => (.for_ { f with bodyFrame := some r.1 },r.2))

/-- The loop variables' names, with the fallback of the constructor of `ForFrame`. -/
def loopNames (spec : ForSpec) : LoopVariableNames :=
  match normalizeLoopVariables spec.each spec.at_ with
  | .ok names => names
  | .error _ => ⟨"item","index"⟩

def misnamesLoop : TaskBody (NamedTask β) → Bool
  | .for_ body => !(normalizeLoopVariables body.for_.each body.for_.at_).isOk
  | _ => false

/-- `materializeChild` and `Enter`; `none` for a step that is no container. -/
def materialize (name : String) (scope : Scope) (budget : ℕ) (input : StepDataValue) (w : World) :
    TaskBody (NamedTask β) → Option (Container β κ × World)
  | .do_ tasks => some (.sequence (SequenceFrame.enter
      ⟨w.nextFrame,tasks,none,scope,budget,.pending,0,.null,none,none,none,none,none⟩ input),
      { w with nextFrame := w.nextFrame+1 })
  | .fork body => some (.fork ⟨ForkFrame.branchesFor scope budget input body.branches 0 w.nextFrame,
      body.compete,.active⟩,{ w with nextFrame := w.nextFrame+body.branches.length })
  | .for_ body => some (.for_
      { name := name, body := body, scope := scope, names := loopNames body.for_,
        iterationBudget := budget, accumulator := input },w)
  | _ => none

end Container

namespace SequenceFrame
variable (setup : Setup) {β κ : Type} (ops : FrameOps β κ)

def afterContainer (step : NamedTask (TaskBody (NamedTask β)))
    (f : SequenceFrame (TaskBody (NamedTask β)) (Container β κ)) :
    FrameResult × Container β κ × World →
      Option FrameResult × SequenceFrame (TaskBody (NamedTask β)) (Container β κ) × World
  | (.failed failure,child,w) =>
    (some (.failed failure),{ f with child := some child }.failWith failure,w)
  | (.suspended,child,w) => (some .suspended,{ f with child := some child },w)
  | (.ended value,child,w) => (some (.ended value),{ f with child := some child },w)
  | (.completed value,_,w) => { f with child := none }.applyCompletedStep setup
      (w.record (.leave f.id f.cursor f.stepInput)) step value (stepThen step)

/-- `advanceContainer`: a frame that is there is advanced, whatever the step. -/
def advanceContainer (step : NamedTask (TaskBody (NamedTask β))) (input : StepDataValue)
    (f : SequenceFrame (TaskBody (NamedTask β)) (Container β κ)) (w : World) :
    Option FrameResult × SequenceFrame (TaskBody (NamedTask β)) (Container β κ) × World :=
  match f.child with
  | some child =>
    afterContainer setup step f (child.advance setup ops (w.record (.advance f.id f.cursor)))
  | none =>
    match Container.materialize step.name f.scope f.forIterationBudget input w step.task.body with
    | none => (none,f,w.record (.defect .materializeChild))
    | some (child,w) => afterContainer setup step f (child.advance setup ops
        (((w.record (.enter f.id f.cursor input step.task.if_.isSome
          (step.task.input.bind Input.from_).isSome)).record (.advance f.id f.cursor)).recordIf
            (Container.misnamesLoop step.task.body) (.defect .loopVariables)))

def runBody : RunBodyFn (TaskBody (NamedTask β)) (Container β κ) := fun step input f w =>
  match step.task.body with
  | .call call => f.advanceCall setup w step call input
  | .run body => f.advanceRun setup w step body input
  | .do_ _ | .fork _ | .for_ _ => advanceContainer setup ops step input f w
  | .set body => f.advanceSet setup w step body input
  | .switch body => f.advanceSwitch setup w step body input
  | .emit | .listen | .raise | .try_ | .wait =>
    f.failStep (w.record (.defect .taskKind)) .unimplemented step.name unsupportedTaskKind

end SequenceFrame

namespace FrameOps
variable (setup : Setup)

def zero : FrameOps Empty Empty where
  advance f w := f.advance setup w (fun step => step.task.body.elim)
  abandon f w := f.abandon w (fun child => child.elim)
  applyOutcome id outcome f w := f.applyOutcomeTo setup w (fun child => child.elim) id outcome

def succ {β κ : Type} (ops : FrameOps β κ) : FrameOps (TaskBody (NamedTask β)) (Container β κ) where
  advance f w := f.advance setup w (SequenceFrame.runBody setup ops)
  abandon f w := f.abandon w (Container.abandon ops)
  applyOutcome id outcome f w :=
    f.applyOutcomeTo setup w (Container.applyOutcome ops id outcome) id outcome

end FrameOps

def Contained : ℕ → Type
  | 0 => Empty
  | n+1 => Container (Body n) (Contained n)

abbrev Frame (n : ℕ) := SequenceFrame (Body n) (Contained n)

def frameOps (setup : Setup) : (n : ℕ) → FrameOps (Body n) (Contained n)
  | 0 => FrameOps.zero setup
  | n+1 => (frameOps setup n).succ setup

end Strij.OpenWorkflow
