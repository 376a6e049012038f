import Strij.OpenWorkflow.Routing

/-! Workflows in direct style: what a document comes to when its steps are evaluated one inside the other, with
the answers of the children at hand and without frames or suspension. -/
namespace Strij.OpenWorkflow.Reference

/-- How a task list ends: past its last step or by `exit`, or with the whole workflow. -/
inductive Result
  | completed (value : StepDataValue)
  | ended (value : StepDataValue)

/-- What the body of a step comes to: a raw output and the directive to follow, or the workflow's end. -/
inductive Yield
  | output (value : StepDataValue) (then_ : String)
  | ended (value : StepDataValue)

def Result.yield (then_ : String) : Result → Yield
  | .completed value => .output value then_
  | .ended value => .ended value

abbrev TasksEval (β : Type) := Scope → List (NamedTask β) → StepDataValue → Option Result

abbrev BodyEval (β : Type) := Scope → NamedTask β → StepDataValue → Option Yield

section Sequences
variable (engine : ExpressionEngine) {β : Type} (scope : Scope) (steps : List (NamedTask β))

def follow (next : ℕ → StepDataValue → Option Result) (cursor : ℕ) (step : NamedTask β)
    (input raw : StepDataValue) (then_ : String) : Option Result :=
  if step.task.export_.isSome then none
  else match transformTaskOutput engine emptyContext scope step input raw with
    | .error _ => none
    | .ok output => match resolveFlowDirective (steps.map NamedTask.name) then_ with
      | .error _ => none
      | .ok .continue_ => next (cursor+1) output
      | .ok (.jump target) => next target output
      | .ok .exit => some (.completed output)
      | .ok .end_ => some (.ended output)

def proceed (next : ℕ → StepDataValue → Option Result) (cursor : ℕ) (step : NamedTask β)
    (input : StepDataValue) : Yield → Option Result
  | .output raw then_ => follow engine scope steps next cursor step input raw then_
  | .ended value => some (.ended value)

def fromStep (body : BodyEval β) : ℕ → ℕ → StepDataValue → Option Result
  | 0, _, _ => none
  | k+1, cursor, data => match steps[cursor]? with
    | none => some (.completed data)
    | some step => match evaluateCondition engine emptyContext scope step data with
      | .error _ => none
      | .ok false => fromStep body k (cursor+1) data
      | .ok true => match transformTaskInput engine emptyContext scope step data with
        | .error _ => none
        | .ok input => (body scope step input).bind
            (proceed engine scope steps (fromStep body k) cursor step input)

end Sequences

section Bodies
variable (engine : ExpressionEngine) (answer : ChildTask → String) {β : Type} (nested : TasksEval β)

def loopScope (names : LoopVariableNames) (item : Value) (index : ℕ) : LexicalScope where
  eachName := names.each
  item := Jv.ofValue engine.lib item
  atName := names.at_
  index := .number (some (toString index)) (engine.lib.literalValue (toString index))

/-- After an iteration: `while` is asked whether the loop goes on. -/
def goOn (next : StepDataValue → Option Result) (inner : Scope) (while_ : Option String) :
    Result → Option Result
  | .ended value => some (.ended value)
  | .completed value => match evaluateForWhile engine emptyContext inner while_ value with
    | .error _ => none
    | .ok false => some (.completed value)
    | .ok true => next value

def loop (body : ForBody (NamedTask β)) (scope : Scope) :
    List Value → ℕ → StepDataValue → Option Result
  | [], _, accumulator => some (.completed accumulator)
  | item :: items, index, accumulator =>
    let inner := loopScope engine (Container.loopNames body.for_) item index :: scope
    (nested inner body.do_ accumulator).bind
      (goOn engine (loop body scope items (index+1)) inner body.while_)

def items (body : ForBody (NamedTask β)) (scope : Scope) (input : StepDataValue) : Option (List Value) :=
  match evaluateForIn engine emptyContext scope body.for_.in_ input with
  | .error _ => none
  | .ok value => (ForFrame.collection value).toOption

def branches (scope : Scope) (input : StepDataValue) : List (NamedTask β) → Option (List StepDataValue)
  | [] => some []
  | task :: tasks => match nested scope [task] input with
    | some (.completed value) =>
      if value.json.isSome then (branches scope input tasks).map (value :: ·) else none
    | _ => none

def join (values : List StepDataValue) : StepDataValue :=
  .fromBytes engine.lib ("[" ++ ",".intercalate (values.map StepDataValue.bytes) ++ "]")

def stepBody : BodyEval (TaskBody (NamedTask β)) := fun scope step input =>
  match step.task.body with
  | .call call =>
    match projectCall engine call.with_ input.json (lexicalArguments scope emptyContext) with
    | .error _ => none
    | .ok p => some (.output (.fromBytes engine.lib
        (answer ⟨p.type,p.parameters,p.requirements,input.bytes⟩)) (stepThen step))
  | .do_ tasks => (nested scope tasks input).map (Result.yield (stepThen step))
  | .for_ body => match items engine body scope input with
    | none => none
    | some items => (loop engine nested body scope items 0 input).map (Result.yield (stepThen step))
  | .fork body =>
    if body.compete then none
    else (branches nested scope input body.branches).map fun values =>
      .output (join engine values) (stepThen step)
  | .set body => match evaluateSet engine emptyContext scope body input with
    | .error _ => none
    | .ok value => some (.output value (stepThen step))
  | .switch body => match selectSwitchDirective engine emptyContext scope step.name body input with
    | .error _ => none
    | .ok selected => some (.output input (selected.getD (stepThen step)))
  | _ => none

/-- The bodies of level `n`; no task list takes more than `limit` steps. -/
def bodies (limit : ℕ) : (n : ℕ) → BodyEval (Body n)
  | 0 => fun _ step _ => step.task.body.elim
  | n+1 => stepBody engine answer
      (fun scope steps data => fromStep engine scope steps (bodies limit n) limit 0 data)

end Bodies

def documentOutput (engine : ExpressionEngine) (as_ : Option Slot) (value : StepDataValue) :
    Option StepDataValue :=
  match as_ with
  | none => some value
  | some as_ => match value.json with
    | none => none
    | some subject =>
      match engine.evaluateTypedSlot (slotValue as_) .documentOutput subject { context := some emptyContext } with
      | .error _ => none
      | .ok result => some (.fromBytes engine.lib (result.dump engine.lib))

def evaluate (setup : Setup) (answer : ChildTask → String) (limit : ℕ) {n : ℕ} (document : Document n)
    (invocationInput : String) : Option StepDataValue :=
  match WorkflowInterpreter.seed setup document invocationInput with
  | .error _ => none
  | .ok data =>
    match fromStep setup.engine [] document.do_ (bodies setup.engine answer limit n) limit 0 data with
    | none => none
    | some (.completed value) => documentOutput setup.engine (document.output.bind Output.as_) value
    | some (.ended value) => documentOutput setup.engine (document.output.bind Output.as_) value

end Strij.OpenWorkflow.Reference
