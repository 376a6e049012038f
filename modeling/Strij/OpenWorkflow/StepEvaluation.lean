import Strij.OpenWorkflow.Expression

/-! What a step evaluates: its `if`, `input.from`, `output.as` and `export.as`, and the expressions of the
`set`, `switch` and `for` kinds. -/
namespace Strij.OpenWorkflow

structure LexicalScope where
  eachName : String
  item : Jv
  atName : String
  index : Jv

abbrev Scope := List LexicalScope

def lexicalArguments (scope : Scope) (context : Jv) : ExpressionArguments where
  context := some context
  locals := scope.flatMap (fun node => [⟨node.eachName,some node.item⟩,⟨node.atName,some node.index⟩])

section Steps
variable (engine : ExpressionEngine) (context : Jv) (scope : Scope) {β : Type} (step : NamedTask β)

def asBool (message : String) (result : Jv) : Except String Bool :=
  match result.toValue with
  | .bool b => .ok b
  | _ => .error message

def evaluateCondition (raw : StepDataValue) : Except String Bool :=
  match step.task.if_ with
  | none => .ok true
  | some if_ => match raw.json with
    | none => .error "the condition subject is not JSON"
    | some subject => do
      let result ← engine.evaluateTypedSlot (.string if_) .if_ subject (lexicalArguments scope context)
      asBool "the condition result is not a boolean" result

/-- The subject of a literal-capable slot: opaque data serves only where there is no expression. -/
def literalSubject (slot : Value) (raw : StepDataValue) : Except String Jv :=
  match raw.json with
  | some subject => .ok subject
  | none => match collectExpressions slot with
    | .ok [] => .ok .null
    | _ => .error "the data subject is not JSON"

def transformInput (from_ : Slot) (raw : StepDataValue) : Except String StepDataValue := do
  let subject ← literalSubject (slotValue from_) raw
  let result ← engine.evaluateTypedSlot (slotValue from_) .inputFrom subject
    (lexicalArguments scope context)
  return .fromBytes engine.lib (result.dump engine.lib)

def transformTaskInput (raw : StepDataValue) : Except String StepDataValue :=
  match step.task.input.bind Input.from_ with
  | none => .ok raw
  | some from_ => transformInput engine context scope from_ raw

def transformOutput (as_ : Slot) (input rawOutput : StepDataValue) : Except String StepDataValue :=
  match input.json, rawOutput.json with
  | none, _ => .error "the task input is not JSON"
  | _, none => .error "the output subject is not JSON"
  | some inputJson, some outputJson => do
    let result ← engine.evaluateTypedSlot (slotValue as_) .taskOutput outputJson
      { lexicalArguments scope context with input := some inputJson, output := some outputJson }
    return .fromBytes engine.lib (result.dump engine.lib)

def transformTaskOutput (input rawOutput : StepDataValue) : Except String StepDataValue :=
  match step.task.output.bind Output.as_ with
  | none => .ok rawOutput
  | some as_ => transformOutput engine context scope as_ input rawOutput

def exportTaskResult (input output : StepDataValue) : Except String Jv :=
  match step.task.export_.bind Export.as_ with
  | none => .ok context
  | some as_ => match input.json, output.json with
    | none, _ => .error "the task input is not JSON"
    | _, none => .error "the task output is not JSON"
    | some inputJson, some outputJson => do
      let result ← engine.evaluateTypedSlot (slotValue as_) .taskExport outputJson
        { lexicalArguments scope context with input := some inputJson, output := some outputJson }
      if result.toValue.isObject then .ok result
      else .error "the exported context must be an object"

def evaluateSet (body : SetBody) (input : StepDataValue) : Except String StepDataValue := do
  let subject ← literalSubject (slotValue body.set) input
  let result ← engine.evaluate subject (lexicalArguments scope context) (slotValue body.set)
  return .fromValue engine.lib result

def selectCase (name : String) (subject : Jv) : List NamedCase → Except String (Option NamedCase)
  | [] => .ok none
  | c :: rest => match c.when_ with
    | none => selectCase name subject rest
    | some when_ => do
      let named := "switch '" ++ name ++ "': case '" ++ c.name ++ "': "
      match engine.evaluateTypedSlot (.string when_) .switchWhen subject
          (lexicalArguments scope context) with
      | .error message => .error (named ++ message)
      | .ok result =>
        if ← asBool (named ++ "the when result is not a boolean") result then .ok (some c)
        else selectCase name subject rest

def selectSwitchDirective (name : String) (body : SwitchBody) (input : StepDataValue) :
    Except String (Option String) :=
  let fallback := (body.cases.find? (fun c => c.when_.isNone)).bind NamedCase.then_
  if body.cases.all (fun c => c.when_.isNone) then .ok fallback
  else match input.json with
    | none => .error ("switch '" ++ name ++ "': the condition subject is not JSON")
    | some subject => do
      match ← selectCase engine context scope name subject body.cases with
      | some c => .ok c.then_
      | none => .ok fallback

def forInMessage : String := "the for.in collection is not an array or null"

def evaluateForIn (in_ : Slot) (input : StepDataValue) : Except String StepDataValue :=
  match in_ with
  | .inl text => match input.json with
    | none => .error "the data subject is not JSON"
    | some subject => do
      let result ← engine.evaluateTypedSlot (.string text) .forIn subject
        (lexicalArguments scope context)
      if result.toValue.isArray || result.toValue.isNull then
        .ok (.fromBytes engine.lib (result.dump engine.lib))
      else .error forInMessage
  | .inr collection => do
    let subject ← literalSubject collection input
    let result ← engine.evaluate subject (lexicalArguments scope context) collection
    if result.isArray || result.isNull then .ok (.fromValue engine.lib result)
    else .error forInMessage

def evaluateForWhile (while_ : Option String) (accumulator : StepDataValue) : Except String Bool :=
  match while_ with
  | none => .ok true
  | some while_ => match accumulator.json with
    | none => .error "the data subject is not JSON"
    | some subject => do
      let result ← engine.evaluateTypedSlot (.string while_) .forWhile subject
        (lexicalArguments scope context)
      asBool "the while result is not a boolean" result

end Steps
end Strij.OpenWorkflow
