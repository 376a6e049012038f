import Strij.OpenWorkflow.Document

/-! The expression engine: which strings are expressions, which variables they see, and how a value
tree with expressions in it is validated and evaluated. The evaluator itself is a parameter. -/
namespace Strij.OpenWorkflow

/-- The configured evaluator: `compile` is `CreateEvaluator`, `run` is `Run` of what it creates. -/
structure Evaluator where
  compile : (program : String) → (names : List String) → Except String Unit
  run : (program : String) → (names : List String) → Jv → List Jv → Except String (List Jv)

structure ExpressionLocal where
  name : String
  value : Option Jv

structure ExpressionArguments where
  context : Option Jv := none
  input : Option Jv := none
  output : Option Jv := none
  locals : List ExpressionLocal := []

inductive TypedSlot
  | if_
  | inputFrom
  | taskOutput
  | taskExport
  | documentOutput
  | switchWhen
  | forIn
  | forWhile
  deriving DecidableEq, Repr

def typedSlotName : TypedSlot → String
  | .if_ => "if"
  | .inputFrom => "input.from"
  | .taskOutput => "output.as"
  | .taskExport => "export.as"
  | .documentOutput => "the document's output.as"
  | .switchWhen => "a switch case's when"
  | .forIn => "a for task's in"
  | .forWhile => "a for task's while"

def isExpression (text : String) : Bool :=
  3 ≤ text.length && text.toList.take 2 == ['$','\x7b'] && text.toList.getLast? == some '\x7d'

def hasWrapper : List Char → Bool
  | '$' :: '\x7b' :: _ => true
  | _ :: rest => hasWrapper rest
  | [] => false

def hasPartialWrapper (text : String) : Bool := hasWrapper text.toList && !isExpression text

def isSpace (c : Char) : Bool := c ∈ [' ','\t','\n','\r','\x0b','\x0c']

def trimChars (cs : List Char) : List Char :=
  ((cs.dropWhile isSpace).reverse.dropWhile isSpace).reverse

def trim (text : String) : String := String.ofList (trimChars text.toList)

def expressionProgram (text : String) : String :=
  String.ofList (trimChars ((text.toList.drop 2).dropLast))

mutual

def collectExpressions : Value → Except String (List String)
  | .string text =>
    if isExpression text then .ok [expressionProgram text]
    else if hasPartialWrapper text then
      .error ("the $\x7b \x7d wrapper must span the whole value, but '" ++ text ++
        "' has text outside it")
    else .ok []
  | .array items => collectItems items
  | .object members => collectMembers members
  | _ => .ok []
termination_by structural v => v

def collectItems : List Value → Except String (List String)
  | [] => .ok []
  | v :: rest => do return (← collectExpressions v) ++ (← collectItems rest)
termination_by structural items => items

def collectMembers : List (String × Value) → Except String (List String)
  | [] => .ok []
  | m :: rest => do return (← collectMember m) ++ (← collectMembers rest)
termination_by structural members => members

def collectMember : String × Value → Except String (List String)
  | (_,v) => collectExpressions v
termination_by structural m => m

end

mutual

def collectTyped (slot : String) : Value → Except String (List String)
  | .string text =>
    if isExpression text then .ok [expressionProgram text]
    else if hasPartialWrapper text then
      .error ("the $\x7b \x7d wrapper must span the whole value in '" ++ slot ++ "', but '" ++ text ++
        "' has text outside it")
    else .error ("'" ++ slot ++ "' must be a whole $\x7b \x7d expression, but '" ++ text ++
        "' is literal text")
  | .array items => collectTypedItems slot items
  | .object members => collectTypedMembers slot members
  | _ => .ok []
termination_by structural v => v

def collectTypedItems (slot : String) : List Value → Except String (List String)
  | [] => .ok []
  | v :: rest => do return (← collectTyped slot v) ++ (← collectTypedItems slot rest)
termination_by structural items => items

def collectTypedMembers (slot : String) : List (String × Value) → Except String (List String)
  | [] => .ok []
  | m :: rest => do return (← collectTypedMember slot m) ++ (← collectTypedMembers slot rest)
termination_by structural members => members

def collectTypedMember (slot : String) : String × Value → Except String (List String)
  | (_,v) => collectTyped slot v
termination_by structural m => m

end

/-- The locals that are bound: named ones, the first of each name. -/
def selectLocals (seen : List String) : List ExpressionLocal → List ExpressionLocal
  | [] => []
  | l :: rest =>
    if l.name = "" ∨ l.name ∈ seen then selectLocals seen rest
    else l :: selectLocals (l.name :: seen) rest

/-- The variable names of `makeVariableSet`, reserved ones first. -/
def variableNames (reserved : List String) (locals : List ExpressionLocal) : List String :=
  reserved ++ (selectLocals reserved locals).map ExpressionLocal.name

def localArguments : List ExpressionLocal → Except String (List Jv)
  | [] => .ok []
  | l :: rest => match l.value with
    | none => .error ("the lexical variable '" ++ l.name ++ "' has no value")
    | some v => do return v :: (← localArguments rest)

def typedSlotReservedNames (slot : TypedSlot) : List String :=
  if slot = .taskOutput ∨ slot = .taskExport then ["context","input","output"] else ["context"]

structure ExpressionEngine where
  lib : Libjq
  evaluator : Evaluator

namespace ExpressionEngine
variable (engine : ExpressionEngine)

def runProgram (program : String) (subject : Jv) (names : List String) (args : List Jv) :
    Except String Jv := do
  engine.evaluator.compile program names
  match ← engine.evaluator.run program names subject args with
  | [] => .error ("expression '" ++ program ++ "' produced no result")
  | [j] => .ok j
  | outputs => .error ("expression '" ++ program ++ "' produced " ++ toString outputs.length ++
      " results; exactly one is required")

def run (program : String) (subject : Jv) (arguments : ExpressionArguments) : Except String Jv := do
  let args ← localArguments (selectLocals ["context"] arguments.locals)
  engine.runProgram program subject (variableNames ["context"] arguments.locals)
    (arguments.context.getD (.object []) :: args)

def compileAll (names : List String) : List String → Except String Unit
  | [] => .ok ()
  | program :: rest => do
    engine.evaluator.compile program names
    compileAll names rest

def validate (value : Value) (arguments : ExpressionArguments) : Except String Unit := do
  engine.compileAll (variableNames ["context"] arguments.locals) (← collectExpressions value)

def validateTypedSlot (value : Value) (slot : TypedSlot) (arguments : ExpressionArguments) :
    Except String Unit := do
  engine.compileAll (variableNames (typedSlotReservedNames slot) arguments.locals)
    (← collectTyped (typedSlotName slot) value)

mutual

def evaluate (subject : Jv) (arguments : ExpressionArguments) : Value → Except String Value
  | .string text =>
    if isExpression text then do
      return (← engine.run (expressionProgram text) subject arguments).toValue
    else if hasPartialWrapper text then
      .error ("the $\x7b \x7d wrapper must span the whole value, but '" ++ text ++
        "' has text outside it")
    else .ok (.string text)
  | .array items => do return .array (← evaluateItems subject arguments items)
  | .object members => do return .object (← evaluateMembers subject arguments members)
  | v => .ok v
termination_by structural v => v

def evaluateItems (subject : Jv) (arguments : ExpressionArguments) :
    List Value → Except String (List Value)
  | [] => .ok []
  | v :: rest => do
    return (← evaluate subject arguments v) :: (← evaluateItems subject arguments rest)
termination_by structural items => items

def evaluateMembers (subject : Jv) (arguments : ExpressionArguments) :
    List (String × Value) → Except String (List (String × Value))
  | [] => .ok []
  | m :: rest => do
    return (← evaluateMember subject arguments m) :: (← evaluateMembers subject arguments rest)
termination_by structural members => members

def evaluateMember (subject : Jv) (arguments : ExpressionArguments) :
    String × Value → Except String (String × Value)
  | (key,v) => do return (key,← evaluate subject arguments v)
termination_by structural m => m

end

mutual

def evaluateTyped (slot : TypedSlot) (run : String → Except String Jv) : Value → Except String Value
  | .string text =>
    if isExpression text then do return (← run (expressionProgram text)).toValue
    else if hasPartialWrapper text then
      .error ("the $\x7b \x7d wrapper must span the whole value in '" ++ typedSlotName slot ++
        "', but '" ++ text ++ "' has text outside it")
    else .error ("'" ++ typedSlotName slot ++ "' must be a whole $\x7b \x7d expression")
  | .array items => do return .array (← evaluateTypedItems slot run items)
  | .object members => do return .object (← evaluateTypedMembers slot run members)
  | v => .ok v
termination_by structural v => v

def evaluateTypedItems (slot : TypedSlot) (run : String → Except String Jv) :
    List Value → Except String (List Value)
  | [] => .ok []
  | v :: rest => do return (← evaluateTyped slot run v) :: (← evaluateTypedItems slot run rest)
termination_by structural items => items

def evaluateTypedMembers (slot : TypedSlot) (run : String → Except String Jv) :
    List (String × Value) → Except String (List (String × Value))
  | [] => .ok []
  | m :: rest => do
    return (← evaluateTypedMember slot run m) :: (← evaluateTypedMembers slot run rest)
termination_by structural members => members

def evaluateTypedMember (slot : TypedSlot) (run : String → Except String Jv) :
    String × Value → Except String (String × Value)
  | (key,v) => do return (key,← evaluateTyped slot run v)
termination_by structural m => m

end

def reservedArguments (slot : TypedSlot) (arguments : ExpressionArguments) :
    Except String (List Jv) :=
  let context := arguments.context.getD (.object [])
  if slot = .taskOutput ∨ slot = .taskExport then
    match arguments.input, arguments.output with
    | none, _ => .error "the task input is not JSON"
    | _, none => .error "the task output is not JSON"
    | some input, some output => .ok [context,input,output]
  else .ok [context]

def evaluateTypedSlot (value : Value) (slot : TypedSlot) (subject : Jv)
    (arguments : ExpressionArguments) : Except String Jv := do
  let reserved ← reservedArguments slot arguments
  let args ← localArguments (selectLocals (typedSlotReservedNames slot) arguments.locals)
  let names := variableNames (typedSlotReservedNames slot) arguments.locals
  let evaluated ← evaluateTyped slot
    (fun program => engine.runProgram program subject names (reserved ++ args)) value
  return Jv.ofValue engine.lib evaluated

end ExpressionEngine

structure LoopVariableNames where
  each : String
  at_ : String
  deriving DecidableEq, Repr

def isIdentifier (text : String) : Bool :=
  let alpha := fun c : Char => c.isAlpha || c == '_'
  match text.toList with
  | [] => false
  | c :: rest => alpha c && rest.all (fun c => alpha c || c.isDigit)

def normalizeLoopName (declared : Option String) (fallback field : String) : Except String String :=
  let text := (declared.map trim).getD fallback
  let text := if text = "" then fallback else text
  let name := match text.toList with
    | '$' :: rest => String.ofList rest
    | _ => text
  if isIdentifier name then .ok name
  else .error ("for." ++ field ++ " '" ++ name ++ "' is not a valid variable name")

def normalizeLoopVariables (each at_ : Option String) : Except String LoopVariableNames := do
  let eachName ← normalizeLoopName each "item" "each"
  let atName ← normalizeLoopName at_ "index" "at"
  if eachName = atName then
    .error ("for.each and for.at must differ, but both name '" ++ eachName ++ "'")
  else match ["context","input","output"].find? (fun r => eachName = r ∨ atName = r) with
    | some reserved =>
      .error ("for loop variables may not shadow the reserved '" ++ reserved ++ "'")
    | none => .ok ⟨eachName,atName⟩

def renderScalar (lib : Libjq) (value : Jv) : Except String String :=
  match value.toValue with
  | .string text => .ok text
  | .bool _ | .int _ | .double _ => .ok (value.dump lib)
  | .null => .error "the expression result is null"
  | .array _ | .object _ => .error "the expression result is not a scalar"

end Strij.OpenWorkflow
