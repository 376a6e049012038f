import Strij.NodeAgent.AdmissionController
import Strij.OpenWorkflow.Expression

/-! `call: strij`: the checks of its arguments and their projection onto a child task. -/
namespace Strij.OpenWorkflow
open Strij.NodeAgent (ResourceRequirements assignResource)

inductive CallTargetKind
  | strij
  | reserved
  | declaredFunction
  | unknown
  deriving DecidableEq, Repr

def classifyCallTarget {n : ℕ} (target : String) (document : Document n) : CallTargetKind :=
  if target = "strij" then .strij
  else if target ∈ ["http","openapi","asyncapi","grpc","mcp"] then .reserved
  else if target ∈ document.functions then .declaredFunction
  else .unknown

structure CallProjection where
  type : String
  parameters : List (String × String)
  requirements : ResourceRequirements

def findKey (members : List (String × Value)) (key : String) : Option Value := members.lookup key

/-- `CoerceRequirement`. The cast of a double that is exactly 2^64 is out of range; it wraps here. -/
def coerceRequirement (lib : Libjq) (name : String) : Value → Except String UInt64
  | .string text =>
    if isExpression text then .error ("requirement '" ++ name ++ "' does not admit expressions")
    else .error ("requirement '" ++ name ++ "' value '" ++ text ++
      "' is not an integer; unit suffixes are not accepted")
  | .int n =>
    if n.toInt < 0 then .error ("requirement '" ++ name ++ "' value " ++ toString n.toInt ++
      " must be non-negative")
    else .ok (UInt64.ofNat n.toInt.toNat)
  | .double d => match d.toRat? with
    | none => .error ("requirement '" ++ name ++ "' value " ++ lib.showDouble d ++
        " is not an integer")
    | some q =>
      if q.den ≠ 1 then .error ("requirement '" ++ name ++ "' value " ++ lib.showDouble d ++
        " is not an integer")
      else if q < 0 then .error ("requirement '" ++ name ++ "' value " ++ lib.showDouble d ++
        " must be non-negative")
      else if 2^64 < q then .error ("requirement '" ++ name ++ "' value " ++ lib.showDouble d ++
        " is out of range")
      else .ok (UInt64.ofNat q.num.toNat)
  | _ => .error ("requirement '" ++ name ++ "' value is not an integer")

def checkRequirements (lib : Libjq) : List (String × Value) → Except String Unit
  | [] => .ok ()
  | (key,member) :: rest => do
    let _ ← coerceRequirement lib key member
    checkRequirements lib rest

def isScalar (v : Value) : Bool := !v.isObject && !v.isArray

def validateCallArguments (lib : Libjq) (with_ : Value) : Except String Unit := do
  let .object members := with_ | .error "call arguments ('with') must be an object"
  if let some m := members.find? (fun m => m.1 ∉ ["type","parameters","requirements"]) then
    .error ("call arguments ('with') contain unknown key '" ++ m.1 ++
      "'; accepted keys are type, parameters, requirements")
  match findKey members "type" with
  | none => .error "call: strij requires 'type'"
  | some (.string text) =>
    if isExpression text then .error "'type' does not admit expressions"
  | some _ => .error "'type' must be a string"
  match findKey members "parameters" with
  | none => pure ()
  | some (.object parameters) =>
    if let some m := parameters.find? (fun m => !isScalar m.2) then
      .error ("parameter '" ++ m.1 ++ "' must be a scalar, not an object or array")
  | some _ => .error "'parameters' must be an object"
  match findKey members "requirements" with
  | none => pure ()
  | some (.object requirements) => checkRequirements lib requirements
  | some _ => .error "'requirements' must be an object"

section Projection
variable (engine : ExpressionEngine) (subject : Option Jv) (arguments : ExpressionArguments)

def projectParameter (key : String) (member : Value) : Except String String :=
  let literal := if isScalar member then renderScalar engine.lib (Jv.ofValue engine.lib member)
    else .error ("parameter '" ++ key ++ "' must be a scalar, not an object or array")
  match member with
  | .string text =>
    if isExpression text then
      match subject with
      | none => .error "the data subject is not JSON"
      | some j => do renderScalar engine.lib (← engine.run (expressionProgram text) j arguments)
    else literal
  | _ => literal

def projectParameters : List (String × Value) → List (String × String) →
    Except String (List (String × String))
  | [], out => .ok out
  | (key,member) :: rest, out => do
    let rendered ← projectParameter engine subject arguments key member
    projectParameters rest (Value.emplace key rendered out)

end Projection

def projectRequirements (lib : Libjq) : List (String × Value) → ResourceRequirements →
    Except String ResourceRequirements
  | [], out => .ok out
  | (key,member) :: rest, out => do
    let coerced ← coerceRequirement lib key member
    projectRequirements lib rest (assignResource out key coerced)

/-- `ProjectCall`. Arguments that `ValidateCallArguments` rejects are not projected at all: the code
would throw on the variant access. -/
def projectCall (engine : ExpressionEngine) (with_ : Value) (subject : Option Jv)
    (arguments : ExpressionArguments) : Except String CallProjection := do
  let .object members := with_ | .error "bad variant access"
  let some (.string type) := findKey members "type" | .error "bad variant access"
  let parameters ← match findKey members "parameters" with
    | none => pure []
    | some (.object parameters) => projectParameters engine subject arguments parameters []
    | some _ => .error "bad variant access"
  let requirements ← match findKey members "requirements" with
    | none => pure ⟨[],List.nodup_nil⟩
    | some (.object requirements) => projectRequirements engine.lib requirements ⟨[],List.nodup_nil⟩
    | some _ => .error "bad variant access"
  return ⟨type,parameters,requirements⟩

end Strij.OpenWorkflow
