import Strij.OpenWorkflow.CallStrij
import Strij.Wire.TaskMessages

/-! The validation pass over a document and the documents embedded in it. -/
namespace Strij.OpenWorkflow
open Strij.Wire (TaskStatus)

abbrev Parser := String → Except String AnyDocument

inductive StatusCode
  | invalidArgument
  | unimplemented
  deriving DecidableEq, Repr

/-- The data-independent facts of an embedded `run.workflow` step. -/
structure EmbeddedWorkflow where
  definition : String
  name : String

def extractEmbeddedWorkflow (body : RunBody) : Except (StatusCode × String) EmbeddedWorkflow :=
  match body.process with
  | .workflow process =>
    if process.namespace_ ≠ "embedded" then
      .error (.unimplemented,"run.workflow '" ++ process.name ++ "' namespace '" ++
        process.namespace_ ++ "' is recognized but not supported; only 'embedded' is")
    else if body.return_.isSome then
      .error (.unimplemented,"run.workflow '" ++ process.name ++
        "' return is recognized but not supported")
    else match process.input with
      | some (.string definition) => .ok ⟨definition,process.name⟩
      | _ => .error (.invalidArgument,"run.workflow '" ++ process.name ++
          "' input must be a string containing the embedded workflow document")
  | _ => .error (.unimplemented,
      "only the workflow run process is supported in the current workflow slice")

def validateEvaluateMode {n : ℕ} (document : Document n) : Except String Unit :=
  match document.evaluateMode with
  | none => .ok ()
  | some mode => if mode = "strict" then .ok ()
      else .error ("evaluate mode '" ++ mode ++ "' is not supported; only 'strict' is")

def parseEmbeddedDefinition (parse : Parser) (definition : String) : Except String AnyDocument :=
  match parse definition with
  | .error message => .error ("embedded workflow document did not parse: " ++ message)
  | .ok document => match validateEvaluateMode document.2 with
    | .error message => .error ("embedded workflow: " ++ message)
    | .ok () => .ok document

structure Failure where
  status : TaskStatus
  step : String
  message : String
  deriving DecidableEq, Repr

def malformed {α : Type} (step : String) : Except String α → Except Failure α
  | .ok a => .ok a
  | .error message => .error ⟨.malformedRequest,step,message⟩

def reject {α : Type} (status : TaskStatus) (step message : String) : Except Failure α :=
  .error ⟨status,step,message⟩

section Slots
variable (engine : ExpressionEngine) (locals : List String)

def validationArguments : ExpressionArguments := { locals := locals.map (fun name => ⟨name,none⟩) }

def validateSlot (step : String) (slot : Slot) (kind : TypedSlot) : Except Failure Unit :=
  malformed step (engine.validateTypedSlot (slotValue slot) kind (validationArguments locals))

def validateOptional (step : String) (slot : Option Slot) (kind : TypedSlot) : Except Failure Unit :=
  match slot with
  | none => .ok ()
  | some slot => validateSlot engine locals step slot kind

def validateTaskSlots {β : Type} (named : NamedTask β) : Except Failure Unit := do
  validateOptional engine locals named.name (named.task.if_.map .inl) .if_
  validateOptional engine locals named.name (named.task.input.bind Input.from_) .inputFrom
  validateOptional engine locals named.name (named.task.output.bind Output.as_) .taskOutput
  validateOptional engine locals named.name (named.task.export_.bind Export.as_) .taskExport

def validateWhens (name : String) : List NamedCase → Except Failure Unit
  | [] => .ok ()
  | c :: rest => do
    if let some when_ := c.when_ then
      if let .error message := engine.validateTypedSlot (.string when_) .switchWhen
          (validationArguments locals) then
        reject .malformedRequest name ("switch case '" ++ c.name ++ "': " ++ message)
    validateWhens name rest

end Slots

def malformedFlowDirective (scope : List String) (then_ step : String) : Except Failure Unit := do
  let _ ← malformed step (resolveFlowDirective scope then_)

def validateThens (name : String) : List NamedCase → Except Failure Unit
  | [] => .ok ()
  | c :: rest =>
    if c.then_.getD "" = "" then
      reject .malformedRequest name ("switch case '" ++ c.name ++ "' must declare a then directive")
    else validateThens name rest

def validateTargets (scope : List String) (name : String) : List NamedCase → Except Failure Unit
  | [] => .ok ()
  | c :: rest => do
    malformedFlowDirective scope (c.then_.getD "") name
    validateTargets scope name rest

def validateSwitchBody (engine : ExpressionEngine) (locals scope : List String) (name : String)
    (body : SwitchBody) : Except Failure Unit := do
  validateWhens engine locals name body.cases
  validateThens name body.cases
  if 1 < body.cases.countP (fun c => c.when_.isNone) then
    reject .malformedRequest name "a switch may declare at most one case without when"
  validateTargets scope name body.cases

def kDefaultEmbeddedNestingLimit : ℕ := 32

/-- `validateRunBody`; `validateChild` validates the embedded document one level deeper and is
absent at the nesting limit. -/
def validateRunBody (parse : Parser) (validateChild : Option (AnyDocument → Except Failure Unit))
    (name : String) (body : RunBody) : Except Failure Unit :=
  match extractEmbeddedWorkflow body with
  | .error (.unimplemented,message) => reject .unimplemented name message
  | .error (.invalidArgument,message) => reject .malformedRequest name message
  | .ok embedded => match validateChild with
    | none => reject .unimplemented name ("embedded workflow '" ++ embedded.name ++
        "' exceeds the nesting limit of " ++ toString kDefaultEmbeddedNestingLimit)
    | some validateChild => match parseEmbeddedDefinition parse embedded.definition with
      | .error message => reject .malformedRequest name
          ("embedded workflow '" ++ embedded.name ++ "': " ++ message)
      | .ok child => match validateChild child with
        | .ok () => .ok ()
        | .error failure => reject failure.status name ("embedded workflow '" ++ embedded.name ++
            "': " ++ (if failure.step = "" then "" else "step '" ++ failure.step ++ "': ") ++
            failure.message)

def validateForBody {τ : Type} (engine : ExpressionEngine)
    (validateNested : List String → List τ → Except Failure Unit) (locals : List String)
    (name : String) (body : ForBody τ) : Except Failure Unit := do
  let names ← malformed name (normalizeLoopVariables body.for_.each body.for_.at_)
  let collection := slotValue body.for_.in_
  if collection.isString then
    validateSlot engine locals name (.inr collection) .forIn
  else
    malformed name (engine.validate collection (validationArguments locals))
    if !collection.isArray then
      reject .malformedRequest name "a non-string for.in value must be an inline array"
  let bodyLocals := locals ++ [names.each,names.at_]
  validateOptional engine bodyLocals name (body.while_.map .inl) .forWhile
  validateNested bodyLocals body.do_

def validateSetBody (engine : ExpressionEngine) (locals : List String) (name : String)
    (body : SetBody) : Except Failure Unit := do
  malformed name (engine.validate (slotValue body.set) (validationArguments locals))
  if (slotValue body.set).isArray then
    reject .malformedRequest name "a set value must be an object or a single scalar"

def validateCallTarget {m : ℕ} (document : Document m) (name target : String) :
    Except Failure Unit :=
  match classifyCallTarget target document with
  | .strij => .ok ()
  | .reserved => reject .unimplemented name
      ("call target '" ++ target ++ "' is recognized but not yet supported")
  | .declaredFunction => reject .unimplemented name
      ("call target '" ++ target ++ "' names a declared function, which is not supported")
  | .unknown => reject .malformedRequest name ("call target '" ++ target ++ "' is not recognized")

def validateCallBody {m : ℕ} (engine : ExpressionEngine) (document : Document m)
    (locals : List String) (name : String) (call : CallBody) : Except Failure Unit := do
  validateCallTarget document name call.call
  malformed name (engine.validate call.with_ (validationArguments locals))
  malformed name (validateCallArguments engine.lib call.with_)

/-- What `validateTask` and `validateSequence` carry unchanged. -/
structure ValidationSetup where
  engine : ExpressionEngine
  validateRun : String → RunBody → Except Failure Unit
  level : ℕ
  document : Document level

def unsupportedTaskKind : String := "this task kind is not supported in the current workflow slice"

def validateTaskBody {β : Type} (setup : ValidationSetup)
    (validateNested : Bool → List String → List (NamedTask β) → Except Failure Unit)
    (scope : List String) (insideForkBranch : Bool) (locals : List String) (name : String) :
    TaskBody (NamedTask β) → Except Failure Unit
  | .do_ tasks => validateNested insideForkBranch locals tasks
  | .fork body =>
    if body.compete && body.branches.isEmpty then
      reject .malformedRequest name "a competing fork must declare at least one branch"
    -- each branch is a one-task sequence
    else body.branches.forM (fun branch => validateNested true locals [branch])
  | .for_ body => validateForBody setup.engine (validateNested insideForkBranch) locals name body
  | .set body => validateSetBody setup.engine locals name body
  | .switch body => validateSwitchBody setup.engine locals scope name body
  | .run body => setup.validateRun name body
  | .call call => validateCallBody setup.engine setup.document locals name call
  | .emit | .listen | .raise | .try_ | .wait => reject .unimplemented name unsupportedTaskKind

/-- `validateTask`; `validateNested` is `validateSequence` one level down. -/
def validateTask {β : Type} (setup : ValidationSetup)
    (validateNested : Bool → List String → List (NamedTask β) → Except Failure Unit)
    (scope : List String) (insideForkBranch : Bool) (locals : List String)
    (named : NamedTask (TaskBody (NamedTask β))) : Except Failure Unit := do
  if insideForkBranch && named.task.export_.isSome then
    reject .unimplemented named.name "export inside a fork branch is not supported"
  validateTaskSlots setup.engine locals named
  if let some then_ := named.task.then_ then
    malformedFlowDirective scope then_ named.name
  validateTaskBody setup validateNested scope insideForkBranch locals named.name named.task.body

def validateNames {β : Type} (seen : List String) : List (NamedTask β) → Except Failure Unit
  | [] => .ok ()
  | named :: rest =>
    if named.name ∈ seen then
      reject .malformedRequest named.name
        ("duplicate task name '" ++ named.name ++ "' in one sequence")
    else validateNames (named.name :: seen) rest

def validateSequence (setup : ValidationSetup) :
    (n : ℕ) → Bool → List String → Tasks n → Except Failure Unit
  | 0, _, _, _ => .ok ()
  | n+1, insideForkBranch, locals, tasks => do
    validateNames [] tasks
    tasks.forM (validateTask setup (validateSequence setup n) (tasks.map NamedTask.name)
      insideForkBranch locals)

def validateDocumentAt (engine : ExpressionEngine) (parse : Parser) :
    ℕ → AnyDocument → Except Failure Unit
  | k, ⟨n,document⟩ => do
    validateOptional engine [] "" (document.input.bind Input.from_) .inputFrom
    validateOptional engine [] "" (document.output.bind Output.as_) .documentOutput
    let validateChild := match k with
      | 0 => none
      | k+1 => some (validateDocumentAt engine parse k)
    validateSequence ⟨engine,validateRunBody parse validateChild,n,document⟩ n false [] document.do_

def validateDocument (engine : ExpressionEngine) (parse : Parser) {n : ℕ} (document : Document n) :
    Except Failure Unit :=
  validateDocumentAt engine parse kDefaultEmbeddedNestingLimit ⟨n,document⟩

def Refuses {α : Type} (x : Except Failure α) : Prop :=
  ∀ failure, x = .error failure → failure.status ≠ .ok

namespace Refuses
variable {α γ : Type} {x : Except Failure α}

lemma ok (a : α) : Refuses (.ok a) := fun _ h => nomatch h

lemma reject {status : TaskStatus} (h : status ≠ .ok) (step message : String) :
    Refuses (reject (α := α) status step message) := by
  rintro _ ⟨⟩
  exact h

lemma malformed (step : String) (x : Except String α) : Refuses (malformed step x) := by
  cases x with
  | ok a => exact ok a
  | error message => exact reject (by decide) step message

lemma bind {f : α → Except Failure γ} (hx : Refuses x) (hf : ∀ a, Refuses (f a)) : Refuses (x >>= f) := by
  cases x with
  | ok a => exact hf a
  | error failure =>
    rintro _ ⟨⟩
    exact hx failure rfl

lemma forM {l : List α} {f : α → Except Failure PUnit} (hf : ∀ a, Refuses (f a)) : Refuses (l.forM f) := by
  induction l with
  | nil => exact ok _
  | cons a l ih => exact bind (hf a) (fun _ => ih)

lemma ite {c : Prop} [Decidable c] {y : Except Failure α} (hx : Refuses x) (hy : Refuses y) :
    Refuses (if c then x else y) := by
  split <;> assumption

end Refuses

section Refusals
variable (engine : ExpressionEngine) (parse : Parser) (locals scope : List String) (name : String)
  {setup : ValidationSetup}

lemma validateOptional_refuses (slot : Option Slot) (kind : TypedSlot) :
    Refuses (validateOptional engine locals name slot kind) := by
  cases slot with
  | none => exact .ok _
  | some slot => exact .malformed _ _

lemma validateTaskSlots_refuses {β : Type} (named : NamedTask β) :
    Refuses (validateTaskSlots engine locals named) :=
  .bind (validateOptional_refuses _ _ _ _ _) fun _ =>
    .bind (validateOptional_refuses _ _ _ _ _) fun _ =>
      .bind (validateOptional_refuses _ _ _ _ _) fun _ => validateOptional_refuses _ _ _ _ _

lemma malformedFlowDirective_refuses (then_ : String) : Refuses (malformedFlowDirective scope then_ name) :=
  .bind (.malformed _ _) fun _ => .ok _

lemma validateSwitchBody_refuses (body : SwitchBody) :
    Refuses (validateSwitchBody engine locals scope name body) := by
  have hwhens : Refuses (validateWhens engine locals name body.cases) := by
    induction body.cases with
    | nil => exact .ok _
    | cons c rest ih =>
      rw [validateWhens]
      split
      · split
        · exact .bind (.reject (by decide) _ _) fun _ => ih
        · exact ih
      · exact ih
  have hthens : Refuses (validateThens name body.cases) := by
    induction body.cases with
    | nil => exact .ok _
    | cons c rest ih => exact .ite (.reject (by decide) _ _) ih
  have htargets : Refuses (validateTargets scope name body.cases) := by
    induction body.cases with
    | nil => exact .ok _
    | cons c rest ih => exact .bind (malformedFlowDirective_refuses _ _ _) fun _ => ih
  refine .bind hwhens fun _ => .bind hthens fun _ => ?_
  exact .ite (.bind (.reject (by decide) _ _) fun _ => htargets) htargets

lemma validateRunBody_refuses {validateChild : Option (AnyDocument → Except Failure Unit)}
    (hchild : ∀ validate ∈ validateChild, ∀ document, Refuses (validate document)) (body : RunBody) :
    Refuses (validateRunBody parse validateChild name body) := by
  rw [validateRunBody]
  split
  · exact .reject (by decide) _ _
  · exact .reject (by decide) _ _
  split
  · exact .reject (by decide) _ _
  split
  · exact .reject (by decide) _ _
  split
  · exact .ok _
  · next heq => exact .reject (hchild _ rfl _ _ heq) _ _

lemma validateForBody_refuses {τ : Type} {validateNested : List String → List τ → Except Failure Unit}
    (hnested : ∀ locals tasks, Refuses (validateNested locals tasks)) (body : ForBody τ) :
    Refuses (validateForBody engine validateNested locals name body) := by
  refine .bind (.malformed _ _) fun names => ?_
  have hrest := Refuses.bind (validateOptional_refuses engine (locals ++ [names.each,names.at_]) name
    (body.while_.map .inl) .forWhile) fun _ => hnested (locals ++ [names.each,names.at_]) body.do_
  dsimp only
  split
  · exact .bind (.malformed _ _) fun _ => hrest
  · refine .bind (.malformed _ _) fun _ => ?_
    split
    · exact .bind (.reject (by decide) _ _) fun _ => hrest
    · exact hrest

lemma validateSetBody_refuses (body : SetBody) : Refuses (validateSetBody engine locals name body) :=
  .bind (.malformed _ _) fun _ => .ite (.reject (by decide) _ _) (.ok _)

lemma validateCallBody_refuses {m : ℕ} (document : Document m) (call : CallBody) :
    Refuses (validateCallBody engine document locals name call) := by
  refine .bind ?_ fun _ => .bind (.malformed _ _) fun _ => .malformed _ _
  rw [validateCallTarget]
  split
  · exact .ok _
  all_goals exact .reject (by decide) _ _

lemma validateTask_refuses {β : Type}
    {validateNested : Bool → List String → List (NamedTask β) → Except Failure Unit}
    (hrun : ∀ name body, Refuses (setup.validateRun name body))
    (hnested : ∀ inside locals tasks, Refuses (validateNested inside locals tasks)) (inside : Bool)
    (named : NamedTask (TaskBody (NamedTask β))) :
    Refuses (validateTask setup validateNested scope inside locals named) := by
  have hbody : Refuses (validateTaskBody setup validateNested scope inside locals named.name
      named.task.body) := by
    cases named.task.body with
    | do_ tasks => exact hnested _ _ _
    | fork body => exact .ite (.reject (by decide) _ _) (.forM fun _ => hnested _ _ _)
    | for_ body => exact validateForBody_refuses _ _ _ (hnested _) _
    | set body => exact validateSetBody_refuses _ _ _ _
    | switch body => exact validateSwitchBody_refuses _ _ _ _ _
    | run body => exact hrun _ _
    | call call => exact validateCallBody_refuses _ _ _ _ _
    | _ => exact .reject (by decide) _ _
  have hthen : Refuses (do
      if let some then_ := named.task.then_ then
        malformedFlowDirective scope then_ named.name
      validateTaskBody setup validateNested scope inside locals named.name named.task.body) := by
    cases named.task.then_ with
    | none => exact hbody
    | some then_ => exact .bind (malformedFlowDirective_refuses _ _ _) fun _ => hbody
  have hslots := Refuses.bind (validateTaskSlots_refuses setup.engine locals named) fun _ => hthen
  exact .ite (.bind (.reject (by decide) _ _) fun _ => hslots) hslots

lemma validateNames_refuses {β : Type} (tasks : List (NamedTask β)) (seen : List String) :
    Refuses (validateNames seen tasks) := by
  induction tasks generalizing seen with
  | nil => exact .ok _
  | cons named rest ih => exact .ite (.reject (by decide) _ _) (ih _)

lemma validateSequence_refuses
    (hrun : ∀ name body, Refuses (setup.validateRun name body)) (n : ℕ) (inside : Bool)
    (locals : List String) (tasks : Tasks n) : Refuses (validateSequence setup n inside locals tasks) := by
  induction n generalizing inside locals with
  | zero => exact .ok _
  | succ n ih =>
    exact .bind (validateNames_refuses _ _) fun _ =>
      .forM fun named => validateTask_refuses _ _ hrun ih inside named

lemma validateDocumentAt_refuses (k : ℕ) (document : AnyDocument) :
    Refuses (validateDocumentAt engine parse k document) := by
  induction k generalizing document with
  | zero =>
    have hrun : ∀ name body, Refuses (validateRunBody parse none name body) := fun _ _ =>
      validateRunBody_refuses _ _ (by simp) _
    rw [validateDocumentAt]
    exact .bind (validateOptional_refuses _ _ _ _ _) fun _ =>
      .bind (validateOptional_refuses _ _ _ _ _) fun _ => validateSequence_refuses hrun _ _ _ _
  | succ k ih =>
    have hrun : ∀ name body,
        Refuses (validateRunBody parse (some (validateDocumentAt engine parse k)) name body) :=
      fun _ _ => validateRunBody_refuses _ _ (by simpa using ih) _
    rw [validateDocumentAt]
    exact .bind (validateOptional_refuses _ _ _ _ _) fun _ =>
      .bind (validateOptional_refuses _ _ _ _ _) fun _ => validateSequence_refuses hrun _ _ _ _

theorem validateDocument_refuses {n : ℕ} (document : Document n) :
    Refuses (validateDocument engine parse document) := validateDocumentAt_refuses _ _ _ _

end Refusals
end Strij.OpenWorkflow
