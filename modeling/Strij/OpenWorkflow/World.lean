import Strij.OpenWorkflow.StepEvaluation
import Strij.OpenWorkflow.Validation

/-! What the frames of a run share: the workflow's context, the routing of child outcomes, and the environment.
-/
namespace Strij.OpenWorkflow
open Strij.NodeAgent (ResourceRequirements)
open Strij.Wire (TaskStatus)

/-- The address of a sequence frame; it is never reused. -/
abbrev FrameId := ℕ

/-- A `task::Task` as `ExecuteCall` submits it. -/
structure ChildTask where
  type : String
  parameters : List (String × String)
  requirements : ResourceRequirements
  body : String

structure ChildOutcome where
  body : String := ""
  reason : String := ""
  status : TaskStatus := .internal
  deriving DecidableEq, Repr

def ChildOutcome.isError (outcome : ChildOutcome) : Bool := outcome.status ≠ .ok

structure TaskResult where
  id : String
  body : String
  status : TaskStatus := .ok
  isFinal : Bool := false
  deriving DecidableEq, Repr

inductive State
  | idle
  | ready
  | advancing
  | succeeded
  | failed
  | cancelled
  deriving DecidableEq, Repr

/-- The branches that a validated document does not reach. -/
inductive Defect
  | flowDirective
  /-- The task's kind is not supported. -/
  | taskKind
  | materializeChild
  /-- `NormalizeLoopVariables` fails, which the constructor of `ForFrame` asserts it does not. -/
  | loopVariables
  | embeddedWorkflow
  deriving DecidableEq, Repr

inductive Event
  | setState (old new : State)
  | complete (result : TaskResult)
  | concluded (value : StepDataValue)
  | submit (id : String) (child : ChildTask)
  | startRun (id : Option String) (definition input : String)
  | cancelRun (id : String)
  | deliver (id : String) (outcome : ChildOutcome)
  | dangling (id : String)
  | budget
  | defect (defect : Defect)
  /-- The frame's loop comes to the step at `cursor`. Its nested frame is live or not, and the step
  declares an `if` or an `input.from` or neither. -/
  | takeUp (frame : FrameId) (cursor : ℕ) (live declares : Bool)
  | evaluateIf (frame : FrameId) (cursor : ℕ)
  | evaluateFrom (frame : FrameId) (cursor : ℕ)
  | skip (frame : FrameId) (cursor : ℕ)
  /-- A nested frame is created for the step, with this seed. -/
  | enter (frame : FrameId) (cursor : ℕ) (seed : StepDataValue) (declaresIf declaresFrom : Bool)
  /-- The nested frame is advanced for the step. -/
  | advance (frame : FrameId) (cursor : ℕ)
  /-- The nested frame completed; `output.as` and `export.as` run with this `$input`. -/
  | leave (frame : FrameId) (cursor : ℕ) (input : Option StepDataValue)

/-- What happens inside one `Submit` or one `Start` of the nested runner: the outcomes that arrive
before it returns, and the status of the start. -/
structure Reply where
  outcomes : List (String × ChildOutcome) := []
  started : Except String Unit := .ok ()

structure World where
  context : Jv := .object []
  owners : AList (fun _ : String => FrameId) := ∅
  pending : AList (fun _ : String => ChildOutcome) := ∅
  nextChild : ℕ := 0
  nextFrame : FrameId := 0
  script : List Reply := []
  log : List Event := []

structure Setup where
  engine : ExpressionEngine
  parse : Parser
  freshId : ℕ → String
  parentId : String
  forIterationBudget : ℕ := 100000
  runner : Bool := false

namespace World
variable (w : World)

def record (e : Event) : World := { w with log := e :: w.log }

def recordIf (b : Bool) (e : Event) : World := if b then w.record e else w

def register (id : String) (owner : FrameId) : World :=
  { w with owners := w.owners.insert id owner, nextChild := w.nextChild+1 }

def forgetChild (id : String) : World := { w with owners := w.owners.erase id }

/-- `OnChildOutcome` while the interpreter advances: queued if the child has an owner. -/
def deliver (x : String × ChildOutcome) : World :=
  let w := w.record (.deliver x.1 x.2)
  if x.1 ∈ w.owners then { w with pending := w.pending.insert x.1 x.2 } else w

def converse : Except String Unit × World :=
  match w.script with
  | [] => (.ok (),w)
  | r :: rest => (r.started,r.outcomes.foldl deliver { w with script := rest })

lemma converse_keeps {P : World → Prop} {w : World} (hscript : ∀ w script, P w → P { w with script := script })
    (hdeliver : ∀ w x, P w → P (deliver w x)) (h : P w) : P w.converse.2 := by
  rw [converse]
  split
  · exact h
  next r rest _ =>
  have hstart : P { w with script := rest } := hscript w rest h
  generalize ({ w with script := rest } : World) = w at hstart ⊢
  induction r.outcomes generalizing w with
  | nil => exact hstart
  | cons x outcomes ih => exact ih _ (hdeliver w x hstart)

/-- Takes an outcome out of the queue together with its route. -/
def drop (id : String) : World :=
  { w with pending := w.pending.erase id, owners := w.owners.erase id }

end World
end Strij.OpenWorkflow
