import Strij.OpenWorkflow.Frame

/-! The resumable workflow interpreter: it starts a document, drives the frame tree as far as it goes,
and resumes it with every child outcome. -/
namespace Strij.OpenWorkflow
open Strij.Wire (TaskStatus)

def State.isTerminal : State → Bool
  | .succeeded | .failed | .cancelled => true
  | .idle | .ready | .advancing => false

def State.allows : State → State → Bool
  | .idle, .ready | .advancing, .ready => true
  | .ready, .advancing => true
  | .advancing, .succeeded => true
  | .idle, .failed | .ready, .failed | .advancing, .failed => true
  | old, .cancelled => !old.isTerminal
  | _, _ => false

structure WorkflowInterpreter where
  world : World
  state : State := .idle
  documentOutput : Option Slot := none
  root : Option (Σ n, Frame n) := none

inductive Call
  | start (documentText invocationInput : String)
  | onChildOutcome (id : String) (outcome : ChildOutcome)
  | cancel

namespace WorkflowInterpreter
variable (setup : Setup) (i : WorkflowInterpreter)

def create (script : List Reply) : WorkflowInterpreter := { world := { script := script } }

def setState (new : State) : WorkflowInterpreter :=
  { i with world := i.world.record (.setState i.state new), state := new }

def complete (result : TaskResult) : WorkflowInterpreter :=
  { i with world := i.world.record (.complete result) }

def succeed (value : StepDataValue) : WorkflowInterpreter :=
  (i.setState .succeeded).complete ⟨setup.parentId,value.bytes,.ok,true⟩

def fail (status : TaskStatus) (step message : String) : WorkflowInterpreter :=
  (i.setState .failed).complete
    ⟨setup.parentId,if step = "" then message else "step '" ++ step ++ "': " ++ message,status,true⟩

/-- The document's `output.as`, for a run that completed or ended. -/
def documentResult (value : StepDataValue) : Except String StepDataValue :=
  match i.documentOutput with
  | none => .ok value
  | some as_ => match value.json with
    | none => .error "the document output subject is not JSON"
    | some subject => do
      let result ← setup.engine.evaluateTypedSlot (slotValue as_) .documentOutput subject
        { context := some i.world.context }
      return .fromBytes setup.engine.lib (result.dump setup.engine.lib)

def finish (value : StepDataValue) : WorkflowInterpreter :=
  let i := { i with world := i.world.record (.concluded value) }
  match i.documentResult setup value with
  | .ok value => i.succeed setup value
  | .error message => i.fail setup .internal "" message

def terminalize : FrameResult → WorkflowInterpreter
  | .suspended => i
  | .completed value => i.finish setup value
  | .ended value => i.finish setup value
  | .failed failure =>
    i.fail setup failure.status (if failure.composed then "" else failure.step) failure.message

def advanceRoot : WorkflowInterpreter :=
  match i.root with
  | none => i
  | some ⟨n,f⟩ =>
    let r := (frameOps setup n).advance f i.world
    { i with root := some ⟨n,r.2.1⟩, world := r.2.2 }.terminalize setup r.1

def applyOutcome (id : String) (frame : FrameId) (outcome : ChildOutcome) : WorkflowInterpreter :=
  match i.root with
  | none => i
  | some ⟨n,f⟩ => match (frameOps setup n).applyOutcome frame outcome f i.world with
    | some r => { i with root := some ⟨n,r.1⟩, world := r.2 }
    | none => { i with world := i.world.record (.dangling id) }

def firstPending (w : World) : Option String := w.pending.keys.min?

def drainOne (id : String) (outcome : ChildOutcome) : WorkflowInterpreter :=
  let i' := { i with world := { i.world with pending := i.world.pending.erase id } }
  match i.world.owners.lookup id with
  | none => i'
  | some frame =>
    ({ i' with world := i'.world.forgetChild id }.applyOutcome setup id frame outcome).advanceRoot setup

def drain : ℕ → WorkflowInterpreter → WorkflowInterpreter
  | 0, i => i
  | k+1, i =>
    if i.state.isTerminal then i
    else match firstPending i.world with
      | none => i
      | some id => match i.world.pending.lookup id with
        | none => i
        | some outcome => drain k (i.drainOne setup id outcome)

/-- A bound on the outcomes that can still be queued in the current drive. -/
def workLeft (w : World) : ℕ :=
  w.pending.keys.length+(w.script.map (fun r => r.outcomes.length)).sum

def drive : WorkflowInterpreter :=
  if i.state = .ready then
    let i := (i.setState .advancing).advanceRoot setup
    let i := drain setup (workLeft i.world) i
    if i.state.isTerminal then i else i.setState .ready
  else i

def seed {n : ℕ} (document : Document n) (invocationInput : String) : Except String StepDataValue :=
  let data := if invocationInput = "" then .null else .fromBytes setup.engine.lib invocationInput
  match document.input.bind Input.from_ with
  | none => .ok data
  | some from_ => transformInput setup.engine (.object []) [] from_ data

def rootFrame {n : ℕ} (document : Document n) (data : StepDataValue) (id : FrameId) : Frame n :=
  SequenceFrame.enter ⟨id,document.do_,none,[],setup.forIterationBudget,.pending,0,.null,none,none,
    none,none,none⟩ data

def startDocument {n : ℕ} (document : Document n) (invocationInput : String) : WorkflowInterpreter :=
  let i := { i with documentOutput := document.output.bind Output.as_ }
  match validateEvaluateMode document with
  | .error message => i.fail setup .malformedRequest "" message
  | .ok () => match validateDocument setup.engine setup.parse document with
    | .error failure => i.fail setup failure.status failure.step failure.message
    | .ok () => match seed setup document invocationInput with
      | .error message => i.fail setup .internal "" message
      | .ok data =>
        let i := { i with
          root := some ⟨n,rootFrame setup document data i.world.nextFrame⟩
          world := { i.world with context := .object [], nextFrame := i.world.nextFrame+1 } }
        (i.setState .ready).drive setup

def start (documentText invocationInput : String) : WorkflowInterpreter :=
  if i.state ≠ .idle then i
  else match setup.parse documentText with
    | .error message =>
      i.fail setup .malformedRequest "" ("workflow document did not parse: " ++ message)
    | .ok document => i.startDocument setup document.2 invocationInput

def onChildOutcome (id : String) (outcome : ChildOutcome) : WorkflowInterpreter :=
  let i := { i with world := i.world.record (.deliver id outcome) }
  if i.state.isTerminal then i
  else match i.world.owners.lookup id with
    | none => i
    | some frame =>
      if i.state = .advancing then
        { i with world := { i.world with pending := i.world.pending.insert id outcome } }
      else
        ({ i with world := i.world.forgetChild id }.applyOutcome setup id frame outcome).drive setup

def cancelRuns (w : World) : World :=
  if setup.runner then w.owners.keys.foldl (fun w id => w.record (.cancelRun id)) w else w

def cancel : WorkflowInterpreter :=
  if i.state.isTerminal then i
  else
    let i := i.setState .cancelled
    { i with world := { cancelRuns setup i.world with owners := ∅, pending := ∅ } }

def step : Call → WorkflowInterpreter
  | .start documentText invocationInput => i.start setup documentText invocationInput
  | .onChildOutcome id outcome => i.onChildOutcome setup id outcome
  | .cancel => i.cancel setup

def run (calls : List Call) : WorkflowInterpreter := calls.foldl (fun i call => i.step setup call) i

end WorkflowInterpreter
end Strij.OpenWorkflow
