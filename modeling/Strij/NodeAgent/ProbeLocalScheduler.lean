import Strij.Lib.BoundedQueue
import Strij.Wire.TaskMessages

/-! The node half of probe scheduling, with the part of the run-task service that takes over a held
reservation. Operations return the new scheduler with what it did to the outside, in order. -/
namespace Strij.NodeAgent
open Strij.Lib Strij.Wire

abbrev Mailbox := ℕ

structure QueuedProbe where
  probe : TaskProbe
  pullMailbox : Mailbox

structure PullPending where
  probe : TaskProbe
  scope : AdmissionScope

inductive NodeEffect
  | enqueue (mailbox : Mailbox) (frame : NodeFrame)
  | handleTask (task : Task)
  | noHandler (task : Task)
  | strayGrant (id : String)
  | fetchAll (deps : List DataRef) (id : String)

inductive CommandType
  | capacityReleased
  | depCompleted
  | other
  deriving DecidableEq, Repr

/-- `DataDependencyFetcherRouter::AllCached` at one moment. -/
abbrev AllCached := List DataRef → Bool

structure ProbeLocalScheduler where
  admission : AdmissionController
  handlers : String → Bool
  maxConcurrentPreallocations : ℕ
  queue : BoundedQueue QueuedProbe
  pullPending : AList (fun _ : String => PullPending) := ∅
  running : List (String × AdmissionScope) := []
  others : List AdmissionScope := []

namespace ProbeLocalScheduler

/-- `pull_pending_.insert_or_assign`: the scope of an overwritten entry is destroyed. -/
def assignPullPending (id : String) (p : PullPending) (s : ProbeLocalScheduler) :
    ProbeLocalScheduler :=
  match s.pullPending.lookup id with
  | none => { s with pullPending := s.pullPending.insert id p }
  | some old => { s with
      pullPending := s.pullPending.insert id p
      admission := (old.scope.release s.admission).2 }

/-- After a successful `Admit` that left the controller `c`: hold the reservation and pull. -/
def preallocate (c : AdmissionController) (probe : TaskProbe) (mailbox : Mailbox)
    (s : ProbeLocalScheduler) : ProbeLocalScheduler × List NodeEffect :=
  (assignPullPending probe.id ⟨probe,⟨probe.type,probe.requirements,false⟩⟩
      { s with admission := c },
    [.enqueue mailbox (.pull probe.id)])

section Preallocate
variable {s : ProbeLocalScheduler} (c : AdmissionController) (probe : TaskProbe) (mailbox : Mailbox)

lemma preallocate_queue : (s.preallocate c probe mailbox).1.queue = s.queue := by
  simp only [preallocate,assignPullPending]
  split <;> rfl

lemma preallocate_pullPending : (s.preallocate c probe mailbox).1.pullPending =
    s.pullPending.insert probe.id ⟨probe,⟨probe.type,probe.requirements,false⟩⟩ := by
  simp only [preallocate,assignPullPending]
  split <;> rfl

lemma preallocate_effects : (s.preallocate c probe mailbox).2 = [.enqueue mailbox (.pull probe.id)] := rfl

end Preallocate

def sendDecline (mailbox : Mailbox) (id reason : String) : NodeEffect :=
  .enqueue mailbox (.decline id reason)

/-- The loop of `walk` over the items that are still in the queue, with the items deferred so far;
it returns the deferred items. -/
def walkLoop (cached : AllCached) : List QueuedProbe → List QueuedProbe → ProbeLocalScheduler →
    ProbeLocalScheduler × List QueuedProbe × List NodeEffect
  | [],deferred,s => ({ s with queue := { s.queue with items := [] } },deferred,[])
  | item :: rest,deferred,s =>
    if s.pullPending.keys.length ≥ s.maxConcurrentPreallocations then
      ({ s with queue := { s.queue with items := item :: rest } },deferred,[])
    else if ¬cached item.probe.deps then walkLoop cached rest (deferred ++ [item]) s
    else
      match s.admission.admitTask item.probe.type item.probe.requirements with
      | (.ok (),c) =>
        let (s,pull) := s.preallocate c item.probe item.pullMailbox
        let (s,deferred,effects) := walkLoop cached rest deferred s
        (s,deferred,pull ++ effects)
      | (.error (.failedPrecondition _),_) =>
        let (s,deferred,effects) := walkLoop cached rest deferred s
        (s,deferred,
          sendDecline item.pullMailbox item.probe.id "requirements unsatisfiable" :: effects)
      | (.error (.resourceExhausted _),_) => walkLoop cached rest (deferred ++ [item]) s

def walk (cached : AllCached) (s : ProbeLocalScheduler) : ProbeLocalScheduler × List NodeEffect :=
  let (s,deferred,effects) := walkLoop cached s.queue.items [] s
  ({ s with queue := s.queue.pushAll deferred },effects)

def startPrefetch (cached : AllCached) (probe : TaskProbe) : List NodeEffect :=
  if probe.deps.isEmpty || cached probe.deps then [] else [.fetchAll probe.deps probe.id]

def handleProbe (cached : AllCached) (probe : TaskProbe) (mailbox : Mailbox)
    (s : ProbeLocalScheduler) : ProbeLocalScheduler × List NodeEffect :=
  match s.admission.admitTask probe.type probe.requirements with
  | (.ok (),c) =>
    let (s,pull) := s.preallocate c probe mailbox
    (s,pull ++ startPrefetch cached probe)
  | (.error (.failedPrecondition _),_) =>
    (s,[sendDecline mailbox probe.id "requirements unsatisfiable"])
  | (.error (.resourceExhausted _),_) =>
    match s.queue.push ⟨probe,mailbox⟩ with
    | none => (s,[sendDecline mailbox probe.id "queue full"])
    | some queue => ({ s with queue := queue },startPrefetch cached probe)

def removeQueued (id : String) (s : ProbeLocalScheduler) : ProbeLocalScheduler :=
  let kept := s.queue.items.filter (fun item => item.probe.id ≠ id)
  { s with queue := BoundedQueue.pushAll { s.queue with items := [] } kept }

/-- `RunTask` with a reservation: it goes to the handler's result sender, or is released when there
is no handler. -/
def runTask (task : Task) (scope : AdmissionScope) (s : ProbeLocalScheduler) :
    ProbeLocalScheduler × List NodeEffect :=
  if s.handlers task.type then
    ({ s with running := s.running ++ [(task.id,scope)] },[.handleTask task])
  else ({ s with admission := (scope.release s.admission).2 },[.noHandler task])

def handleGrant (task : Task) (s : ProbeLocalScheduler) :
    ProbeLocalScheduler × List NodeEffect :=
  match s.pullPending.lookup task.id with
  | none => (s,[.strayGrant task.id])
  | some pending =>
    runTask task pending.scope { s with pullPending := s.pullPending.erase task.id }

def handleCancel (id : String) (s : ProbeLocalScheduler) : ProbeLocalScheduler :=
  match s.pullPending.lookup id with
  | none => s.removeQueued id
  | some pending => removeQueued id { s with
      pullPending := s.pullPending.erase id
      admission := (pending.scope.release s.admission).2 }

def handleFrame (cached : AllCached) (frame : GatewayFrame) (mailbox : Mailbox)
    (s : ProbeLocalScheduler) : FrameStatus × ProbeLocalScheduler × List NodeEffect :=
  match frame with
  | .submission _ => (.notFound "probe scheduler does not own TLV type_id 0",s,[])
  | .probe probe =>
    let (s,walked) := s.walk cached
    let (s,effects) := s.handleProbe cached probe mailbox
    (.ok,s,walked ++ effects)
  | .grant task => (.ok,s.handleGrant task)
  | .cancel id => (.ok,s.handleCancel id,[])
  | .malformed kind => (.invalidArgument ("malformed " ++ kind ++ " frame dropped"),s,[])
  | .other typeId =>
    (.notFound ("probe scheduler does not own TLV type_id " ++ toString typeId),s,[])

def processCommand (cached : AllCached) (command : CommandType) (s : ProbeLocalScheduler) :
    ProbeLocalScheduler × List NodeEffect :=
  match command with
  | .capacityReleased => s.walk cached
  | .depCompleted => s.walk cached
  | .other => (s,[])

def finishTask (i : ℕ) (s : ProbeLocalScheduler) : ProbeLocalScheduler :=
  match s.running[i]? with
  | none => s
  | some (_,scope) => { s with
      running := s.running.eraseIdx i
      admission := (scope.release s.admission).2 }

def admitOther (taskType : String) (requirements : ResourceRequirements) (s : ProbeLocalScheduler) :
    ProbeLocalScheduler :=
  match s.admission.admitTask taskType requirements with
  | (.ok (),c) => { s with admission := c, others := s.others ++ [⟨taskType,requirements,false⟩] }
  | (.error _,c) => { s with admission := c }

def releaseOther (i : ℕ) (s : ProbeLocalScheduler) : ProbeLocalScheduler :=
  match s.others[i]? with
  | none => s
  | some scope => { s with
      others := s.others.eraseIdx i
      admission := (scope.release s.admission).2 }

end ProbeLocalScheduler
end Strij.NodeAgent
