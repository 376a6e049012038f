import Strij.Lib.FiniteMap
import Strij.Wire.TaskMessages

/-! The gateway's storage of result receivers, and the frames and disconnects that resolve them. -/
namespace Strij.Gateway
open Strij.Lib Strij.Wire

/-- A `ResultReceiverPtr`: an HTTP client, the connection of the node that submitted a child task, or a
`StoredReceiverForwarder`. -/
inductive Receiver
  | client (key : ℕ)
  | nodeConnection (taskId : String) (conn : ℕ)
  | forwarder (taskId : String)
  deriving DecidableEq, Repr

def Receiver.isForwarder : Receiver → Bool
  | .forwarder _ => true
  | _ => false

inductive ReceiverCall
  | deliver (value : String) (isFinal : Bool)
  | deliverError (reason : String) (status : TaskStatus)
  deriving DecidableEq, Repr

def ReceiverCall.terminal : ReceiverCall → Bool
  | .deliver _ isFinal => isFinal
  | .deliverError _ _ => true

/-- `ResultReceiverStorageImpl`, with the calls that clients and node connections got so far. -/
structure ResultReceiverStorage where
  receivers : AList (fun _ : String => Receiver) := ∅
  nodeOfTask : AList (fun _ : String => String) := ∅
  calls : List (Receiver × ReceiverCall) := []

namespace ResultReceiverStorage
variable (s : ResultReceiverStorage)

def put (id : String) (receiver : Receiver) (nodeId : String) : ResultReceiverStorage :=
  { s with
    receivers := emplace s.receivers id receiver
    nodeOfTask := emplace s.nodeOfTask id nodeId }

def get (id : String) : Option Receiver := s.receivers.lookup id

def erase (id : String) : ResultReceiverStorage :=
  { s with receivers := s.receivers.erase id, nodeOfTask := s.nodeOfTask.erase id }

def record (receiver : Receiver) (call : ReceiverCall) : ResultReceiverStorage :=
  { s with calls := s.calls ++ [(receiver,call)] }

def eraseIf (b : Bool) (id : String) : ResultReceiverStorage := if b then s.erase id else s

/-- A call on a receiver; a forwarder passes it to what is stored under its id. `none` when that takes
more than the given number of nested calls. -/
def callWithin : ℕ → ResultReceiverStorage → Receiver → ReceiverCall → Option ResultReceiverStorage
  | 0,_,.forwarder _,_ => none
  | fuel+1,s,.forwarder id,call =>
    match s.get id with
    | none => some (s.eraseIf call.terminal id)
    | some receiver => (callWithin fuel s receiver call).map (·.eraseIf call.terminal id)
  | _,s,receiver,call => some (s.record receiver call)

/-- A call on a receiver; `none` when it never returns. A chain of forwarders longer than the table
runs in a circle. -/
def call (receiver : Receiver) (call : ReceiverCall) : Option ResultReceiverStorage :=
  callWithin (s.receivers.entries.length+1) s receiver call

def handleTaskRejectedFrame (rejected : TaskRejected) : Option (FrameStatus × ResultReceiverStorage) :=
  match s.get rejected.id with
  | none => some (.internal ("No receiver for rejected task " ++ rejected.id),s)
  | some receiver =>
    (s.call receiver (.deliverError rejected.reason .capacityRefused)).map
      (fun s => (.ok,s.erase rejected.id))

def handleTaskResultFrame (result : TaskResult) : Option (FrameStatus × ResultReceiverStorage) :=
  match s.get result.id with
  | none => some (.internal ("No receiver for task " ++ result.id),s)
  | some receiver =>
    if !result.isOk then
      (s.call receiver (.deliverError result.body (result.status.getD .ok))).map
        (fun s => (.ok,s.erase result.id))
    else
      (s.call receiver (.deliver result.body result.final)).map
        (fun s => (.ok,s.eraseIf result.final result.id))

def tasksOf (nodeId : String) : List String :=
  (s.nodeOfTask.entries.filter (fun x => x.2 = nodeId)).map Sigma.fst

def disconnectTasks : List String → ResultReceiverStorage → Option ResultReceiverStorage
  | [],s => some s
  | id :: ids,s =>
    match s.get id with
    | none => disconnectTasks ids (s.erase id)
    | some receiver =>
      (s.call receiver (.deliverError "node disconnected" .capacityRefused)).bind
        (fun s => disconnectTasks ids (s.erase id))

def notifyNodeDisconnected (nodeId : String) : Option ResultReceiverStorage :=
  disconnectTasks (s.tasksOf nodeId) s

def notifyClientDisconnected (id : String) : ResultReceiverStorage := s.erase id

end ResultReceiverStorage
end Strij.Gateway
