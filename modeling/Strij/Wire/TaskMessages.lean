import Strij.NodeAgent.AdmissionController

/-! The messages of the task plane: tasks, their statuses, and the frames of the probe scheduling
protocol in both directions. -/
namespace Strij.Wire
open Strij.NodeAgent (ResourceRequirements)

/-- The statuses; the enumeration is open, so a frame may also carry a value it does not name. -/
inductive TaskStatus
  | ok
  | malformedRequest
  | notFound
  | unimplemented
  | deadlineExceeded
  | capacityRefused
  | internal
  | unavailable
  | unrecognized (value : ℤ)
  deriving DecidableEq, Repr

structure DataRef where
  source : String
  key : String
  sha : String
  deriving DecidableEq, Repr

structure Task where
  id : String
  type : String
  requirements : ResourceRequirements
  deps : List DataRef

structure TaskProbe where
  id : String
  type : String
  requirements : ResourceRequirements
  deps : List DataRef

def Task.probe (t : Task) : TaskProbe := ⟨t.id,t.type,t.requirements,t.deps⟩

/-- A result; absence of `isFinal` means final, absence of `status` success. -/
structure TaskResult where
  id : String
  body : String
  isFinal : Option Bool := none
  status : Option TaskStatus := none
  deriving DecidableEq, Repr

namespace TaskResult

def final (r : TaskResult) : Bool := r.isFinal.getD true

def isOk (r : TaskResult) : Bool := r.status.getD .ok = .ok

end TaskResult

structure TaskRejected where
  id : String
  reason : String
  deriving DecidableEq, Repr

/-- A frame from the gateway, as a node's scheduler finds it: `malformed` is one of its own types
whose payload does not parse, `other` any frame type it does not own. -/
inductive GatewayFrame
  | submission (task : Task)
  | probe (probe : TaskProbe)
  | grant (task : Task)
  | cancel (id : String)
  | malformed (kind : String)
  | other (typeId : UInt8)

inductive NodeFrame
  | pull (id : String)
  | decline (id reason : String)
  | malformed (kind : String)
  | other (typeId : UInt8)
  deriving DecidableEq, Repr

inductive FrameStatus
  | ok
  | invalidArgument (message : String)
  | notFound (message : String)
  | internal (message : String)
  deriving DecidableEq, Repr

end Strij.Wire
