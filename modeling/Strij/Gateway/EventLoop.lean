import Strij.Gateway.SchedulerRouter
import Strij.Lib.Runs

/-! The gateway as its event loop sees it: clients, frames, connects, the ends of streams, timers, discovery and
commands. The desk carries the history that the properties are about. -/
namespace Strij.Gateway
open Strij.Wire
open Strij.NodeAgent (NodeState)

/-- A frame given to `Write` on a connection: the node that had it, and whether it was open. -/
structure Write where
  conn : ℕ
  node : Option ℕ
  accepted : Bool
  frame : GatewayFrame

def placedBy : GatewayFrame → Option String
  | .submission task => some task.id
  | .grant task => some task.id
  | _ => none

structure Desk where
  storage : ResultReceiverStorage := {}
  schedulers : List RoutedScheduler
  writes : List Write := []
  nullWrites : List String := []
  submitted : List (String × Receiver) := []
  withdrawn : List String := []
  declined : List (ℕ × String) := []
  hung : Bool := false

namespace Desk
variable (net : Network) (d : Desk)

def settle : Option ResultReceiverStorage → Desk
  | some storage => { d with storage := storage }
  | none => { d with hung := true }

def close : List String → Desk → Desk
  | [],d => d
  | id :: ids,d => if d.hung then d else close ids (d.settle (d.storage.notifyNodeDisconnected id))

def write (conn : Connection) (frame : GatewayFrame) : Desk :=
  let owner := net.ownerOf conn
  { d with writes := d.writes ++ [⟨conn.key,owner.map (·.key),owner.any NodeRecord.isOpen,frame⟩] }

def effect : Effect → Desk
  | .write conn frame => d.write net conn frame
  | .nullWrite nodeId _ => { d with nullWrites := d.nullWrites ++ [nodeId] }
  | .put id receiver nodeId => { d with storage := d.storage.put id receiver nodeId }
  | .deliverError receiver message status => d.settle (d.storage.call receiver (.deliverError message status))

def perform : List Effect → Desk → Desk
  | [],d => d
  | e :: effects,d => if d.hung then d else perform effects (d.effect net e)

def withScheduler (i : ℕ) (op : GatewayScheduler → GatewayScheduler × List Effect) : Desk :=
  match d.schedulers[i]? with
  | none => d
  | some r => { d with schedulers := d.schedulers.set i { r with scheduler := (op r.scheduler).1 } }.perform
      net (op r.scheduler).2

def schedule (now : ℤ) (task : Task) (receiver : Receiver) : Desk :=
  match findSchedulerFor d.schedulers task with
  | none => d.settle (d.storage.call receiver
      (.deliverError ("no scheduler configured for task type '" ++ task.type ++ "'") .malformedRequest))
  | some i => d.withScheduler net i (·.schedule net.directory now task receiver)

/-- A child task from a node: the connection's receiver is stored under the submitting node, and the
scheduler gets a forwarder to it. -/
def handleChildTaskSubmission (now : ℤ) (task : Task) (n : NodeRecord) (conn : ℕ) : Desk :=
  let receiver := Receiver.nodeConnection task.id conn
  let d := { d with
    storage := d.storage.put task.id receiver n.nodeId
    submitted := d.submitted ++ [(task.id,receiver)] }
  match findSchedulerFor d.schedulers task with
  | none =>
    match d.storage.get task.id with
    | none => { d with storage := d.storage.erase task.id }
    | some stored => d.settle ((d.storage.call stored (.deliverError
        ("no scheduler configured for task type '" ++ task.type ++ "'") .malformedRequest)).map
          (·.erase task.id))
  | some i => d.withScheduler net i (·.schedule net.directory now task (.forwarder task.id))

def noteDecline (key : ℕ) : NodeFrame → Desk
  | .decline id _ => { d with declined := d.declined ++ [(key,id)] }
  | _ => d

def routeFrame (frame : NodeFrame) (n : NodeRecord) (conn : Connection) : Desk :=
  match findFrameOwner d.schedulers (frameType frame) with
  | none => d.noteDecline n.key frame
  | some i => (d.noteDecline n.key frame).withScheduler net i (·.handleFrame net.directory frame conn)

end Desk

/-- A frame that arrives on a node's connection; `ignored` is a heartbeat, or a frame of a built-in type
that does not parse. -/
inductive UpFrame
  | advertisement (advertisement : Advertisement)
  | nodeState (state : NodeState)
  | rejected (rejected : TaskRejected)
  | result (result : TaskResult)
  | submission (task : Task)
  | scheduling (frame : NodeFrame)
  | ignored

/-- What the event loop handles; nodes are named by the id they have at that moment. -/
inductive LoopEvent
  | httpTask (now : ℤ) (task : Task)
  | clientClosed (id : String)
  | frame (nodeId : String) (now : ℤ) (frame : UpFrame)
  | endOfStream (nodeId : String)
  | connect (nodeId : String) (ok : Bool)
  | sweep (scheduler : ℕ) (now : ℤ)
  | reconcile (snapshot : List NodeInfo)
  | tick

structure EventLoop where
  net : Network := {}
  desk : Desk

namespace EventLoop
variable (g : EventLoop)

def afterClose (r : Network × List String) : EventLoop := ⟨r.1,g.desk.close r.2⟩

def handleFrame (n : NodeRecord) (conn : ℕ) (now : ℤ) : UpFrame → EventLoop
  | .advertisement a => { g with net := g.net.advertise n a }
  | .nodeState state => { g with net := g.net.set { n with state := some state } }
  | .rejected rejected =>
    { g with desk := g.desk.settle ((g.desk.storage.handleTaskRejectedFrame rejected).map Prod.snd) }
  | .result result =>
    { g with desk := g.desk.settle ((g.desk.storage.handleTaskResultFrame result).map Prod.snd) }
  | .submission task => { g with desk := g.desk.handleChildTaskSubmission g.net now task n conn }
  | .scheduling frame => { g with desk := g.desk.routeFrame g.net frame n ⟨conn,some n.nodeId⟩ }
  | .ignored => g

def client : Receiver := .client g.desk.submitted.length

/-- One event; `none` if it cannot happen: the loop hangs, or the node has no open connection to read
from, no connect to wait for. -/
def step (e : LoopEvent) : Option EventLoop :=
  if g.desk.hung then none
  else match e with
  | .httpTask now task => some { g with desk :=
      { g.desk with submitted := g.desk.submitted ++ [(task.id,g.client)] }.schedule g.net now task g.client }
  | .clientClosed id =>
    if g.desk.submitted.any (fun x => x.1 = id && x.2 matches .client _) then
      some { g with desk := { g.desk with
        storage := g.desk.storage.notifyClientDisconnected id
        withdrawn := g.desk.withdrawn ++ [id] } }
    else none
  | .frame nodeId now frame =>
    match g.net.getNode nodeId with
    | none => none
    | some n =>
      match n.link with
      | some ⟨conn,true⟩ => some (g.handleFrame n conn now frame)
      | _ => none
  | .endOfStream nodeId =>
    match g.net.getNode nodeId with
    | none => none
    | some n => if n.isOpen then some (g.afterClose (g.net.endOfStream n)) else none
  | .connect nodeId ok =>
    match g.net.getNode nodeId with
    | none => none
    | some n => if 0 < n.connects then some (g.afterClose (g.net.handleConnect n ok)) else none
  | .sweep i now =>
    some { g with desk := g.desk.withScheduler g.net i (·.sweepExpired g.net.directory now) }
  | .reconcile snapshot => some (g.afterClose (g.net.reconcile snapshot))
  | .tick => some (g.afterClose g.net.tick)

end EventLoop
end Strij.Gateway
