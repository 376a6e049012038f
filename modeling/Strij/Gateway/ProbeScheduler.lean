import Strij.Gateway.ResultReceiverStorage
import Strij.Gateway.SampleCandidates

/-! The gateway half of probe scheduling. Every operation returns the new scheduler with what it did
to the outside, in order: frames written, receivers handed to the storage, errors delivered. -/
namespace Strij.Gateway
open Strij.Wire

structure Connection where
  key : ℕ
  owner : Option String
  deriving DecidableEq, Repr

/-- A node of the directory; one whose connection was torn down is still there without it. -/
structure Node where
  nodeId : String
  connection : Option Connection
  deriving DecidableEq, Repr

structure NodeDirectory where
  candidates : List Node
  node : String → Option Node

inductive Effect
  | write (conn : Connection) (frame : GatewayFrame)
  | nullWrite (nodeId : String) (frame : GatewayFrame)
  | put (id : String) (receiver : Receiver) (nodeId : String)
  | deliverError (receiver : Receiver) (message : String) (status : TaskStatus)

def Node.write (n : Node) (frame : GatewayFrame) : Effect :=
  match n.connection with
  | some conn => .write conn frame
  | none => .nullWrite n.nodeId frame

structure PendingProbe where
  task : Task
  receiver : Receiver
  probedNodeIds : List String
  deadline : ℤ

structure ProbeScheduler where
  candidateCount : ℕ
  probeDeadline : ℤ
  rng : String → ℕ → ℕ
  pending : AList (fun _ : String => PendingProbe) := ∅

namespace ProbeScheduler
variable (s : ProbeScheduler)

def erase (id : String) : ProbeScheduler := { s with pending := s.pending.erase id }

def assign (id : String) (round : PendingProbe) : ProbeScheduler :=
  { s with pending := s.pending.insert id round }

def schedule (directory : NodeDirectory) (now : ℤ) (task : Task) (receiver : Receiver) :
    ProbeScheduler × List Effect :=
  let effectiveK := min s.candidateCount directory.candidates.length
  if effectiveK = 0 then
    (s,[.deliverError receiver "no probe-eligible nodes available" .capacityRefused])
  else
    let sampled := sampleCandidates (s.rng task.id) directory.candidates effectiveK
    (s.assign task.id ⟨task,receiver,sampled.map Node.nodeId,now+s.probeDeadline⟩,
      sampled.map (fun n => n.write (.probe task.probe)))

def cancelNodes (directory : NodeDirectory) (id : String) (nodeIds : List String) : List Effect :=
  nodeIds.filterMap (fun n => (directory.node n).map (fun node => node.write (.cancel id)))

def handleTaskPullFrame (directory : NodeDirectory) (id : String) (conn : Connection) :
    FrameStatus × ProbeScheduler × List Effect :=
  match s.pending.lookup id with
  | none => (.ok,s,[.write conn (.cancel id)])
  | some round =>
    match conn.owner with
    | none => (.internal "pull on a connection without an owning Node",s,[])
    | some winner =>
      if winner ∉ round.probedNodeIds then (.ok,s,[.write conn (.cancel id)])
      else (.ok,s.erase id,.write conn (.grant round.task) ::
        cancelNodes directory id (round.probedNodeIds.filter (· ≠ winner)) ++
          [.put id round.receiver winner])

/-- The probed nodes that are left after a decline; a connection without a node removes none. -/
def dropDecliner (conn : Connection) (probed : List String) : List String :=
  match conn.owner with
  | some decliner => probed.filter (· ≠ decliner)
  | none => probed

def handleTaskDeclineFrame (id reason : String) (conn : Connection) :
    FrameStatus × ProbeScheduler × List Effect :=
  match s.pending.lookup id with
  | none => (.ok,s,[])
  | some round =>
    let probed := dropDecliner conn round.probedNodeIds
    if probed = [] then (.ok,s.erase id,[.deliverError round.receiver reason .capacityRefused])
    else (.ok,s.assign id { round with probedNodeIds := probed },[])

def handleFrame (directory : NodeDirectory) (frame : NodeFrame) (conn : Connection) :
    FrameStatus × ProbeScheduler × List Effect :=
  match frame with
  | .pull id => s.handleTaskPullFrame directory id conn
  | .decline id reason => s.handleTaskDeclineFrame id reason conn
  | .malformed kind => (.invalidArgument ("malformed " ++ kind ++ " frame dropped"),s,[])
  | .other typeId =>
    (.notFound ("probe scheduler does not own TLV type_id " ++ toString typeId),s,[])

def expire (directory : NodeDirectory) (id : String) (round : PendingProbe) : List Effect :=
  cancelNodes directory id round.probedNodeIds ++
    [.deliverError round.receiver "no node claimed the task within the probe deadline"
      .deadlineExceeded]

def sweep (directory : NodeDirectory) (now : ℤ) :
    List (Sigma (fun _ : String => PendingProbe)) → ProbeScheduler → ProbeScheduler × List Effect
  | [],s => (s,[])
  | ⟨id,round⟩ :: rest,s =>
    if now ≤ round.deadline then sweep directory now rest s
    else
      let (s,effects) := sweep directory now rest (s.erase id)
      (s,expire directory id round ++ effects)

def sweepExpired (directory : NodeDirectory) (now : ℤ) : ProbeScheduler × List Effect :=
  sweep directory now s.pending.entries s

end ProbeScheduler

/-- A call into the scheduler, with the directory's answers and the clock at that moment. -/
inductive GatewayEvent
  | schedule (directory : NodeDirectory) (now : ℤ) (task : Task) (receiver : Receiver)
  | frame (directory : NodeDirectory) (frame : NodeFrame) (conn : Connection)
  | sweep (directory : NodeDirectory) (now : ℤ)

namespace ProbeScheduler

def step (s : ProbeScheduler) : GatewayEvent → ProbeScheduler × List Effect
  | .schedule directory now task receiver => s.schedule directory now task receiver
  | .frame directory frame conn => (s.handleFrame directory frame conn).2
  | .sweep directory now => s.sweepExpired directory now

def run (s : ProbeScheduler) : List GatewayEvent → ProbeScheduler × List Effect
  | [] => (s,[])
  | e :: events =>
    let (s,effects) := s.step e
    let (s,more) := run s events
    (s,effects ++ more)

end ProbeScheduler
end Strij.Gateway
