import Mathlib.Data.List.Sort
import Strij.Gateway.ProbeScheduler

/-! The gateway's nodes and their connections. Operations that close connections return the node ids for which
the close callbacks run, in order. -/
namespace Strij.Gateway
open Strij.Lib
open Strij.NodeAgent (NodeCapabilities NodeState)

inductive NodeStatus
  | initial
  | connecting
  | connected
  | disconnected
  deriving DecidableEq, Repr

/-- An `io::Connection` of a node: open until end of stream or `Close`. The mailbox is closed, and its
close callback runs, at the same moment. -/
structure Link where
  key : ℕ
  isOpen : Bool
  deriving DecidableEq, Repr

/-- What a node says about itself in `kNodeAdvertisement`. -/
structure Advertisement where
  nodeId : String
  schedulingProtocols : List String
  capabilities : NodeCapabilities := {}

/-- A gateway `Node`, with an identity of its own. -/
structure NodeRecord where
  key : ℕ
  nodeId : String
  address : String
  status : NodeStatus := .initial
  link : Option Link := none
  connects : ℕ := 0
  advertisement : Option Advertisement := none
  state : Option NodeState := none

namespace NodeRecord
variable (n : NodeRecord)

def isAvailable : Bool := n.status = .connected

def isOpen : Bool := n.link.any Link.isOpen

def view : Node := ⟨n.nodeId,n.link.map (fun l => ⟨l.key,some n.nodeId⟩)⟩

/-- The close callback that runs when the node's connection goes: none if it ran before. -/
def closing : List String := if n.isOpen then [n.nodeId] else []

def disconnect : NodeRecord := { n with link := none, status := .disconnected }

def startConnect : NodeRecord := { n with connects := n.connects+1, status := .connecting }

def reconnectTo (address : String) : NodeRecord :=
  { n.disconnect with address := address, status := .initial }.startConnect

def handleConnect (key : ℕ) (ok : Bool) : NodeRecord :=
  if ok then { n with link := some ⟨key,true⟩, status := .connected, connects := n.connects-1 }
  else { n with status := .disconnected, connects := n.connects-1 }

def endOfStream : NodeRecord := { n with link := n.link.map (fun l => { l with isOpen := false }) }

end NodeRecord

structure NodeInfo where
  nodeId : String
  address : String

structure NodeDirectoryImpl where
  nodes : AList (fun _ : String => NodeRecord) := ∅
  originToCanonical : AList (fun _ : String => String) := ∅
  nextNodeIndex : ℕ := 0

namespace NodeDirectoryImpl
variable (d : NodeDirectoryImpl)

def getNode (id : String) : Option NodeRecord := d.nodes.lookup id

def ordered : List NodeRecord :=
  (d.nodes.entries.insertionSort (fun a b => a.1 ≤ b.1)).map Sigma.snd

def advertises (protocol : String) (n : NodeRecord) : Bool :=
  match n.advertisement with
  | none => true
  | some a => a.schedulingProtocols.any (· = protocol)

def getCandidates (protocol : String) : List NodeRecord :=
  d.ordered.filter (fun n => n.isAvailable && advertises protocol n)

def availableAt (i : ℕ) : Option (ℕ × NodeRecord) :=
  (d.ordered[(d.nextNodeIndex+i) % d.ordered.length]?).bind
    (fun n => if n.isAvailable then some ((d.nextNodeIndex+i) % d.ordered.length,n) else none)

def getNextNode : Option NodeRecord × NodeDirectoryImpl :=
  match (List.range d.ordered.length).findSome? d.availableAt with
  | none => (none,d)
  | some (i,n) => (some n,{ d with nextNodeIndex := (i+1) % d.ordered.length })

def answers : NodeDirectory where
  candidates := (d.getCandidates "probe").map NodeRecord.view
  node id := (d.getNode id).map NodeRecord.view

def set (n : NodeRecord) : NodeDirectoryImpl := { d with nodes := d.nodes.insert n.nodeId n }

def rekeyNode (fromId toId : String) : NodeDirectoryImpl :=
  if fromId = toId then d
  else match d.getNode fromId with
  | none => d
  | some n =>
    if toId ∈ d.nodes then d
    else { d with
      originToCanonical :=
        (mapValues (fun canonical => if canonical = fromId then toId else canonical)
          d.originToCanonical).insert fromId toId
      nodes := (d.nodes.erase fromId).insert toId { n with nodeId := toId } }

def canonical (id : String) : String := (d.originToCanonical.lookup id).getD id

end NodeDirectoryImpl

/-- The directory with the commands waiting for the next tick, by the nodes they are for, and the next
identity to give out. -/
structure Network where
  directory : NodeDirectoryImpl := {}
  commands : List ℕ := []
  nextKey : ℕ := 0

namespace Network
variable (net : Network)

def getNode (id : String) : Option NodeRecord := net.directory.getNode id

def set (n : NodeRecord) : Network := { net with directory := net.directory.set n }

/-- The record of the node a connection belongs to, while it is that node's connection. -/
def ownerOf (conn : Connection) : Option NodeRecord :=
  (conn.owner.bind net.getNode).filter (fun n => n.link.any (fun l => l.key = conn.key))

/-- `AddNode`: a node that is already there is destroyed with its connection. -/
def addNode (id address : String) : Network × List String :=
  ({ net with
    directory := net.directory.set (NodeRecord.startConnect ⟨net.nextKey,id,address,.initial,none,0,none,none⟩)
    nextKey := net.nextKey+1 },((net.getNode id).map NodeRecord.closing).getD [])

def announce (info : NodeInfo) : Network × List String :=
  match net.getNode (net.directory.canonical info.nodeId) with
  | none => net.addNode info.nodeId info.address
  | some n =>
    if n.address ≠ info.address then (net.set (n.reconnectTo info.address),n.closing) else (net,[])

def announceAll : List NodeInfo → Network → Network × List String
  | [],net => (net,[])
  | info :: snapshot,net =>
    let (net,closed) := net.announce info
    let (net,more) := announceAll snapshot net
    (net,closed ++ more)

def remove (n : NodeRecord) : Network × List String :=
  ({ net with directory := { net.directory with nodes := net.directory.nodes.erase n.nodeId } },n.closing)

/-- `RemoveNode`: the origins that resolve to the node are forgotten with it. -/
def removeNode (id : String) : Network × List String :=
  match net.getNode id with
  | none => (net,[])
  | some n =>
    ({ net with directory := { net.directory with
      originToCanonical := filterValues (· ≠ id) net.directory.originToCanonical
      nodes := net.directory.nodes.erase id } },n.closing)

def removeAll : List NodeRecord → Network → Network × List String
  | [],net => (net,[])
  | n :: nodes,net =>
    let (net,closed) := net.remove n
    let (net,more) := removeAll nodes net
    (net,closed ++ more)

def reconcile (snapshot : List NodeInfo) : Network × List String :=
  let present := snapshot.map (fun info => net.directory.canonical info.nodeId)
  let (net,closed) := announceAll snapshot net
  let (net,more) := removeAll (net.directory.ordered.filter (fun n => n.nodeId ∉ present)) net
  (net,closed ++ more)

/-- The connect of a node completes; a connection it still has is destroyed. -/
def handleConnect (n : NodeRecord) (ok : Bool) : Network × List String :=
  ({ net.set (n.handleConnect net.nextKey ok) with nextKey := net.nextKey+1 },if ok then n.closing else [])

/-- End of stream on a node's connection: it closes now and is deleted by a command. -/
def endOfStream (n : NodeRecord) : Network × List String :=
  ({ net.set n.endOfStream with commands := n.key :: net.commands },n.closing)

def deferredDelete (key : ℕ) : Network × List String :=
  ({ net with directory := { net.directory with
      nodes := mapValues (fun n => if n.key = key then n.disconnect else n) net.directory.nodes } },
    (net.directory.nodes.entries.filter (fun x => x.2.key = key)).flatMap (fun x => x.2.closing))

def processCommands : List ℕ → Network → Network × List String
  | [],net => (net,[])
  | key :: commands,net =>
    let (net,closed) := net.deferredDelete key
    let (net,more) := processCommands commands net
    (net,closed ++ more)

/-- The start of a tick: the commands of the last batch, the latest first. -/
def tick : Network × List String := processCommands net.commands { net with commands := [] }

/-- The node's advertisement is stored, and its record moved to the id it advertises. -/
def advertise (n : NodeRecord) (a : Advertisement) : Network :=
  let directory := net.directory.set { n with advertisement := some a }
  { net with directory := directory.rekeyNode n.nodeId a.nodeId }

end Network
end Strij.Gateway
