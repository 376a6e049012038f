import Strij.Gateway.ProbeConservation
import Strij.NodeAgent.ProbeLocalScheduler
import Strij.Probe.Conversation

/-! One gateway and its nodes, each on a connection of its own that is a queue in both directions. -/
namespace Strij.Probe
open Strij.Gateway Strij.NodeAgent Strij.Wire

def connection (n : String) : Connection := ⟨0,some n⟩

/-- A directory that offers the given candidates and knows every node. -/
def directory (candidates : List String) : NodeDirectory where
  candidates := candidates.map (fun n => ⟨n,some (connection n)⟩)
  node n := some ⟨n,some (connection n)⟩

def writesTo (n : String) (effects : List Effect) : List GatewayFrame :=
  effects.filterMap fun
    | .write conn frame => if conn = connection n then some frame else none
    | _ => none

def enqueued (effects : List NodeEffect) : List NodeFrame :=
  effects.filterMap fun
    | .enqueue _ frame => some frame
    | _ => none

structure System where
  gateway : ProbeScheduler
  nodes : String → ProbeLocalScheduler
  down : String → List GatewayFrame := fun _ => []
  up : String → List NodeFrame := fun _ => []
  scheduled : List (String × Receiver) := []
  effects : List Effect := []
  log : String → List NodeEffect := fun _ => []

inductive SystemEvent
  | schedule (task : Task) (receiver : Receiver) (candidates : List String) (now : ℤ)
  | sweep (now : ℤ)
  | toGateway (n : String)
  | toNode (n : String) (cached : AllCached)
  | command (n : String) (command : CommandType) (cached : AllCached)
  | finishTask (n : String) (i : ℕ)
  | admitOther (n : String) (taskType : String) (requirements : ResourceRequirements)
  | releaseOther (n : String) (i : ℕ)

namespace System

def afterGateway (s : System) (r : ProbeScheduler × List Effect) : System :=
  { s with
    gateway := r.1
    down := fun n => s.down n ++ writesTo n r.2
    effects := s.effects ++ r.2 }

def afterNode (s : System) (n : String) (r : ProbeLocalScheduler × List NodeEffect) : System :=
  { s with
    nodes := Function.update s.nodes n r.1
    up := Function.update s.up n (s.up n ++ enqueued r.2)
    log := Function.update s.log n (s.log n ++ r.2) }

/-- One event; `none` if it cannot happen: a task id or receiver is used again, a candidate is
listed twice, or there is no frame to read. -/
def step (s : System) : SystemEvent → Option System
  | .schedule task receiver candidates now =>
    if candidates.Nodup ∧ task.id ∉ s.scheduled.map Prod.fst ∧
        receiver ∉ s.scheduled.map Prod.snd then
      some { s.afterGateway (s.gateway.schedule (directory candidates) now task receiver) with
        scheduled := s.scheduled ++ [(task.id,receiver)] }
    else none
  | .sweep now => some (s.afterGateway (s.gateway.sweepExpired (directory []) now))
  | .toGateway n =>
    match s.up n with
    | [] => none
    | frame :: rest => some (afterGateway { s with up := Function.update s.up n rest }
        (s.gateway.handleFrame (directory []) frame (connection n)).2)
  | .toNode n cached =>
    match s.down n with
    | [] => none
    | frame :: rest => some (afterNode { s with down := Function.update s.down n rest } n
        ((s.nodes n).handleFrame cached frame 0).2)
  | .command n command cached => some (s.afterNode n ((s.nodes n).processCommand cached command))
  | .finishTask n i => some (s.afterNode n ((s.nodes n).finishTask i,[]))
  | .admitOther n taskType r => some (s.afterNode n ((s.nodes n).admitOther taskType r,[]))
  | .releaseOther n i => some (s.afterNode n ((s.nodes n).releaseOther i,[]))

def run (s : System) (events : List SystemEvent) : Option System := events.foldlM step s

structure Initial (s : System) : Prop where
  pending : s.gateway.pending = ∅
  idle : ∀ n, (s.nodes n).queue.items = [] ∧ (s.nodes n).pullPending = ∅ ∧
    (s.nodes n).running = [] ∧ (s.nodes n).others = []
  admission : ∀ n, ∃ capabilities, (s.nodes n).admission = .ofCapabilities capabilities
  channels : ∀ n, s.down n = [] ∧ s.up n = []
  history : s.scheduled = [] ∧ s.effects = [] ∧ ∀ n, s.log n = []

def Ran (s : System) (n id : String) : Prop :=
  ∃ task : Task, .handleTask task ∈ s.log n ∧ task.id = id

/-- The node's reservation went into `RunTask`, with or without a handler. -/
def Consumed (s : System) (n id : String) : Prop :=
  ∃ task : Task, (.handleTask task ∈ s.log n ∨ .noHandler task ∈ s.log n) ∧ task.id = id

def Probed (s : System) (n id : String) : Prop :=
  ∃ probe : TaskProbe, .probe probe ∈ writesTo n s.effects ∧ probe.id = id

def Granted (s : System) (n id : String) : Prop :=
  ∃ task : Task, .grant task ∈ writesTo n s.effects ∧ task.id = id

def Cancelled (s : System) (n id : String) : Prop := .cancel id ∈ writesTo n s.effects

def Declined (s : System) (n id : String) : Prop :=
  ∃ reason, .decline id reason ∈ enqueued (s.log n)

end System

def downOf (id : String) : GatewayFrame → Option Down
  | .submission _ => none
  | .probe p => if p.id = id then some .probe else none
  | .grant t => if t.id = id then some .grant else none
  | .cancel i => if i = id then some .cancel else none
  | .malformed _ => none
  | .other _ => none

def upOf (id : String) : NodeFrame → Option Up
  | .pull i => if i = id then some .pull else none
  | .decline i _ => if i = id then some .decline else none
  | .malformed _ => none
  | .other _ => none

def isRun (id : String) : NodeEffect → Bool
  | .handleTask t => t.id = id
  | .noHandler t => t.id = id
  | _ => false

def isStray (id : String) : NodeEffect → Bool
  | .strayGrant i => i = id
  | _ => false

section Projections
variable (id : String)

def waits (g : ProbeScheduler) (n : String) : Bool :=
  (g.pending.lookup id).any (fun round => n ∈ round.probedNodeIds)

def queuedIn (items : List QueuedProbe) : ℕ := items.countP (fun item => item.probe.id = id)

def heldBy (s : ProbeLocalScheduler) : Bool := (s.pullPending.lookup id).isSome

def sentTo (n : String) (effects : List Effect) : List Down :=
  (writesTo n effects).filterMap (downOf id)

def answers (effects : List NodeEffect) : List Up := (enqueued effects).filterMap (upOf id)

end Projections

def System.view (s : System) (id n : String) : Conversation where
  outstanding := waits id s.gateway n
  down := (s.down n).filterMap (downOf id)
  up := (s.up n).filterMap (upOf id)
  queued := queuedIn id (s.nodes n).queue.items
  held := heldBy id (s.nodes n)
  sent := sentTo id n s.effects
  replied := answers id (s.log n)
  consumed := (s.log n).countP (isRun id)
  stray := (s.log n).countP (isStray id)

end Strij.Probe
