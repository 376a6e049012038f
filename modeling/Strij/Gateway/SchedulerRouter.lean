import Strij.Gateway.NodeDirectory

/-! The gateway's schedulers and the router in front of them: a task goes to the scheduler bound to its
type, a frame to the first scheduler that handles its frame type. -/
namespace Strij.Gateway
open Strij.Wire
open Strij.NodeAgent (HandlerCapability NodeCapabilities NodeState)

def pushTask (n : NodeRecord) (task : Task) (receiver : Receiver) : List Effect :=
  [.put task.id receiver n.nodeId,n.view.write (.submission task)]

namespace CapabilityAware
variable (caps : NodeCapabilities) (state : Option NodeState) (n : NodeRecord) (task : Task)

def findHandler (taskType : String) : Option HandlerCapability :=
  caps.handlers.find? (fun h => h.taskType = taskType)

def poolTotal (pool : String) : UInt64 :=
  ((caps.pools.find? (fun p => p.name = pool)).map (·.total)).getD 0

def poolReserved (pool : String) : UInt64 :=
  ((caps.reservations.filter (fun r => r.pool = pool)).map (·.amount)).sum

def poolInUse (pool : String) : UInt64 :=
  ((state.bind (fun s => s.pools.find? (fun u => u.pool = pool))).map (·.inUse)).getD 0

def typeInFlight (taskType : String) : UInt64 :=
  ((state.bind (fun s => s.typeUsage.find? (fun u => u.taskType = taskType))).map (·.inFlight)).getD 0

def nodeInFlight : UInt64 := (state.map (·.inFlight)).getD 0

def less (a b : UInt64) : UInt64 := if b < a then a-b else 0

def fits : Bool :=
  task.requirements.resources.all (fun x =>
    x.2 ≤ less (less (poolTotal caps x.1) (poolReserved caps x.1)) (poolInUse state x.1))

def belowLimit (handler : Option HandlerCapability) : Bool :=
  match handler with
  | none => true
  | some h => !(0 < h.concurrency && h.concurrency ≤ typeInFlight state task.type)

def eligible : Bool :=
  match n.advertisement with
  | none => false
  | some a =>
    let handler := findHandler a.capabilities task.type
    if a.capabilities.handlers ≠ [] ∧ handler.isNone then false
    else belowLimit n.state task handler && fits a.capabilities n.state task

/-- The load of an eligible node, where `quotient` is the division of counts as doubles. -/
def loadRatio (quotient : UInt64 → UInt64 → ℚ) : ℚ :=
  match n.advertisement.bind (fun a => findHandler a.capabilities task.type) with
  | none => 1
  | some h =>
    if 0 < h.concurrency then quotient (min (typeInFlight n.state task.type) h.concurrency) h.concurrency
    else 1

def better (quotient : UInt64 → UInt64 → ℚ) (best : Option NodeRecord) (n : NodeRecord) :
    Option NodeRecord :=
  if !eligible n task then best
  else match best with
  | none => some n
  | some b =>
    if loadRatio n task quotient < loadRatio b task quotient ∨
        loadRatio n task quotient = loadRatio b task quotient ∧
          nodeInFlight n.state < nodeInFlight b.state
    then some n else some b

def choose (quotient : UInt64 → UInt64 → ℚ) (candidates : List NodeRecord) : Option NodeRecord :=
  candidates.foldl (better task quotient) none

end CapabilityAware

inductive GatewayScheduler
  | roundRobin (nextIndex : ℕ)
  | capabilityAware (quotient : UInt64 → UInt64 → ℚ)
  | probe (scheduler : ProbeScheduler)

namespace GatewayScheduler

def schedule (d : NodeDirectoryImpl) (now : ℤ) (task : Task) (receiver : Receiver) :
    GatewayScheduler → GatewayScheduler × List Effect
  | .roundRobin nextIndex =>
    match (d.getCandidates "push")[nextIndex % (d.getCandidates "push").length]? with
    | none => (.roundRobin nextIndex,
        [.deliverError receiver "no available node for task submission" .capacityRefused])
    | some n => (.roundRobin ((nextIndex+1) % (d.getCandidates "push").length),pushTask n task receiver)
  | .capabilityAware quotient =>
    match CapabilityAware.choose task quotient (d.getCandidates "push") with
    | none => (.capabilityAware quotient,
        [.deliverError receiver "no eligible node for task submission" .capacityRefused])
    | some n => (.capabilityAware quotient,pushTask n task receiver)
  | .probe s =>
    (.probe (s.schedule d.answers now task receiver).1,(s.schedule d.answers now task receiver).2)

def handledFrameTypes : GatewayScheduler → List UInt8
  | .probe _ => [8,10]
  | _ => []

def handleFrame (d : NodeDirectoryImpl) (frame : NodeFrame) (conn : Connection) :
    GatewayScheduler → GatewayScheduler × List Effect
  | .probe s =>
    (.probe (s.handleFrame d.answers frame conn).2.1,(s.handleFrame d.answers frame conn).2.2)
  | other => (other,[])

def sweepExpired (d : NodeDirectoryImpl) (now : ℤ) : GatewayScheduler → GatewayScheduler × List Effect
  | .probe s => (.probe (s.sweepExpired d.answers now).1,(s.sweepExpired d.answers now).2)
  | other => (other,[])

def pending : GatewayScheduler → AList (fun _ : String => PendingProbe)
  | .probe s => s.pending
  | _ => ∅

end GatewayScheduler

def frameType : NodeFrame → UInt8
  | .pull _ => 8
  | .decline _ _ => 10
  | .malformed kind => if kind = "TaskPull" then 8 else 10
  | .other typeId => typeId

structure RoutedScheduler where
  taskType : String
  scheduler : GatewayScheduler

def findSchedulerFrom (type : String) (i : ℕ) (fallback : Option ℕ) : List RoutedScheduler → Option ℕ
  | [] => fallback
  | r :: rest =>
    if r.taskType = "" then findSchedulerFrom type (i+1) (some i) rest
    else if r.taskType = type then some i
    else findSchedulerFrom type (i+1) fallback rest

def findSchedulerFor (schedulers : List RoutedScheduler) (task : Task) : Option ℕ :=
  findSchedulerFrom task.type 0 none schedulers

def findFrameOwner (schedulers : List RoutedScheduler) (typeId : UInt8) : Option ℕ :=
  schedulers.findIdx? (fun r => typeId ∈ r.scheduler.handledFrameTypes)

inductive SchedulerExtension
  | roundRobin
  | capabilityAware (quotient : UInt64 → UInt64 → ℚ)
  | probe (candidateCount : Option ℕ) (probeDeadline : Option ℤ) (rng : String → ℕ → ℕ)
  | unregistered (name : String)

structure SchedulerConfig where
  taskType : String
  extension : SchedulerExtension

inductive ConfigError
  | invalidArgument (message : String)
  | notFound (message : String)
  deriving DecidableEq, Repr

def createScheduler : SchedulerExtension → Except ConfigError GatewayScheduler
  | .roundRobin => .ok (.roundRobin 0)
  | .capabilityAware quotient => .ok (.capabilityAware quotient)
  | .probe candidateCount probeDeadline rng =>
    if candidateCount.getD 2 = 0 then
      .error (.invalidArgument "Scheduler factory 'probe' rejected the configuration (Create returned null)")
    else .ok (.probe ⟨candidateCount.getD 2,probeDeadline.getD 1000,rng,∅⟩)
  | .unregistered name => .error (.notFound ("Scheduler '" ++ name ++
      "' is not registered. Registered: capability_aware, probe, round_robin"))

/-- The loop of `BuildSchedulerRouter`, with the types bound so far and whether there is a default. -/
def buildFrom (boundTypes : List String) (hasDefault : Bool) :
    List SchedulerConfig → Except ConfigError (List RoutedScheduler)
  | [] => .ok []
  | c :: rest =>
    if c.taskType = "" ∧ hasDefault then
      .error (.invalidArgument
        "GatewayConfig.schedulers has more than one default scheduler (entry with empty task_type)")
    else if c.taskType ∈ boundTypes then
      .error (.invalidArgument
        ("GatewayConfig.schedulers binds task_type '" ++ c.taskType ++ "' more than once"))
    else do
      let scheduler ← createScheduler c.extension
      let routed ← if c.taskType = "" then buildFrom boundTypes true rest
        else buildFrom (c.taskType :: boundTypes) hasDefault rest
      return ⟨c.taskType,scheduler⟩ :: routed

def buildSchedulerRouter (config : List SchedulerConfig) : Except ConfigError (List RoutedScheduler) :=
  if config = [] then
    .error (.invalidArgument
      "GatewayConfig.schedulers is empty: at least one scheduler must be configured")
  else buildFrom [] false config

end Strij.Gateway
