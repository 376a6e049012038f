import Strij.Gateway.SchedulerRouter
import Strij.NodeAgent.Capabilities

/-! The gateway decides from a node's advertisement and its last snapshot whether the node can take a task; the
node decides from its own tables, which read the declarations in another way. -/
namespace Strij.Gateway
open Strij.Lib Strij.Wire
open Strij.NodeAgent (AdmissionController AdmissionEvent Admissions ExtensionRegistry HandlerCapability NodeAdvertisement
  NodeAgentConfig NodeCapabilities ResourcePool buildNodeCapabilities)

def Advertisement.of (a : NodeAdvertisement) : Advertisement := ⟨a.nodeId,a.schedulingProtocols,a.capabilities⟩

/-- Pools and handlers that are declared more than once are declared alike. -/
structure DeclaredAlike (capabilities : NodeCapabilities) : Prop where
  pools : ∀ p ∈ capabilities.pools, ∀ q ∈ capabilities.pools, q.name = p.name → q.total = p.total
  handlers : ∀ h ∈ capabilities.handlers, ∀ k ∈ capabilities.handlers, k.taskType = h.taskType →
    k.concurrency = h.concurrency

namespace CapabilityAware
variable {capabilities : NodeCapabilities} {c : AdmissionController} {task : Task}
  {handler : HandlerCapability}

lemma less_toNat (a b : UInt64) : (less a b).toNat = a.toNat-b.toNat := by
  rw [less]
  split
  · next h => rw [UInt64.toNat_sub_of_le _ _ (UInt64.le_of_lt h)]
  · next h =>
    have hle := UInt64.le_iff_toNat_le.mp (UInt64.not_lt.mp h)
    rw [Nat.sub_eq_zero_of_le hle]
    rfl

lemma poolTotal_eq (h : DeclaredAlike capabilities) (pool : String) :
    poolTotal capabilities pool = (AdmissionController.ofCapabilities capabilities).poolTotal.value pool := by
  rw [poolTotal]
  cases hfind : capabilities.pools.find? (fun p => p.name = pool) with
  | none =>
    have hnone : ∀ q ∈ capabilities.pools, q.name ≠ pool := by
      intro q hq hname
      simpa [hname] using List.find?_eq_none.mp hfind q hq
    rw [Tally.value_of_none _ (AdmissionController.poolTotal_undeclared hnone)]
    rfl
  | some p =>
    have hmem := List.mem_of_find?_eq_some hfind
    obtain rfl : p.name = pool := by simpa using List.find?_some hfind
    rw [Tally.value_of_some _ (AdmissionController.poolTotal_ofCapabilities hmem (h.pools p hmem))]
    rfl

lemma poolReserved_eq (capabilities : NodeCapabilities) (pool : String) :
    poolReserved capabilities pool = (AdmissionController.ofCapabilities capabilities).poolReserved.value pool :=
  (AdmissionController.poolReserved_ofCapabilities capabilities pool).symm

lemma typeConcurrency_eq (h : DeclaredAlike capabilities) {taskType : String}
    (hfind : findHandler capabilities taskType = some handler) :
    (AdmissionController.ofCapabilities capabilities).typeConcurrency[taskType]? = some handler.concurrency := by
  have hmem := List.mem_of_find?_eq_some hfind
  obtain rfl : handler.taskType = taskType := by simpa using List.find?_some hfind
  exact Tally.getElem?_foldl_insert_of_mem ∅ HandlerCapability.taskType HandlerCapability.concurrency hmem
    (h.handlers handler hmem)

section Snapshot
variable (nodeId : String) (seq now : UInt64)

lemma typeInFlight_snapshot (c : AdmissionController) (taskType : String) :
    typeInFlight (some (c.buildStateSnapshot nodeId seq now)) taskType = c.inFlight taskType := by
  have hfind := Tally.find?_toList c.typeInFlight taskType
  simp only [typeInFlight,AdmissionController.buildStateSnapshot,Option.bind_some,List.find?_map,Function.comp_def,hfind]
  rw [AdmissionController.inFlight,Tally.value,Std.TreeMap.getD_eq_getD_getElem?]
  cases c.typeInFlight[taskType]? <;> rfl

lemma poolInUse_snapshot {pool : String} {total : UInt64} (h : c.poolTotal[pool]? = some total) :
    poolInUse (some (c.buildStateSnapshot nodeId seq now)) pool = c.poolInUse.value pool := by
  have hfind := Tally.find?_toList c.poolTotal pool
  simp only [poolInUse,AdmissionController.buildStateSnapshot,Option.bind_some,List.find?_map,Function.comp_def,hfind,h]
  rfl

end Snapshot

lemma fits_pool_iff {live : List NodeAgent.AdmissionScope} (hdeclared : DeclaredAlike capabilities)
    (hoffers : c.Offers capabilities) (hpools : c.PoolAccounts live) (nodeId : String) (seq now : UInt64)
    {x : String × UInt64} (hx : x.2 = 0 → ∃ p ∈ capabilities.pools, p.name = x.1) :
    x.2 ≤ less (less (poolTotal capabilities x.1) (poolReserved capabilities x.1))
        (poolInUse (some (c.buildStateSnapshot nodeId seq now)) x.1) ↔
      c.poolTotal.contains x.1 = true ∧ x.2 ≤ c.sharedFree x.1 := by
  rw [poolTotal_eq hdeclared,poolReserved_eq,← hoffers.poolTotal,← hoffers.poolReserved]
  cases htotal : c.poolTotal[x.1]? with
  | none =>
    have hzero : x.2 ≠ 0 := by
      intro h0
      obtain ⟨p,hp,hname⟩ := hx h0
      rw [hoffers.poolTotal,← hname,
        AdmissionController.poolTotal_ofCapabilities hp (hdeclared.pools p hp)] at htotal
      cases htotal
    have hcontains : c.poolTotal.contains x.1 = false := by
      rw [Std.TreeMap.contains_eq_isSome_getElem?,htotal]
      rfl
    rw [Tally.value_of_none _ htotal,hcontains]
    simp only [UInt64.le_iff_toNat_le,less_toNat,Bool.false_eq_true,false_and,iff_false,UInt64.toNat_zero]
    have hpos : x.2.toNat ≠ 0 := fun h => hzero (UInt64.toNat_inj.mp h)
    omega
  | some total =>
    have hcontains : c.poolTotal.contains x.1 = true := by
      rw [Std.TreeMap.contains_eq_isSome_getElem?,htotal]
      rfl
    rw [poolInUse_snapshot nodeId seq now htotal,hcontains]
    simp only [UInt64.le_iff_toNat_le,less_toNat,hpools.sharedFree,hpools.inUse,true_and]
    omega

lemma checkResources_ok_iff {taskType : String} {resources : List (String × UInt64)} :
    c.checkResources taskType resources = .ok () ↔
      ∀ x ∈ resources, c.poolTotal.contains x.1 = true ∧ x.2 ≤ c.sharedFree x.1 := by
  induction resources with
  | nil => simp [AdmissionController.checkResources]
  | cons x rest ih =>
    obtain ⟨pool,amount⟩ := x
    rw [AdmissionController.checkResources,List.forall_mem_cons,← ih]
    split
    · next hundeclared => simp [hundeclared]
    next hcontains =>
    split
    · next hlt => simp [UInt64.not_le.mpr hlt]
    · next hle => simp [not_not.mp hcontains,UInt64.not_lt.mp hle]

lemma belowLimit_iff (hdeclared : DeclaredAlike capabilities) (hoffers : c.Offers capabilities) (nodeId : String)
    (seq now : UInt64) (hfind : findHandler capabilities task.type = some handler) :
    belowLimit (some (c.buildStateSnapshot nodeId seq now)) task (some handler) = true ↔
      c.checkConcurrency task.type = .ok () := by
  have hlimit := typeConcurrency_eq hdeclared hfind
  rw [← hoffers.typeConcurrency] at hlimit
  rw [belowLimit,typeInFlight_snapshot,AdmissionController.checkConcurrency,hlimit]
  have hpos : 0 < handler.concurrency ↔ handler.concurrency ≠ 0 := UInt64.pos_iff_ne_zero
  simp only [Bool.not_eq_true',Bool.and_eq_false_iff,decide_eq_false_iff_not,hpos]
  split
  · next h => simp [h.1,h.2]
  · next h =>
    simp only [iff_true]
    tauto

/-- A handler whose config says nothing but its limit. -/
def echoRegistry : ExtensionRegistry where
  taskHandlers name := if name = "echo" then some ⟨"echo",fun c => some (.ok (if c.value = "1" then 1 else 2))⟩ else none
  schedulers _ := none

def echoConfig (pools : List ResourcePool) (limits : List String) : NodeAgentConfig where
  address := "0.0.0.0"
  port := 9090
  pools := pools
  taskHandlers := limits.map (fun limit => ⟨"echo","strij.Echo",limit⟩)

def snapshotRecord (built : NodeAdvertisement) (c : AdmissionController) : NodeRecord where
  key := 0
  nodeId := built.nodeId
  address := built.address
  status := .connected
  advertisement := some (.of built)
  state := some (c.buildStateSnapshot built.nodeId 0 0)

def echoTask (resources : List (String × UInt64)) (h : (resources.map Prod.fst).Nodup) : Task :=
  ⟨"t","echo",⟨resources,h⟩,[]⟩

/-- The gateway and the node that was configured so, on a task that asks for these resources: whether the node is
eligible, and whether it admits the task. -/
def answers (config : NodeAgentConfig) (events : List AdmissionEvent) (task : Task) : Option (Bool × Bool) :=
  match buildNodeCapabilities echoRegistry config "n" with
  | .error _ => none
  | .ok built => ((Admissions.init built.capabilities).run events).map (fun s =>
      (eligible (snapshotRecord built s.controller) task,
        (s.controller.admitTask task.type task.requirements).1.isOk))

end CapabilityAware
end Strij.Gateway
