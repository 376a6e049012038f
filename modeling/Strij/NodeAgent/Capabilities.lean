import Strij.Lib.Checks
import Strij.NodeAgent.AdmissionRun

/-! The capabilities that a node derives from its config, and what the admission controller built from them
makes of the pools: the reservations of a pool are added up in machine arithmetic. -/
namespace Strij.NodeAgent
open Strij.Lib

structure TypedConfig where
  typeUrl : String
  value : String
  deriving DecidableEq, Repr

structure ExtensionConfig where
  name : String
  typedConfig : TypedConfig
  deriving DecidableEq, Repr

structure TaskHandlerFactory where
  name : String
  parseConfig : TypedConfig → Option (Except String UInt64)

structure NodeSchedulerFactory where
  requiredProtocol : String
  unpacks : TypedConfig → Bool

structure ExtensionRegistry where
  taskHandlers : String → Option TaskHandlerFactory
  schedulers : String → Option NodeSchedulerFactory

structure DeclaredReservation extends PoolReservation where
  taskType : String

structure NodeAgentConfig where
  address : String
  port : UInt32
  pools : List ResourcePool
  reservations : List DeclaredReservation := []
  taskHandlers : List ExtensionConfig := []
  schedulers : List ExtensionConfig := []

structure NodeAdvertisement where
  nodeId : String
  address : String
  capabilityVersion : UInt32
  capabilities : NodeCapabilities
  updateChannels : List String
  schedulingProtocols : List String

section Build
variable (registry : ExtensionRegistry) (config : NodeAgentConfig)

def checkReservation (r : DeclaredReservation) : Except String Unit :=
  if config.pools.any (fun p => p.name = r.pool) then .ok ()
  else .error ("PoolReservation for task type '" ++ r.taskType ++ "' references undeclared pool '" ++ r.pool ++ "'")

def handlerCapability (ext : ExtensionConfig) : Except String HandlerCapability :=
  match registry.taskHandlers ext.name with
  | none => .error ("Task handler '" ++ ext.name ++ "' is not registered. Ensure the extension library is linked " ++
      "and the name matches a registered factory.")
  | some factory =>
    match factory.parseConfig ext.typedConfig with
    | none => .error ("Failed to unpack typed_config for task handler '" ++ ext.name ++ "': unknown type '" ++
        ext.typedConfig.typeUrl ++ "'")
    | some (.error message) =>
      .error ("Failed to parse capacity for task handler '" ++ ext.name ++ "': " ++ message)
    | some (.ok concurrency) => .ok ⟨factory.name,concurrency⟩

/-- The protocol of a scheduler; an empty typed config is tolerated. -/
def schedulerProtocol (ext : ExtensionConfig) : Except String String :=
  match registry.schedulers ext.name with
  | none => .error ("Scheduler '" ++ ext.name ++ "' is not registered. Ensure the extension library is linked " ++
      "and the name matches a registered factory.")
  | some factory =>
    if ext.typedConfig.typeUrl ≠ "" ∧ factory.unpacks ext.typedConfig = false then
      .error ("Failed to unpack typed_config for scheduler '" ++ ext.name ++ "': unknown type '" ++
        ext.typedConfig.typeUrl ++ "'")
    else .ok factory.requiredProtocol

def buildNodeCapabilities (nodeId : String) : Except String NodeAdvertisement := do
  if config.pools.isEmpty then
    throw "NodeAgentConfig.pools is empty: at least one ResourcePool must be configured"
  config.reservations.forM (checkReservation config)
  let handlers ← config.taskHandlers.mapM (handlerCapability registry)
  let protocols ← config.schedulers.mapM (schedulerProtocol registry)
  return {
    nodeId := nodeId
    address := config.address ++ ":" ++ toString config.port
    capabilityVersion := 1
    capabilities := ⟨config.pools,config.reservations.map (·.toPoolReservation),handlers⟩
    updateChannels := ["heartbeat"]
    schedulingProtocols := (protocols.filter (· ≠ "")).dedup.insertionSort (· ≤ ·) }

variable {registry config}

lemma buildNodeCapabilities_ok {nodeId : String} {built : NodeAdvertisement}
    (h : buildNodeCapabilities registry config nodeId = .ok built) :
    built.nodeId = nodeId ∧ built.capabilities.pools = config.pools ∧
      built.capabilities.reservations = config.reservations.map (·.toPoolReservation) := by
  rw [buildNodeCapabilities] at h
  split at h
  · cases h
  · obtain ⟨-,h⟩ := seq_eq_ok.mp h
    obtain ⟨handlers,-,h⟩ := bind_eq_ok.mp h
    obtain ⟨protocols,-,h⟩ := bind_eq_ok.mp h
    cases h
    exact ⟨rfl,rfl,rfl⟩

end Build

namespace NodeCapabilities
variable (capabilities : NodeCapabilities)

def reservedSum (pool : String) : ℕ :=
  ((capabilities.reservations.filter (fun r => r.pool = pool)).map (fun r => r.amount.toNat)).sum

end NodeCapabilities

namespace AdmissionController
variable {capabilities : NodeCapabilities} {c : AdmissionController} {pool : String}

lemma poolReserved_ofCapabilities (capabilities : NodeCapabilities) (pool : String) :
    (ofCapabilities capabilities).poolReserved.value pool =
      ((capabilities.reservations.filter (fun r => r.pool = pool)).map (·.amount)).sum := by
  have hsum := Tally.value_foldl_add (∅ : Tally String) PoolReservation.pool PoolReservation.amount
    capabilities.reservations pool
  rw [Tally.value_empty,UInt64.zero_add] at hsum
  exact hsum

lemma sum_toNat {l : List UInt64} (h : (l.map UInt64.toNat).sum < 2^64) : l.sum.toNat = (l.map UInt64.toNat).sum := by
  induction l with
  | nil => rfl
  | cons x l ih =>
    rw [List.map_cons,List.sum_cons] at h ⊢
    rw [List.sum_cons,UInt64.toNat_add,ih (by omega),Nat.mod_eq_of_lt (by omega)]

lemma poolReserved_toNat (h : capabilities.reservedSum pool < 2^64) :
    ((ofCapabilities capabilities).poolReserved.value pool).toNat = capabilities.reservedSum pool := by
  have hmap : ((capabilities.reservations.filter (fun r => r.pool = pool)).map (·.amount)).map UInt64.toNat =
      (capabilities.reservations.filter (fun r => r.pool = pool)).map (fun r => r.amount.toNat) := List.map_map
  rw [poolReserved_ofCapabilities,sum_toNat (by rw [hmap]; exact h),hmap]
  rfl

lemma poolTotal_ofCapabilities {p : ResourcePool} (hp : p ∈ capabilities.pools)
    (hagree : ∀ q ∈ capabilities.pools, q.name = p.name → q.total = p.total) :
    (ofCapabilities capabilities).poolTotal[p.name]? = some p.total :=
  Tally.getElem?_foldl_insert_of_mem ∅ ResourcePool.name ResourcePool.total hp hagree

lemma poolTotal_undeclared (h : ∀ q ∈ capabilities.pools, q.name ≠ pool) :
    (ofCapabilities capabilities).poolTotal[pool]? = none := by
  have hempty := Tally.getElem?_foldl_insert_of_ne (∅ : Tally String) ResourcePool.name ResourcePool.total h
  rw [Std.TreeMap.getElem?_emptyc] at hempty
  exact hempty

end AdmissionController

namespace Admissions
variable {s : Admissions} {capabilities : NodeCapabilities} {s' : Admissions}

lemma offers_step {e : AdmissionEvent} (h : s.controller.Offers capabilities)
    (hstep : s.step e = some s') : s'.controller.Offers capabilities := by
  cases e with
  | admitTask taskType r a =>
    simp only [step] at hstep
    split at hstep
    · cases hstep
    obtain ⟨e,he⟩ | ⟨-,-,hok⟩ := s.controller.admitTask_cases taskType r
    · rw [he] at hstep
      cases hstep
      exact h
    · rw [hok] at hstep
      cases hstep
      exact h.admitTask hok
  | release a =>
    obtain ⟨scope,-,rfl⟩ := Option.map_eq_some_iff.mp hstep
    exact h.release scope
  | destroy a =>
    obtain ⟨scope,-,rfl⟩ := Option.map_eq_some_iff.mp hstep
    exact h.release scope
  | registerObserver o =>
    simp only [step] at hstep
    split at hstep
    · cases hstep
    · cases hstep
      exact ⟨h.poolTotal,h.poolReserved,h.typeConcurrency⟩
  | unregisterObserver o =>
    cases hstep
    exact ⟨h.poolTotal,h.poolReserved,h.typeConcurrency⟩

lemma offers_run {events : List AdmissionEvent} (h : s.controller.Offers capabilities)
    (hrun : s.run events = some s') : s'.controller.Offers capabilities := by
  induction events generalizing s with
  | nil =>
    cases hrun
    exact h
  | cons e events ih =>
    rw [run,List.foldlM_cons] at hrun
    obtain ⟨t,ht,hrest⟩ := Option.bind_eq_some_iff.mp hrun
    exact ih (offers_step h ht) hrest

/-- In every state of a node whose pools have distinct names, the shared free capacity of a pool is the integer
difference of its total, its reservations and what the live scopes hold, and the scopes hold nothing of what is
reserved: as long as the reservations of the pool do not add up to 2^64. -/
theorem sharedFree_is_difference (registry : ExtensionRegistry) (config : NodeAgentConfig) (nodeId : String)
    (built : NodeAdvertisement) (hbuild : buildNodeCapabilities registry config nodeId = .ok built)
    (hdistinct : (config.pools.map ResourcePool.name).Nodup) (events : List AdmissionEvent) (s : Admissions)
    (hrun : (init built.capabilities).run events = some s) (p : ResourcePool) (hp : p ∈ config.pools)
    (hsum : built.capabilities.reservedSum p.name < 2^64) : ((s.controller.sharedFree p.name).toNat : ℤ) =
      max 0 ((p.total.toNat : ℤ)-built.capabilities.reservedSum p.name-held s.live p.name) ∧
    (held s.live p.name = 0 ∨ built.capabilities.reservedSum p.name+held s.live p.name ≤ p.total.toNat) := by
  obtain ⟨-,hpools,-⟩ := buildNodeCapabilities_ok hbuild
  have hbalanced := (balanced_init built.capabilities).run hrun
  have hoffers := offers_run .start hrun
  have hagree : ∀ q ∈ config.pools, q.name = p.name → q.total = p.total := by
    intro q hq hname
    rw [List.inj_on_of_nodup_map hdistinct hq hp hname]
  have htotal : s.controller.poolTotal.value p.name = p.total := by
    refine Tally.value_of_some _ ?_
    rw [hoffers.poolTotal]
    exact AdmissionController.poolTotal_ofCapabilities (hpools ▸ hp) (hpools ▸ hagree)
  have hreserved : (s.controller.poolReserved.value p.name).toNat = built.capabilities.reservedSum p.name := by
    rw [hoffers.poolReserved]
    exact AdmissionController.poolReserved_toNat hsum
  have hfree := hbalanced.pools.sharedFree p.name
  have hbounded := hbalanced.pools.bounded p.name
  rw [htotal,hreserved] at hfree hbounded
  refine ⟨?_,hbounded⟩
  rw [hfree]
  omega

def noExtensions : ExtensionRegistry := ⟨fun _ => none,fun _ => none⟩

def reservingNode (first second : UInt64) : NodeAgentConfig where
  address := "0.0.0.0"
  port := 9090
  pools := [⟨"gpu",10⟩]
  reservations := [⟨⟨"gpu",first⟩,"train"⟩,⟨⟨"gpu",second⟩,"serve"⟩]

lemma sixteen_ne_zero : (16 : UInt64) ≠ 0 := by decide

def gpuAdmission (amount : UInt64) : List AdmissionEvent :=
  [.admitTask "echo" ⟨[("gpu",amount)],List.nodup_singleton "gpu"⟩ ⟨16,sixteen_ne_zero⟩]

theorem sharedFree_is_difference_reservingNode : ∃ built s,
    buildNodeCapabilities noExtensions (reservingNode 3 4) "n" = .ok built ∧
    (init built.capabilities).run (gpuAdmission 2) = some s ∧ held s.live "gpu" = 2 ∧
    ((s.controller.sharedFree "gpu").toNat : ℤ) =
      max 0 ((10 : ℤ)-built.capabilities.reservedSum "gpu"-held s.live "gpu") := by
  have hrun : ((init ⟨[⟨"gpu",10⟩],[⟨"gpu",3⟩,⟨"gpu",4⟩],[]⟩).run (gpuAdmission 2)).any (fun s =>
    held s.live "gpu" = 2) = true := by decide +kernel
  obtain ⟨s,hs,hheld⟩ := (Option.any_eq_true _ _).mp hrun
  exact ⟨_,s,rfl,hs,of_decide_eq_true hheld,(sharedFree_is_difference noExtensions (reservingNode 3 4) "n" _ rfl (by decide) _ s hs
    ⟨"gpu",10⟩ (List.mem_singleton_self _) (by decide +kernel)).1⟩

/-- Two reservations of 2^63 devices add up to none: all ten devices are free and are admitted. -/
theorem reservations_overflow : ∃ built s,
    buildNodeCapabilities noExtensions (reservingNode (2^63) (2^63)) "n" = .ok built ∧
    (init built.capabilities).controller.sharedFree "gpu" = 10 ∧
    max 0 ((10 : ℤ)-built.capabilities.reservedSum "gpu"-held (init built.capabilities).live "gpu") = 0 ∧
    (init built.capabilities).run (gpuAdmission 10) = some s ∧ held s.live "gpu" = 10 ∧
    built.capabilities.reservedSum "gpu" > 10 := by
  have hrun : ((init ⟨[⟨"gpu",10⟩],[⟨"gpu",2^63⟩,⟨"gpu",2^63⟩],[]⟩).run (gpuAdmission 10)).any (fun s =>
    held s.live "gpu" = 10) = true := by decide +kernel
  obtain ⟨s,hs,hheld⟩ := (Option.any_eq_true _ _).mp hrun
  exact ⟨_,s,rfl,by decide +kernel,by decide +kernel,hs,of_decide_eq_true hheld,by decide +kernel⟩

/-- Admission depends on the live scopes only: after any two runs with the same capabilities, what is admitted beside
some scopes is admitted beside fewer of them, whatever happened before. -/
theorem admits_beside_fewer (capabilities : NodeCapabilities) (events events' : List AdmissionEvent)
    (s s' : Admissions) (hrun : (init capabilities).run events = some s)
    (hrun' : (init capabilities).run events' = some s') (hfewer : s'.live.Subperm s.live) (taskType : String)
    (r : ResourceRequirements) (h : s.controller.Admits taskType r) : s'.controller.Admits taskType r := by
  have hbooks := (balanced_init capabilities).run hrun
  have hbooks' := (balanced_init capabilities).run hrun'
  obtain ⟨live,hperm,hsub⟩ := hfewer
  refine (offers_run .start hrun).admits_mono (offers_run .start hrun') hbooks.pools hbooks.types
    (hbooks'.pools.perm hperm.symm) (hbooks'.types.perm hperm.symm) (fun pool => ?_) (fun type => ?_) h
  · exact (hsub.map _).sum_le_sum fun _ _ => Nat.zero_le _
  · exact (hsub.map _).count_le type

theorem admits_beside_fewer_released : ∃ s, (init echoNode).run echoEvents = some s ∧
    s.controller.Admits "echo" ⟨[("cpu",4)],List.nodup_singleton "cpu"⟩ := by
  have hrun : ((init echoNode).run echoEvents).any (fun s => s.live = []) = true := by decide +kernel
  obtain ⟨s,hs,hlive⟩ := (Option.any_eq_true _ _).mp hrun
  refine ⟨s,hs,admits_beside_fewer echoNode [] echoEvents _ s rfl hs ?_ _ _ (by decide +kernel)⟩
  exact of_decide_eq_true hlive ▸ List.nil_subperm

end Admissions
end Strij.NodeAgent
