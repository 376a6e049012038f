import Strij.Lib.Tally

/-! The node agent's admission controller, its scopes, and the runs of a node in which every
successful admission is wrapped in a scope. -/
namespace Strij.NodeAgent
open Strij.Lib
variable {r : ResourceRequirements} {v : UInt64}

structure ResourcePool where
  name : String
  total : UInt64

structure PoolReservation where
  pool : String
  amount : UInt64

structure HandlerCapability where
  taskType : String
  concurrency : UInt64

structure NodeCapabilities where
  pools : List ResourcePool := []
  reservations : List PoolReservation := []
  handlers : List HandlerCapability := []

/-- A protobuf map in its iteration order: every pool is named once. -/
structure ResourceRequirements where
  resources : List (String × UInt64)
  nodup : (resources.map Prod.fst).Nodup

def ResourceRequirements.amount (r : ResourceRequirements) (pool : String) : UInt64 :=
  Tally.amount r.resources pool

def assignResource (r : ResourceRequirements) (pool : String) (amount : UInt64) :
    ResourceRequirements where
  resources := r.resources.filter (fun x => x.1 ≠ pool) ++ [(pool,amount)]
  nodup := by
    rw [List.map_append,List.map_singleton,← List.concat_eq_append]
    refine List.Nodup.concat ?_ (r.nodup.sublist (List.filter_sublist.map _))
    simp only [List.mem_map,List.mem_filter,decide_eq_true_eq,not_exists,not_and]
    exact fun x hx => hx.2

lemma mem_assignResource {pool k : String} {amount : UInt64} :
    (k,v) ∈ (assignResource r pool amount).resources ↔
      (k,v) = (pool,amount) ∨ k ≠ pool ∧ (k,v) ∈ r.resources := by
  rw [assignResource,List.mem_append,List.mem_filter,List.mem_singleton,decide_eq_true_eq,or_comm,and_comm]

lemma mem_foldl_assignResource {xs : List (String × UInt64)} {k : String}
    (hagree : ∀ x ∈ xs, ∀ y ∈ xs, x.1 = y.1 → x.2 = y.2) :
    (k,v) ∈ (xs.foldl (fun r x => assignResource r x.1 x.2) r).resources ↔
      (k,v) ∈ xs ∨ k ∉ xs.map Prod.fst ∧ (k,v) ∈ r.resources := by
  induction xs generalizing r with
  | nil => simp
  | cons x xs ih =>
    have hrest : ∀ y ∈ xs, ∀ z ∈ xs, y.1 = z.1 → y.2 = z.2 := fun y hy z hz =>
      hagree y (List.mem_cons_of_mem _ hy) z (List.mem_cons_of_mem _ hz)
    -- A later assignment to the same pool writes the same amount.
    have hlater : ∀ y ∈ xs, y.1 = x.1 → y = x := fun y hy hpool =>
      Prod.ext hpool (hagree y (List.mem_cons_of_mem _ hy) x List.mem_cons_self hpool)
    rw [List.foldl_cons,ih hrest,mem_assignResource,List.mem_cons,List.map_cons,List.mem_cons,not_or]
    by_cases hk : k ∈ xs.map Prod.fst
    · obtain ⟨y,hy,rfl⟩ := List.mem_map.mp hk
      have hfirst : (y.1,v) = x → (y.1,v) ∈ xs := fun heq => by
        have hyx : y = x := hlater y hy (heq ▸ rfl)
        rwa [heq,← hyx]
      tauto
    · have hv : (k,v) ∉ xs := fun hmem => hk (List.mem_map_of_mem (f := Prod.fst) hmem)
      tauto

inductive AdmitError
  | failedPrecondition (message : String)
  | resourceExhausted (message : String)
  deriving DecidableEq, Repr

abbrev Observer := ℕ

/-- A command given to the dispatcher; the controller only sends `CAPACITY_RELEASED`. -/
inductive Command
  | capacityReleased (destination : Observer)
  deriving DecidableEq, Repr

structure PoolUsage where
  pool : String
  inUse : UInt64
  deriving DecidableEq, Repr

structure TypeUsage where
  taskType : String
  inFlight : UInt64
  deriving DecidableEq, Repr

structure NodeState where
  nodeId : String
  seq : UInt64
  timestamp : UInt64
  pools : List PoolUsage
  inFlight : UInt64
  typeUsage : List TypeUsage
  deriving DecidableEq, Repr

structure AdmissionController where
  poolTotal : Tally String := ∅
  poolReserved : Tally String := ∅
  poolInUse : Tally String := ∅
  typeConcurrency : Tally String := ∅
  typeInFlight : Tally String := ∅
  capacityObservers : List Observer := []
  submitted : List Command := []

namespace AdmissionController

/-- The constructor: a later pool or handler of the same name overwrites an earlier one, and
reservations of one pool add up. -/
def ofCapabilities (capabilities : NodeCapabilities) : AdmissionController where
  poolTotal := capabilities.pools.foldl (fun m p => m.insert p.name p.total) ∅
  poolReserved := capabilities.reservations.foldl (fun m r => Tally.add m r.pool r.amount) ∅
  typeConcurrency := capabilities.handlers.foldl (fun m h => m.insert h.taskType h.concurrency) ∅

def sharedFree (pool : String) (c : AdmissionController) : UInt64 :=
  match c.poolTotal[pool]? with
  | none => 0
  | some total =>
    let reserved := c.poolReserved.value pool
    let inUse := c.poolInUse.value pool
    if total > reserved+inUse then total-reserved-inUse else 0

def inFlight (taskType : String) (c : AdmissionController) : UInt64 :=
  c.typeInFlight.value taskType

def checkResources (taskType : String) (c : AdmissionController) :
    List (String × UInt64) → Except AdmitError Unit
  | [] => .ok ()
  | (pool,amount) :: rest =>
    if ¬c.poolTotal.contains pool then
      .error (.failedPrecondition
        ("Task type '" ++ taskType ++ "' requests undeclared pool '" ++ pool ++ "'"))
    else if amount > c.sharedFree pool then
      .error (.resourceExhausted ("Pool '" ++ pool ++ "' exhausted: shared free " ++
        toString (c.sharedFree pool) ++ ", required " ++ toString amount))
    else checkResources taskType c rest

def checkConcurrency (taskType : String) (c : AdmissionController) : Except AdmitError Unit :=
  match c.typeConcurrency[taskType]? with
  | none => .ok ()
  | some limit =>
    if limit ≠ 0 ∧ c.inFlight taskType ≥ limit then
      .error (.resourceExhausted
        ("Task type '" ++ taskType ++ "' at concurrency limit " ++ toString limit))
    else .ok ()

def admitTask (taskType : String) (requirements : ResourceRequirements) (c : AdmissionController) :
    Except AdmitError Unit × AdmissionController :=
  match c.checkResources taskType requirements.resources with
  | .error e => (.error e,c)
  | .ok () =>
    match c.checkConcurrency taskType with
    | .error e => (.error e,c)
    | .ok () => (.ok (),{ c with
        poolInUse := c.poolInUse.addAll requirements.resources
        typeInFlight := c.typeInFlight.add taskType 1 })

def notifyCapacityReleased (c : AdmissionController) : AdmissionController :=
  { c with submitted := c.submitted ++ c.capacityObservers.map .capacityReleased }

def release (taskType : String) (requirements : ResourceRequirements) (c : AdmissionController) :
    AdmissionController :=
  let c := { c with poolInUse := c.poolInUse.subAll requirements.resources }
  match c.typeInFlight[taskType]? with
  | none => c
  | some n =>
    if n = 0 then c
    else if n-1 = 0 then
      { c with typeInFlight := c.typeInFlight.erase taskType }.notifyCapacityReleased
    else { c with typeInFlight := c.typeInFlight.insert taskType (n-1) }.notifyCapacityReleased

def registerCapacityObserver (o : Observer) (c : AdmissionController) : AdmissionController :=
  { c with capacityObservers := c.capacityObservers ++ [o] }

def unregisterCapacityObserver (o : Observer) (c : AdmissionController) : AdmissionController :=
  { c with capacityObservers := c.capacityObservers.filter (· ≠ o) }

def buildStateSnapshot (nodeId : String) (seq now : UInt64) (c : AdmissionController) :
    NodeState where
  nodeId := nodeId
  seq := seq
  timestamp := now
  pools := c.poolTotal.toList.map (fun p => ⟨p.1,c.poolInUse.value p.1⟩)
  inFlight := c.typeInFlight.total
  typeUsage := c.typeInFlight.toList.map (fun t => ⟨t.1,t.2⟩)

end AdmissionController

structure AdmissionScope where
  taskType : String
  requirements : ResourceRequirements
  released : Bool := false

namespace AdmissionScope

def release (s : AdmissionScope) (c : AdmissionController) : AdmissionScope × AdmissionController :=
  if s.released then (s,c)
  else ({ s with released := true },c.release s.taskType s.requirements)

end AdmissionScope

abbrev Address := { a : UInt64 // a ≠ 0 }

structure Admissions where
  controller : AdmissionController
  scopes : AList (fun _ : Address => AdmissionScope) := ∅

inductive AdmissionEvent
  | admitTask (taskType : String) (requirements : ResourceRequirements) (address : Address)
  | release (address : Address)
  | destroy (address : Address)
  | registerObserver (o : Observer)
  | unregisterObserver (o : Observer)

namespace Admissions

def init (capabilities : NodeCapabilities) : Admissions :=
  { controller := .ofCapabilities capabilities }

/-- One call; `none` when it cannot be made: the address is in use, there is no such scope, or the
observer is registered already (an observer registers itself once, in its constructor). -/
def step (s : Admissions) : AdmissionEvent → Option Admissions
  | .admitTask taskType requirements address =>
    if address ∈ s.scopes then none
    else match s.controller.admitTask taskType requirements with
      | (.ok (),c) => some ⟨c,s.scopes.insert address ⟨taskType,requirements,false⟩⟩
      | (.error _,c) => some ⟨c,s.scopes⟩
  | .release address =>
    (s.scopes.lookup address).map fun scope =>
      let (scope,c) := scope.release s.controller
      ⟨c,s.scopes.insert address scope⟩
  | .destroy address =>
    (s.scopes.lookup address).map fun scope =>
      ⟨(scope.release s.controller).2,s.scopes.erase address⟩
  | .registerObserver o =>
    if o ∈ s.controller.capacityObservers then none
    else some { s with controller := s.controller.registerCapacityObserver o }
  | .unregisterObserver o =>
    some { s with controller := s.controller.unregisterCapacityObserver o }

def run (s : Admissions) (events : List AdmissionEvent) : Option Admissions :=
  events.foldlM step s

def live (s : Admissions) : List AdmissionScope :=
  (s.scopes.entries.map Sigma.snd).filter (fun scope => !scope.released)

end Admissions
end Strij.NodeAgent
