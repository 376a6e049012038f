import Strij.NodeAgent.AdmissionController

/-! The controller's books against the scopes that hold reservations. What a pool has in use is the
sum over the live scopes, and what a type has in flight is their number, both without overflow. -/
namespace Strij.NodeAgent
open Strij.Lib
variable {l₁ l₂ : List AdmissionScope}

def held (live : List AdmissionScope) (pool : String) : ℕ :=
  (live.map (fun s => (s.requirements.amount pool).toNat)).sum

def running (live : List AdmissionScope) (taskType : String) : ℕ :=
  (live.map AdmissionScope.taskType).count taskType

lemma held_cons (s : AdmissionScope) (live : List AdmissionScope) (pool : String) :
    held (s :: live) pool = (s.requirements.amount pool).toNat+held live pool := by
  simp [held]

lemma held_perm (h : l₁.Perm l₂) (pool : String) : held l₁ pool = held l₂ pool :=
  (h.map _).sum_eq

lemma running_cons (s : AdmissionScope) (live : List AdmissionScope) (taskType : String) :
    running (s :: live) taskType = running live taskType+(if s.taskType = taskType then 1 else 0) := by
  simp [running,List.count_cons]

lemma running_perm (h : l₁.Perm l₂) (taskType : String) : running l₁ taskType = running l₂ taskType :=
  (h.map _).count_eq taskType

lemma running_le_length (live : List AdmissionScope) (taskType : String) :
    running live taskType ≤ live.length := by
  have h := List.count_le_length (a := taskType) (l := live.map AdmissionScope.taskType)
  rwa [List.length_map] at h

namespace AdmissionController
variable {c : AdmissionController} {live : List AdmissionScope}
  {s : AdmissionScope} {r : ResourceRequirements} {l : List AdmissionScope}

/-- The pool side of the books. The bound leaves the reservations out of what may be in use, and
keeps `reserved+inUse` below the word size wherever it is computed with something in use. -/
structure PoolAccounts (c : AdmissionController) (live : List AdmissionScope) : Prop where
  inUse : ∀ pool, (c.poolInUse.value pool).toNat = held live pool
  bounded : ∀ pool, held live pool = 0 ∨
    (c.poolReserved.value pool).toNat+held live pool ≤ (c.poolTotal.value pool).toNat

structure TypeAccounts (c : AdmissionController) (live : List AdmissionScope) : Prop where
  inFlight : ∀ taskType, (c.typeInFlight.value taskType).toNat = running live taskType
  positive : ∀ (taskType : String) (n : UInt64), c.typeInFlight[taskType]? = some n → n ≠ 0
  bounded : ∀ (taskType : String) (limit : UInt64), c.typeConcurrency[taskType]? = some limit → limit ≠ 0 →
    running live taskType ≤ limit.toNat

lemma PoolAccounts.perm (h : c.PoolAccounts live) (hp : live.Perm l) : c.PoolAccounts l where
  inUse pool := by rw [h.inUse,held_perm hp]
  bounded pool := by rw [← held_perm hp]; exact h.bounded pool

lemma TypeAccounts.perm (h : c.TypeAccounts live) (hp : live.Perm l) : c.TypeAccounts l where
  inFlight taskType := by rw [h.inFlight,running_perm hp]
  positive := h.positive
  bounded taskType := by rw [← running_perm hp]; exact h.bounded taskType

lemma PoolAccounts.le_total (h : c.PoolAccounts live) (pool : String) :
    held live pool ≤ (c.poolTotal.value pool).toNat := by
  rcases h.bounded pool with h | h <;> omega

lemma PoolAccounts.sharedFree (h : c.PoolAccounts live) (pool : String) :
    (c.sharedFree pool).toNat = (c.poolTotal.value pool).toNat-
      ((c.poolReserved.value pool).toNat+held live pool) := by
  have hin := h.inUse pool
  have hsum : (c.poolReserved.value pool+c.poolInUse.value pool).toNat =
      (c.poolReserved.value pool).toNat+held live pool := by
    rw [UInt64.toNat_add,hin]
    apply Nat.mod_eq_of_lt
    have ht := (c.poolTotal.value pool).toNat_lt
    have hr := (c.poolReserved.value pool).toNat_lt
    rcases h.bounded pool with h | h <;> omega
  rw [AdmissionController.sharedFree]
  cases htotal : c.poolTotal[pool]? with
  | none => simp [Tally.value_of_none _ htotal]
  | some total =>
    rw [Tally.value_of_some _ htotal]
    simp only [gt_iff_lt,UInt64.lt_iff_toNat_lt,hsum]
    split
    · next hlt =>
      rw [UInt64.toNat_sub_of_le _ _ (UInt64.le_iff_toNat_le.mpr ?_),
        UInt64.toNat_sub_of_le _ _ (UInt64.le_iff_toNat_le.mpr ?_),hin]
      · omega
      · omega
      · rw [UInt64.toNat_sub_of_le _ _ (UInt64.le_iff_toNat_le.mpr (by omega)),hin]
        omega
    · next hge =>
      rw [Nat.sub_eq_zero_of_le (by omega)]
      rfl

lemma checkResources_le {taskType : String} {resources : List (String × UInt64)}
    (h : c.checkResources taskType resources = .ok ()) (pool : String) :
    Tally.amount resources pool ≤ c.sharedFree pool := by
  induction resources with
  | nil => exact UInt64.zero_le
  | cons x rest ih =>
    obtain ⟨name,amount⟩ := x
    rw [checkResources] at h
    split at h
    · cases h
    split at h
    · cases h
    · next hle =>
      rw [Tally.amount_cons]
      split
      · next heq =>
        simp only [heq]
        exact UInt64.not_lt.mp hle
      · exact ih h

lemma checkConcurrency_lt {taskType : String} {limit : UInt64}
    (h : c.checkConcurrency taskType = .ok ()) (hlimit : c.typeConcurrency[taskType]? = some limit)
    (hne : limit ≠ 0) : c.inFlight taskType < limit := by
  rw [checkConcurrency,hlimit] at h
  simp only at h
  split at h
  · cases h
  · next hno => exact UInt64.not_le.mp fun hle => hno ⟨hne,hle⟩

lemma admitTask_cases (c : AdmissionController) (taskType : String) (r : ResourceRequirements) :
    (∃ e, c.admitTask taskType r = (.error e,c)) ∨
      (c.checkResources taskType r.resources = .ok () ∧ c.checkConcurrency taskType = .ok () ∧
        c.admitTask taskType r = (.ok (),{ c with
          poolInUse := c.poolInUse.addAll r.resources
          typeInFlight := c.typeInFlight.add taskType 1 })) := by
  cases hr : c.checkResources taskType r.resources with
  | error e => exact .inl ⟨e,by simp only [admitTask,hr]⟩
  | ok u =>
    cases hc : c.checkConcurrency taskType with
    | error e => exact .inl ⟨e,by simp only [admitTask,hr,hc]⟩
    | ok v => exact .inr ⟨rfl,rfl,by simp only [admitTask,hr,hc]⟩

lemma PoolAccounts.admitTask {taskType : String} {c' : AdmissionController}
    (h : c.PoolAccounts live) (hadmitted : c.admitTask taskType r = (.ok (),c')) :
    c'.PoolAccounts (⟨taskType,r,false⟩ :: live) := by
  obtain ⟨e,he⟩ | ⟨hresources,-,hok⟩ := c.admitTask_cases taskType r
  · rw [he] at hadmitted
    cases hadmitted
  rw [hok] at hadmitted
  cases hadmitted
  have hfree : ∀ pool, (r.amount pool).toNat ≤ (c.poolTotal.value pool).toNat-
      ((c.poolReserved.value pool).toNat+held live pool) := by
    intro pool
    rw [← h.sharedFree]
    exact UInt64.le_iff_toNat_le.mp (checkResources_le hresources pool)
  have hle := h.le_total
  constructor
  · intro pool
    rw [held_cons,Tally.value_addAll _ r.nodup,UInt64.toNat_add,h.inUse,Nat.add_comm (held _ _)]
    apply Nat.mod_eq_of_lt
    have ht := (c.poolTotal.value pool).toNat_lt
    have hamount := hfree pool
    have hbound := hle pool
    change (r.amount pool).toNat+held live pool < 2^64
    omega
  · intro pool
    rw [held_cons]
    have hamount := hfree pool
    rcases h.bounded pool with hb | hb <;> simp only <;> omega

lemma TypeAccounts.admitTask {taskType : String} {c' : AdmissionController}
    (h : c.TypeAccounts live) (hlive : live.length+1 < 2^64)
    (hadmitted : c.admitTask taskType r = (.ok (),c')) : c'.TypeAccounts (⟨taskType,r,false⟩ :: live) := by
  obtain ⟨e,he⟩ | ⟨-,hconcurrency,hok⟩ := c.admitTask_cases taskType r
  · rw [he] at hadmitted
    cases hadmitted
  rw [hok] at hadmitted
  cases hadmitted
  have hvalue : ∀ t, ((c.typeInFlight.add taskType 1).value t).toNat =
      running (⟨taskType,r,false⟩ :: live) t := by
    intro t
    rw [running_cons,Tally.value_add]
    have hcount := running_le_length live t
    split
    · rw [UInt64.toNat_add,h.inFlight]
      exact Nat.mod_eq_of_lt (by simp only [UInt64.toNat_one]; omega)
    · rw [h.inFlight,Nat.add_zero]
  refine ⟨hvalue,?_,?_⟩
  · intro t n hn hzero
    by_cases heq : taskType = t
    · have hv := hvalue t
      rw [Tally.value_of_some _ hn,hzero,running_cons,if_pos heq] at hv
      simp at hv
    · simp only [Tally.add,Std.TreeMap.getElem?_insert,Std.compare_eq_iff_eq,if_neg heq] at hn
      exact h.positive t n hn hzero
  · intro t limit hlimit hne
    rw [running_cons]
    have hb := h.bounded t limit hlimit hne
    split
    · next heq =>
      simp only at heq
      subst heq
      have hlt := UInt64.lt_iff_toNat_lt.mp (checkConcurrency_lt hconcurrency hlimit hne)
      rw [AdmissionController.inFlight,h.inFlight] at hlt
      omega
    · exact hb

section Release
variable (c : AdmissionController) (taskType : String) (r : ResourceRequirements)

lemma release_pools : (c.release taskType r).poolInUse = c.poolInUse.subAll r.resources ∧
    (c.release taskType r).poolTotal = c.poolTotal ∧ (c.release taskType r).poolReserved = c.poolReserved ∧
    (c.release taskType r).typeConcurrency = c.typeConcurrency ∧
    (c.release taskType r).capacityObservers = c.capacityObservers := by
  unfold release
  simp only
  split
  · exact ⟨rfl,rfl,rfl,rfl,rfl⟩
  · split_ifs <;> exact ⟨rfl,rfl,rfl,rfl,rfl⟩

lemma release_counts {n : UInt64} (hn : c.typeInFlight[taskType]? = some n) (hpos : n ≠ 0) :
    (c.release taskType r).typeInFlight = c.typeInFlight.sub taskType 1 ∧ (c.release taskType r).submitted =
        c.submitted ++ c.capacityObservers.map .capacityReleased := by
  have hone : n-1 = 0 ↔ 1 ≥ n := by
    have h0 : n.toNat ≠ 0 := fun h => hpos (UInt64.toNat_inj.mp h)
    have hsub : (n-1).toNat = n.toNat-1 := UInt64.toNat_sub_of_le _ _
      (UInt64.le_iff_toNat_le.mpr (by simp only [UInt64.toNat_one]; omega))
    rw [ge_iff_le,UInt64.le_iff_toNat_le,UInt64.toNat_one,← UInt64.toNat_inj,hsub,UInt64.toNat_zero]
    omega
  unfold release
  simp only [hn,if_neg hpos,Tally.sub]
  split
  · next h => exact ⟨by rw [if_pos (hone.mp h)]; rfl,rfl⟩
  · next h => exact ⟨by rw [if_neg (fun hge => h (hone.mpr hge))]; rfl,rfl⟩

end Release

lemma PoolAccounts.release (h : c.PoolAccounts (s :: live)) :
    (c.release s.taskType s.requirements).PoolAccounts live := by
  obtain ⟨hin,htotal,hreserved,-,-⟩ := c.release_pools s.taskType s.requirements
  constructor
  · intro pool
    rw [hin,Tally.value_subAll _ s.requirements.nodup,h.inUse,held_cons]
    exact Nat.add_sub_cancel_left _ _
  · intro pool
    rw [htotal,hreserved]
    have hb := h.bounded pool
    rw [held_cons] at hb
    omega

lemma TypeAccounts.counted (h : c.TypeAccounts (s :: live)) :
    ∃ n, c.typeInFlight[s.taskType]? = some n ∧ n ≠ 0 := by
  cases hn : c.typeInFlight[s.taskType]? with
  | none =>
    have hv := h.inFlight s.taskType
    rw [Tally.value_of_none _ hn,running_cons,if_pos rfl] at hv
    simp at hv
  | some n => exact ⟨n,rfl,h.positive _ _ hn⟩

lemma TypeAccounts.release (h : c.TypeAccounts (s :: live)) :
    (c.release s.taskType s.requirements).TypeAccounts live := by
  obtain ⟨n,hn,hpos⟩ := h.counted
  obtain ⟨-,-,-,hconcurrency,-⟩ := c.release_pools s.taskType s.requirements
  obtain ⟨hcounts,-⟩ := c.release_counts s.taskType s.requirements hn hpos
  have hone : (1 : UInt64).toNat = 1 := rfl
  refine ⟨?_,?_,?_⟩
  · intro t
    have ht := h.inFlight t
    rw [running_cons] at ht
    rw [hcounts,Tally.value_sub,hone]
    split
    · next heq =>
      rw [if_pos heq] at ht
      omega
    · next hne =>
      rw [if_neg hne] at ht
      omega
  · intro t m hm hzero
    rw [hcounts,Tally.sub] at hm
    simp only [hn] at hm
    split at hm
    · rw [Std.TreeMap.getElem?_erase] at hm
      split at hm
      · cases hm
      · exact h.positive t m hm hzero
    · next hgt =>
      rw [Std.TreeMap.getElem?_insert] at hm
      split at hm
      · cases hm
        have hlt : (1 : UInt64) < n := UInt64.not_le.mp hgt
        have hsub := UInt64.toNat_sub_of_le n 1 (UInt64.le_of_lt hlt)
        rw [hzero,hone] at hsub
        have := UInt64.lt_iff_toNat_lt.mp hlt
        simp only [hone,UInt64.toNat_zero] at this hsub
        omega
      · exact h.positive t m hm hzero
  · intro t limit hlimit hne
    rw [hconcurrency] at hlimit
    have hb := h.bounded t limit hlimit hne
    rw [running_cons] at hb
    omega

section Capabilities
variable {capabilities : NodeCapabilities} {c' : AdmissionController} {taskType : String}
  {r : ResourceRequirements}

structure Offers (c : AdmissionController) (capabilities : NodeCapabilities) : Prop where
  poolTotal : c.poolTotal = (ofCapabilities capabilities).poolTotal
  poolReserved : c.poolReserved = (ofCapabilities capabilities).poolReserved
  typeConcurrency : c.typeConcurrency = (ofCapabilities capabilities).typeConcurrency

lemma PoolAccounts.start (capabilities : NodeCapabilities) : (ofCapabilities capabilities).PoolAccounts [] where
  inUse pool := by simp [ofCapabilities,held]
  bounded pool := .inl rfl

lemma TypeAccounts.start (capabilities : NodeCapabilities) : (ofCapabilities capabilities).TypeAccounts [] where
  inFlight taskType := by simp [ofCapabilities,running]
  positive taskType n hn := by simp [ofCapabilities] at hn
  bounded taskType limit _ _ := by simp [running]

lemma Offers.start : (ofCapabilities capabilities).Offers capabilities := ⟨rfl,rfl,rfl⟩

lemma Offers.admitTask (h : c.Offers capabilities) (ha : c.admitTask taskType r = (.ok (),c')) :
    c'.Offers capabilities := by
  rcases c.admitTask_cases taskType r with ⟨e,he⟩ | ⟨-,-,hok⟩
  · cases he.symm.trans ha
  · cases hok.symm.trans ha
    exact ⟨h.poolTotal,h.poolReserved,h.typeConcurrency⟩

lemma Offers.release (h : c.Offers capabilities) (scope : AdmissionScope) :
    (scope.release c).2.Offers capabilities := by
  rw [AdmissionScope.release]
  split
  · exact h
  · obtain ⟨-,htotal,hreserved,hconcurrency,-⟩ := release_pools c scope.taskType scope.requirements
    exact ⟨htotal.trans h.poolTotal,hreserved.trans h.poolReserved,hconcurrency.trans h.typeConcurrency⟩

lemma checkResources_mono {resources : List (String × UInt64)} (hpools : c'.poolTotal = c.poolTotal)
    (hfree : ∀ pool, c.sharedFree pool ≤ c'.sharedFree pool)
    (h : c.checkResources taskType resources = .ok ()) : c'.checkResources taskType resources = .ok () := by
  induction resources with
  | nil => rfl
  | cons x rest ih =>
    obtain ⟨pool,amount⟩ := x
    rw [checkResources] at h ⊢
    rw [hpools]
    split at h
    · cases h
    next hdeclared =>
    split at h
    · cases h
    next hle =>
    have hle' : ¬amount > c'.sharedFree pool := fun hlt => hle (UInt64.lt_of_le_of_lt (hfree pool) hlt)
    rw [if_neg hdeclared,if_neg hle']
    exact ih h

lemma checkConcurrency_mono (hlimits : c'.typeConcurrency = c.typeConcurrency)
    (hflight : c'.inFlight taskType ≤ c.inFlight taskType) (h : c.checkConcurrency taskType = .ok ()) :
    c'.checkConcurrency taskType = .ok () := by
  rw [checkConcurrency] at h ⊢
  rw [hlimits]
  split at h
  · rfl
  · split at h
    · cases h
    next hno => rw [if_neg fun hfull => hno ⟨hfull.1,UInt64.le_trans hfull.2 hflight⟩]

def Admits (c : AdmissionController) (taskType : String) (r : ResourceRequirements) : Prop :=
  (c.admitTask taskType r).1.isOk = true

instance : Decidable (c.Admits taskType r) := inferInstanceAs (Decidable (_ = true))

lemma admits_iff : c.Admits taskType r ↔
    c.checkResources taskType r.resources = .ok () ∧ c.checkConcurrency taskType = .ok () := by
  rw [Admits,admitTask]
  cases c.checkResources taskType r.resources with
  | error e => simp [Except.isOk,Except.toBool]
  | ok u =>
    cases c.checkConcurrency taskType with
    | error e => simp [Except.isOk,Except.toBool]
    | ok v => simp [Except.isOk,Except.toBool]

lemma Admits.admitTask (h : c.Admits taskType r) : ∃ c', c.admitTask taskType r = (.ok (),c') := by
  rw [Admits] at h
  cases hadmitted : c.admitTask taskType r with
  | mk answer c' =>
    rw [hadmitted] at h
    cases answer with
    | error e => cases h
    | ok u => exact ⟨c',rfl⟩

/-- What is admitted beside some tasks is admitted beside fewer. -/
lemma Offers.admits_mono {less : List AdmissionScope} (h : c.Offers capabilities)
    (h' : c'.Offers capabilities) (hpools : c.PoolAccounts live) (htypes : c.TypeAccounts live)
    (hpools' : c'.PoolAccounts less) (htypes' : c'.TypeAccounts less)
    (hless : ∀ pool, held less pool ≤ held live pool)
    (hfewer : ∀ taskType, running less taskType ≤ running live taskType) (hadmits : c.Admits taskType r) :
    c'.Admits taskType r := by
  have htotal := h'.poolTotal.trans h.poolTotal.symm
  have hreserved := h'.poolReserved.trans h.poolReserved.symm
  rw [admits_iff] at hadmits ⊢
  refine ⟨checkResources_mono htotal (fun pool => ?_) hadmits.1,
    checkConcurrency_mono (h'.typeConcurrency.trans h.typeConcurrency.symm) ?_ hadmits.2⟩
  · rw [UInt64.le_iff_toNat_le,hpools.sharedFree,hpools'.sharedFree,htotal,hreserved]
    have := hless pool
    omega
  · rw [UInt64.le_iff_toNat_le,inFlight,inFlight,htypes.inFlight,htypes'.inFlight]
    exact hfewer taskType

end Capabilities

end AdmissionController
end Strij.NodeAgent
