import Strij.Lib.FiniteMap
import Strij.NodeAgent.AdmissionAccounts

/-! Whole runs of the admission controller: the books are exact after every step, refusals change
nothing, and a scope notifies the observers on its first release only. -/
namespace Strij.NodeAgent
open Strij.Lib

namespace Admissions
variable {s : Admissions} {scope : AdmissionScope} {s' : Admissions}

structure Balanced (s : Admissions) : Prop where
  pools : s.controller.PoolAccounts s.live
  types : s.controller.TypeAccounts s.live
  observers : s.controller.capacityObservers.Nodup

lemma scopes_length (scopes : AList (fun _ : Address => AdmissionScope)) : scopes.entries.length < 2^64 := by
  have hkeys : scopes.entries.keys.Nodup := scopes.nodupKeys
  have hword : Fintype.card UInt64 ≤ Fintype.card (Fin (2^64)) :=
    Fintype.card_le_of_injective (fun a => (⟨a.toNat,a.toNat_lt⟩ : Fin (2^64)))
      fun a b h => UInt64.toNat_inj.mp (Fin.mk.inj h)
  calc scopes.entries.length = scopes.entries.keys.length := by simp [List.keys]
    _ ≤ Fintype.card Address := hkeys.length_le_card
    _ < Fintype.card UInt64 := Fintype.card_subtype_lt (x := 0) (by simp)
    _ ≤ 2^64 := by rwa [Fintype.card_fin] at hword

lemma live_length (s : Admissions) : s.live.length < 2^64 :=
  lt_of_le_of_lt ((List.length_filter_le _ _).trans_eq (List.length_map _)) (scopes_length s.scopes)

lemma live_insert (c : AdmissionController) {scopes : AList (fun _ : Address => AdmissionScope)}
    {a : Address} (scope : AdmissionScope) (hlive : scope.released = false) (h : a ∉ scopes) :
    live ⟨c,scopes.insert a scope⟩ = scope :: live ⟨c,scopes⟩ := by
  rw [live,AList.entries_insert_of_notMem h,List.map_cons,List.filter_cons_of_pos (by simp [hlive])]
  rfl

lemma live_perm {a : Address} (h : s.scopes.lookup a = some scope) :
    s.live.Perm ((if scope.released then [] else [scope]) ++ live ⟨s.controller,s.scopes.erase a⟩) := by
  have hperm := ((entries_perm_erase h).map Sigma.snd).filter (fun scope => !scope.released)
  cases hr : scope.released with
  | true => simpa [live,hr] using hperm
  | false => simpa [live,hr] using hperm

lemma live_replace {a : Address} (hr : scope.released = true) (c : AdmissionController) :
    live ⟨c,s.scopes.insert a scope⟩ = live ⟨c,s.scopes.erase a⟩ := by
  simp only [live,AList.entries_insert,List.map_cons]
  rw [List.filter_cons_of_neg (by simp [hr])]
  rfl

lemma Balanced.releaseScope (h : s.Balanced) {a : Address} (hs : s.scopes.lookup a = some scope) :
    Balanced ⟨(scope.release s.controller).2,s.scopes.erase a⟩ := by
  have hperm := live_perm hs
  have hpools := h.pools.perm hperm
  have htypes := h.types.perm hperm
  obtain ⟨-,-,-,-,hobservers⟩ := s.controller.release_pools scope.taskType scope.requirements
  cases hr : scope.released with
  | true =>
    simp only [hr,if_true,List.nil_append] at hpools htypes
    simp only [AdmissionScope.release,hr,if_true]
    exact ⟨hpools,htypes,h.observers⟩
  | false =>
    rw [hr] at hpools htypes
    simp only [AdmissionScope.release,hr,Bool.false_eq_true,if_false]
    exact ⟨hpools.release,htypes.release,by rw [hobservers]; exact h.observers⟩

lemma balanced_init (capabilities : NodeCapabilities) : (init capabilities).Balanced where
  pools := .start capabilities
  types := .start capabilities
  observers := List.nodup_nil

theorem Balanced.step (h : s.Balanced) {e : AdmissionEvent} (hstep : s.step e = some s') : s'.Balanced := by
  cases e with
  | admitTask taskType r a =>
    simp only [Admissions.step] at hstep
    split at hstep
    · cases hstep
    next ha =>
    obtain ⟨e,he⟩ | ⟨-,-,hok⟩ := s.controller.admitTask_cases taskType r
    · rw [he] at hstep
      cases hstep
      exact h
    · rw [hok] at hstep
      cases hstep
      have hlive := live_insert s.controller ⟨taskType,r,false⟩ rfl ha
      have hlen := live_length ⟨s.controller,s.scopes.insert a ⟨taskType,r,false⟩⟩
      rw [hlive,List.length_cons] at hlen
      refine ⟨?_,?_,h.observers⟩
      · exact (h.pools.admitTask hok).perm (by rw [live_insert _ _ rfl ha]; rfl)
      · exact (h.types.admitTask hlen hok).perm (by rw [live_insert _ _ rfl ha]; rfl)
  | release a =>
    obtain ⟨scope,hs,rfl⟩ := Option.map_eq_some_iff.mp hstep
    have hb := h.releaseScope hs
    have hreleased : (scope.release s.controller).1.released = true := by
      unfold AdmissionScope.release
      split <;> simp_all
    have hlive := live_replace (s := s) (a := a) hreleased (scope.release s.controller).2
    refine ⟨?_,?_,hb.observers⟩
    · rw [hlive]; exact hb.pools
    · rw [hlive]; exact hb.types
  | destroy a =>
    obtain ⟨scope,hs,rfl⟩ := Option.map_eq_some_iff.mp hstep
    exact h.releaseScope hs
  | registerObserver o =>
    simp only [Admissions.step] at hstep
    split at hstep
    · cases hstep
    next ho =>
    cases hstep
    refine ⟨⟨h.pools.inUse,h.pools.bounded⟩,⟨h.types.inFlight,h.types.positive,h.types.bounded⟩,?_⟩
    rw [AdmissionController.registerCapacityObserver,← List.concat_eq_append]
    exact h.observers.concat ho
  | unregisterObserver o =>
    cases hstep
    exact ⟨⟨h.pools.inUse,h.pools.bounded⟩,⟨h.types.inFlight,h.types.positive,h.types.bounded⟩,
      h.observers.filter _⟩

theorem Balanced.run {events : List AdmissionEvent} (h : s.Balanced)
    (hrun : s.run events = some s') : s'.Balanced := by
  induction events generalizing s with
  | nil =>
    cases hrun
    exact h
  | cons e events ih =>
    rw [Admissions.run,List.foldlM_cons] at hrun
    obtain ⟨t,ht,hrest⟩ := Option.bind_eq_some_iff.mp hrun
    exact ih (h.step ht) hrest

/-- The commands reach every registered observer exactly once, and nobody else. -/
def NotifiesOnce (observers : List Observer) (commands : List Command) : Prop :=
  ∀ o, commands.count (.capacityReleased o) = if o ∈ observers then 1 else 0

lemma notifiesOnce_map {observers : List Observer} (h : observers.Nodup) :
    NotifiesOnce observers (observers.map .capacityReleased) := by
  intro o
  rw [List.count_map_of_injective _ _ (fun a b hab => Command.capacityReleased.inj hab)]
  split
  · next ho => exact List.count_eq_one_of_mem h ho
  · next ho => exact List.count_eq_zero_of_not_mem ho

structure Reports (live : List AdmissionScope) (total : Tally String) (n : NodeState) : Prop where
  pools : n.pools.map PoolUsage.pool = total.toList.map Prod.fst
  inUse : ∀ u ∈ n.pools, u.inUse.toNat = held live u.pool
  inFlight : n.inFlight.toNat = live.length
  types : (n.typeUsage.map TypeUsage.taskType).Nodup
  listed : ∀ t, t ∈ n.typeUsage.map TypeUsage.taskType ↔ 0 < running live t
  counted : ∀ u ∈ n.typeUsage, u.inFlight.toNat = running live u.taskType

lemma Balanced.reports (h : s.Balanced) (nodeId : String) (seq now : UInt64) :
    Reports s.live s.controller.poolTotal (s.controller.buildStateSnapshot nodeId seq now) := by
  have hkeys : (s.controller.buildStateSnapshot nodeId seq now).typeUsage.map TypeUsage.taskType =
      s.controller.typeInFlight.toList.map Prod.fst := List.map_map
  constructor
  case pools => exact List.map_map
  case inUse =>
    intro u hu
    obtain ⟨p,-,rfl⟩ := List.mem_map.mp hu
    exact h.pools.inUse p.1
  case inFlight =>
    have hlen : (s.live.map AdmissionScope.taskType).length < 2^64 := by
      rw [List.length_map]
      exact live_length s
    have htotal := Tally.total_of_counts s.controller.typeInFlight _ hlen h.types.inFlight
    rwa [List.length_map] at htotal
  case types =>
    rw [hkeys]
    exact Tally.keys_nodup _
  case listed =>
    intro t
    rw [hkeys,← h.types.inFlight]
    constructor
    · intro ht
      obtain ⟨⟨t,n⟩,hmem,rfl⟩ := List.mem_map.mp ht
      rw [Tally.mem_toList_value _ hmem]
      have hpos := h.types.positive t n (Std.TreeMap.mem_toList_iff_getElem?_eq_some.mp hmem)
      exact Nat.pos_of_ne_zero fun h0 => hpos (UInt64.toNat_inj.mp h0)
    · intro hpos
      cases hn : s.controller.typeInFlight[t]? with
      | none => simp [Tally.value_of_none _ hn] at hpos
      | some n =>
        exact List.mem_map.mpr ⟨(t,n),Std.TreeMap.mem_toList_iff_getElem?_eq_some.mpr hn,rfl⟩
  case counted =>
    intro u hu
    obtain ⟨⟨t,n⟩,hmem,rfl⟩ := List.mem_map.mp hu
    rw [← h.types.inFlight,Tally.mem_toList_value _ hmem]

/-- A release in a balanced state notifies if and only if the scope is live. -/
lemma Balanced.notifies (h : s.Balanced) {a : Address} (hs : s.scopes.lookup a = some scope) :
    (scope.release s.controller).2.submitted = s.controller.submitted ++
      if scope.released then [] else s.controller.capacityObservers.map .capacityReleased := by
  have htypes := h.types.perm (live_perm hs)
  cases hr : scope.released with
  | true => simp [AdmissionScope.release,hr]
  | false =>
    rw [hr] at htypes
    obtain ⟨n,hn,hpos⟩ := htypes.counted
    obtain ⟨-,hsubmitted⟩ := s.controller.release_counts scope.taskType scope.requirements hn hpos
    simpa [AdmissionScope.release,hr] using hsubmitted

structure Exact (s : Admissions) : Prop where
  pools : ∀ pool, (s.controller.poolInUse.value pool).toNat = held s.live pool ∧
    held s.live pool ≤ (s.controller.poolTotal.value pool).toNat
  types : ∀ taskType, (s.controller.inFlight taskType).toNat = running s.live taskType ∧
    (s.controller.typeConcurrency.value taskType ≠ 0 →
      running s.live taskType ≤ (s.controller.typeConcurrency.value taskType).toNat)
  refused : ∀ taskType r e a, (s.controller.admitTask taskType r).1 = .error e → a ∉ s.scopes →
    s.step (.admitTask taskType r a) = some s
  notifies : ∀ a scope, s.scopes.lookup a = some scope →
    ∀ e ∈ [AdmissionEvent.release a,.destroy a], ∃ s' commands, s.step e = some s' ∧
      s'.controller.submitted = s.controller.submitted ++ commands ∧
      if scope.released then commands = []
      else NotifiesOnce s.controller.capacityObservers commands
  reports : ∀ nodeId seq now,
    Reports s.live s.controller.poolTotal (s.controller.buildStateSnapshot nodeId seq now)

/-- The controller's numbers are exact after every step of every run, for all capabilities. -/
theorem exact_of_run (capabilities : NodeCapabilities) (events : List AdmissionEvent)
    (s : Admissions) (hrun : (init capabilities).run events = some s) : s.Exact := by
  have h := (balanced_init capabilities).run hrun
  constructor
  case pools => exact fun pool => ⟨h.pools.inUse pool,h.pools.le_total pool⟩
  case types =>
    refine fun taskType => ⟨h.types.inFlight taskType,fun hne => ?_⟩
    cases hlimit : s.controller.typeConcurrency[taskType]? with
    | none => exact absurd (Tally.value_of_none _ hlimit) hne
    | some limit =>
      rw [Tally.value_of_some _ hlimit] at hne ⊢
      exact h.types.bounded taskType limit hlimit hne
  case refused =>
    intro taskType r e a herr ha
    obtain ⟨e',he⟩ | ⟨-,-,hok⟩ := s.controller.admitTask_cases taskType r
    · simp only [step,if_neg ha,he]
    · rw [hok] at herr
      cases herr
  case notifies =>
    intro a scope hs e he
    have hcommands := h.notifies hs
    have hstep : ∃ s', s.step e = some s' ∧ s'.controller = (scope.release s.controller).2 := by
      rcases List.mem_pair.mp he with rfl | rfl
      · exact ⟨_,by simp only [step,hs]; rfl,rfl⟩
      · exact ⟨_,by simp only [step,hs]; rfl,rfl⟩
    obtain ⟨s',hs',hc⟩ := hstep
    refine ⟨s',_,hs',by rw [hc]; exact hcommands,?_⟩
    split
    · rfl
    · exact notifiesOnce_map h.observers
  case reports => exact h.reports

def echoNode : NodeCapabilities := { pools := [⟨"cpu",4⟩], handlers := [⟨"echo",2⟩] }

/-- Two admissions of which the second is refused; the scope is released and then destroyed. -/
def echoEvents : List AdmissionEvent :=
  [.registerObserver 7,.admitTask "echo" ⟨[("cpu",3)],by simp⟩ ⟨16,by decide⟩,
    .admitTask "echo" ⟨[("cpu",3)],by simp⟩ ⟨32,by decide⟩,.release ⟨16,by decide⟩,
    .destroy ⟨16,by decide⟩]

theorem exact_of_run_released_twice : ∃ s, (init echoNode).run echoEvents = some s ∧ s.Exact := by
  have hrun : ((init echoNode).run echoEvents).isSome = true := by decide +kernel
  obtain ⟨s,hs⟩ := Option.isSome_iff_exists.mp hrun
  exact ⟨s,hs,exact_of_run _ _ s hs⟩

end Admissions
end Strij.NodeAgent
