import Strij.Lib.Runs
import Strij.NodeAgent.ProbeAccounts
import Strij.NodeAgent.Walk

/-! Which events of a node wake its probe scheduler. Every release of capacity submits a command for it, and so
does a dependency that arrives; a grant makes room under the dial and submits none. -/
namespace Strij.NodeAgent
open Strij.Lib Strij.Wire

inductive WakeUp
  | capacityReleased
  | depCompleted
  deriving DecidableEq, Repr

def WakeUp.command : WakeUp → CommandType
  | .capacityReleased => .capacityReleased
  | .depCompleted => .depCompleted

structure WakingNode where
  observer : Observer
  scheduler : ProbeLocalScheduler
  router : DataDependencyFetcherRouter
  pending : List WakeUp := []

inductive WakingNodeEvent
  | frame (frame : GatewayFrame) (mailbox : Mailbox)
  | finishTask (i : ℕ)
  | populate (ref : DataRef) (data : String)
  | process
  | admitOther (taskType : String) (requirements : ResourceRequirements)
  | releaseOther (i : ℕ)

namespace WakingNode

def start (capabilities : NodeCapabilities) (observers : List Observer) (observer : Observer) (handlers : String → Bool)
    (maxConcurrentPreallocations queueCapacity : ℕ) (sources : List String) : WakingNode where
  observer := observer
  scheduler := {
    admission := observers.foldl (fun c o => c.registerCapacityObserver o) (.ofCapabilities capabilities)
    handlers := handlers
    maxConcurrentPreallocations := maxConcurrentPreallocations
    queue := ⟨queueCapacity,[]⟩ }
  router := { bySource := sources }

/-- The commands for the scheduler among those that were submitted since. -/
def submitted (n : WakingNode) (c : AdmissionController) : List WakeUp :=
  ((c.submitted.drop n.scheduler.admission.submitted.length).filter (· = .capacityReleased n.observer)).map
    (fun _ => .capacityReleased)

def after (n : WakingNode) (s : ProbeLocalScheduler) : WakingNode :=
  { n with scheduler := s, pending := n.pending ++ n.submitted s.admission }

def step (n : WakingNode) : WakingNodeEvent → Option WakingNode
  | .frame frame mailbox => some (n.after (n.scheduler.handleFrame n.router.allCached frame mailbox).2.1)
  | .finishTask i => some (n.after (n.scheduler.finishTask i))
  | .populate ref data => some { n with
      router := { n.router with cache := n.router.cache.populate ref data }
      pending := n.pending ++ [.depCompleted] }
  | .process =>
    match n.pending with
    | [] => none
    | wakeUp :: rest =>
      some ({ n with pending := rest }.after (n.scheduler.processCommand n.router.allCached wakeUp.command).1)
  | .admitOther taskType requirements => some (n.after (n.scheduler.admitOther taskType requirements))
  | .releaseOther i => some (n.after (n.scheduler.releaseOther i))

end WakingNode

def Notified (observer : Observer) (c₀ c : AdmissionController) : Prop :=
  ∃ added, c.submitted = c₀.submitted ++ added ∧ Command.capacityReleased observer ∈ added

/-- The scopes that are alive are counted, and since the controller was `c₀` the observer was sent a command or
nothing has become admissible. -/
structure Ledger (observer : Observer) (c₀ : AdmissionController) (k : ℕ) (c : AdmissionController)
    (scopes : List AdmissionScope) : Prop where
  types : c.TypeAccounts scopes
  unreleased : ∀ scope ∈ scopes, scope.released = false
  room : scopes.length+k < 2^64
  observed : observer ∈ c.capacityObservers
  since : ∃ added, c.submitted = c₀.submitted ++ added ∧ (Command.capacityReleased observer ∈ added ∨ c₀.Tightens c)

namespace Ledger
variable {observer : Observer} {c₀ c c' : AdmissionController} {k : ℕ} {scopes l : List AdmissionScope}
  {scope : AdmissionScope} {taskType : String} {r : ResourceRequirements}

lemma tightens_of_quiet (h : Ledger observer c₀ k c scopes) (hquiet : ¬Notified observer c₀ c) : c₀.Tightens c := by
  obtain ⟨added,hadded,hmem | htightens⟩ := h.since
  · exact absurd ⟨added,hadded,hmem⟩ hquiet
  · exact htightens

lemma admitTask (h : Ledger observer c₀ (k+1) c scopes) (ha : c.admitTask taskType r = (.ok (),c')) :
    Ledger observer c₀ k c' (⟨taskType,r,false⟩ :: scopes) := by
  have hroom := h.room
  have htypes := h.types.admitTask (by omega) ha
  have htightens := AdmissionController.tightens_admitTask ha
  obtain ⟨added,hadded,hsince⟩ := h.since
  obtain ⟨e,he⟩ | ⟨-,-,hok⟩ := c.admitTask_cases taskType r
  · cases he.symm.trans ha
  · obtain rfl := (Prod.mk.inj (hok.symm.trans ha)).2
    refine ⟨htypes,List.forall_mem_cons.mpr ⟨rfl,h.unreleased⟩,?_,h.observed,added,hadded,?_⟩
    · rw [List.length_cons]
      omega
    · exact hsince.imp id fun hbefore => hbefore.trans htightens

lemma released (h : Ledger observer c₀ k c (scope :: scopes)) :
    Ledger observer c₀ k (scope.release c).2 scopes ∧ Notified observer c₀ (scope.release c).2 := by
  obtain ⟨hlive,hothers⟩ := List.forall_mem_cons.mp h.unreleased
  obtain ⟨n,hn,hpos⟩ := h.types.counted
  obtain ⟨-,-,-,-,hobservers⟩ := c.release_pools scope.taskType scope.requirements
  obtain ⟨-,hsubmitted⟩ := c.release_counts scope.taskType scope.requirements hn hpos
  obtain ⟨added,hadded,-⟩ := h.since
  have hroom := h.room
  rw [AdmissionScope.release,if_neg (by simp [hlive])]
  have hnotified : Notified observer c₀ (c.release scope.taskType scope.requirements) := by
    refine ⟨added ++ c.capacityObservers.map .capacityReleased,?_,?_⟩
    · rw [hsubmitted,hadded,List.append_assoc]
    · exact List.mem_append_right _ (List.mem_map_of_mem h.observed)
  obtain ⟨more,hmore,hmem⟩ := hnotified
  refine ⟨⟨h.types.release,hothers,?_,hobservers ▸ h.observed,more,hmore,.inl hmem⟩,more,hmore,hmem⟩
  rw [List.length_cons] at hroom
  omega

lemma accounting : Accounting (Ledger observer c₀) where
  perm h hp := ⟨h.types.perm hp,fun x hx => h.unreleased x (hp.mem_iff.mpr hx),hp.length_eq ▸ h.room,h.observed,h.since⟩
  skip h := ⟨h.types,h.unreleased,by have := h.room; omega,h.observed,h.since⟩
  admitTask h ha := h.admitTask ha
  release h := h.released.1

lemma notified_of (h : Ledger observer c' k c scopes) (hnotified : Notified observer c₀ c') : Notified observer c₀ c := by
  obtain ⟨added,hadded,hmem⟩ := hnotified
  obtain ⟨more,hmore,-⟩ := h.since
  exact ⟨added ++ more,by rw [hmore,hadded,List.append_assoc],List.mem_append_left _ hmem⟩

lemma notified_since (h : Ledger observer c₀ k c' scopes) (hnotified : Notified observer c' c) :
    Notified observer c₀ c := by
  obtain ⟨added,hadded,hmem⟩ := hnotified
  obtain ⟨before,hbefore,-⟩ := h.since
  exact ⟨before ++ added,by rw [hadded,hbefore,List.append_assoc],List.mem_append_right _ hmem⟩

lemma now (h : Ledger observer c₀ k c scopes) : Ledger observer c k c scopes :=
  ⟨h.types,h.unreleased,h.room,h.observed,[],by simp,.inr (.refl c)⟩

end Ledger

namespace ProbeLocalScheduler
variable {observer : Observer} {c₀ c : AdmissionController} {k : ℕ} {s : ProbeLocalScheduler} {cached : AllCached}
  {probe : TaskProbe}

lemma Blocked.tightens {t : ProbeLocalScheduler} (h : s.Blocked cached)
    (hdial : t.maxConcurrentPreallocations = s.maxConcurrentPreallocations)
    (hheld : s.pullPending.keys.length ≤ t.pullPending.keys.length)
    (hqueue : ∀ item ∈ t.queue.items, item ∈ s.queue.items ∨ Stuck (judge cached) t.admission item)
    (htightens : s.admission.Tightens t.admission) : t.Blocked cached := by
  refine h.imp (fun hfull => ?_) fun hstuck item hitem => ?_
  · omega
  · rcases hqueue item hitem with hbefore | hnew
    · have hitem := stuck_judge_iff.mp (hstuck item hbefore)
      exact stuck_judge_iff.mpr (hitem.imp id fun hrefused hadmits => hrefused (htightens _ _ hadmits))
    · exact hnew

lemma preallocate_notified (h : Ledger observer c₀ (k+1) s.admission s.scopes)
    (ha : s.admission.admitTask probe.type probe.requirements = (.ok (),c)) (mailbox : Mailbox)
    (hheld : probe.id ∈ s.pullPending) : Notified observer c₀ (s.preallocate c probe mailbox).1.admission := by
  obtain ⟨old,hold⟩ := Option.isSome_iff_exists.mp (AList.lookup_isSome.mpr hheld)
  obtain ⟨hbooks,hadmission⟩ := Ledger.accounting.preallocate_old h ha mailbox hold
  rw [hadmission]
  exact hbooks.released.2

lemma walkLoop_notified (items deferred : List QueuedProbe)
    (h : Ledger observer c₀ (items.length+k) s.admission s.scopes)
    (hstale : ¬(ids (greedyPass (judge cached) items s.room s.admission).taken ++ s.pullPending.keys).Nodup) :
    Notified observer c₀ (s.walkLoop cached items deferred).1.admission := by
  induction items generalizing deferred s with
  | nil => exact absurd s.pullPending.keys_nodup hstale
  | cons item rest ih =>
    rw [List.length_cons,Nat.add_right_comm] at h
    cases hroom : s.room with
    | zero =>
      rw [hroom,greedyPass_zero] at hstale
      exact absurd s.pullPending.keys_nodup hstale
    | succ n =>
      have hnot : ¬s.pullPending.keys.length ≥ s.maxConcurrentPreallocations := by
        rw [room] at hroom
        omega
      rw [hroom] at hstale
      rw [walkLoop,if_neg hnot]
      cases hcached : cached item.probe.deps with
      | false =>
        rw [greedyPass_keep (judge_uncached hcached),← hroom] at hstale
        exact ih (deferred ++ [item]) (Ledger.accounting.skip h) hstale
      | true =>
        cases hanswer : s.admission.admitTask item.probe.type item.probe.requirements with
        | mk answer c =>
          cases answer with
          | ok u =>
            have hnext := Ledger.accounting.preallocate h hanswer item.pullMailbox
            by_cases hid : item.probe.id ∈ s.pullPending
            · exact (Ledger.accounting.walkLoop rest deferred hnext.now).notified_of
                (preallocate_notified h hanswer item.pullMailbox hid)
            · rw [greedyPass_take (judge_admitted hcached hanswer)] at hstale
              refine ih (s := (s.preallocate c item.probe item.pullMailbox).1) deferred hnext ?_
              rw [preallocate_room hid hroom,preallocate_admission hid,preallocate_pullPending,
                keys_insert_of_not_mem hid]
              exact fun hfresh => hstale (List.perm_middle.nodup_iff.mp hfresh)
          | error e =>
            cases e with
            | failedPrecondition message =>
              rw [greedyPass_drop (judge_unsatisfiable hcached hanswer),← hroom] at hstale
              exact ih deferred (Ledger.accounting.skip h) hstale
            | resourceExhausted message =>
              rw [greedyPass_keep (judge_exhausted hcached hanswer),← hroom] at hstale
              exact ih (deferred ++ [item]) (Ledger.accounting.skip h) hstale

lemma walk_quiet (h : Ledger observer c₀ (s.queue.items.length+k) s.admission s.scopes)
    (hquiet : ¬Notified observer c₀ (s.walk cached).1.admission) : (s.walk cached).1.Blocked cached :=
  walk_blocked (by_contra fun hstale => hquiet (walkLoop_notified s.queue.items [] h hstale))

lemma handleProbe_quiet {mailbox : Mailbox}
    (h : Ledger observer s.admission (k+1) s.admission s.scopes) (hblocked : s.Blocked cached)
    (hquiet : ¬Notified observer s.admission (s.handleProbe cached probe mailbox).1.admission) :
    (s.handleProbe cached probe mailbox).1.Blocked cached := by
  rw [handleProbe] at hquiet ⊢
  rcases hanswer : s.admission.admitTask probe.type probe.requirements with ⟨(message | message) | u,c⟩
  · exact hblocked
  · cases hpush : s.queue.push ⟨probe,mailbox⟩ with
    | none => exact hblocked
    | some queue =>
      obtain ⟨-,rfl⟩ := BoundedQueue.push_eq_some _ hpush
      refine hblocked.tightens rfl le_rfl (fun item hitem => ?_) (.refl _)
      refine (List.mem_append.mp hitem).imp id fun hitem => ?_
      rw [List.mem_singleton.mp hitem,stuck_judge_iff,AdmissionController.Admits,hanswer]
      exact .inr (by simp [Except.isOk,Except.toBool])
  · rw [hanswer] at hquiet
    have hid : probe.id ∉ s.pullPending := fun hid => hquiet (preallocate_notified h hanswer mailbox hid)
    simp only [preallocate_of_not_mem hid]
    refine hblocked.tightens rfl ?_ (fun item hitem => .inl hitem) (AdmissionController.tightens_admitTask hanswer)
    change s.pullPending.keys.length ≤ (s.pullPending.insert probe.id _).keys.length
    rw [keys_insert_of_not_mem hid,List.length_cons]
    omega

lemma handleFrame_probe_quiet {mailbox : Mailbox}
    (h : Ledger observer s.admission (s.queue.items.length+(k+1)) s.admission s.scopes)
    (hquiet : ¬Notified observer s.admission (s.handleFrame cached (.probe probe) mailbox).2.1.admission) :
    (s.handleFrame cached (.probe probe) mailbox).2.1.Blocked cached := by
  have hwalked : Ledger observer s.admission (k+1) (s.walk cached).1.admission (s.walk cached).1.scopes :=
    Ledger.accounting.walk h
  have hprobed : Ledger observer (s.walk cached).1.admission k
      ((s.walk cached).1.handleProbe cached probe mailbox).1.admission
      ((s.walk cached).1.handleProbe cached probe mailbox).1.scopes :=
    Ledger.accounting.handleProbe probe mailbox hwalked.now
  refine handleProbe_quiet hwalked.now (walk_quiet h fun hnotified => ?_) fun hnotified => ?_
  · exact hquiet (hprobed.notified_of hnotified)
  · exact hquiet (hwalked.notified_since hnotified)

lemma handleCancel_quiet {id : String} (h : Ledger observer s.admission k s.admission s.scopes)
    (hblocked : s.Blocked cached) (hquiet : ¬Notified observer s.admission (s.handleCancel id).admission) :
    (s.handleCancel id).Blocked cached := by
  rw [handleCancel] at hquiet ⊢
  cases hlookup : s.pullPending.lookup id with
  | none =>
    refine hblocked.tightens rfl le_rfl (fun item hitem => .inl ?_) (.refl _)
    rcases BoundedQueue.mem_pushAll _ hitem with hitem | hitem
    · cases hitem
    · exact (List.mem_filter.mp hitem).1
  | some pending =>
    rw [hlookup] at hquiet
    exact absurd (Ledger.released (Ledger.accounting.perm h (scopes_of_lookup hlookup))).2 hquiet

lemma handleGrant_quiet {task : Task} (h : Ledger observer s.admission k s.admission s.scopes)
    (hblocked : s.Blocked cached) (hdial : task.id ∈ s.pullPending →
      s.pullPending.keys.length ≠ s.maxConcurrentPreallocations ∨ s.queue.items = [])
    (hquiet : ¬Notified observer s.admission (s.handleGrant task).1.admission) :
    (s.handleGrant task).1.Blocked cached := by
  rw [handleGrant] at hquiet ⊢
  cases hlookup : s.pullPending.lookup task.id with
  | none => exact hblocked
  | some pending =>
    rw [hlookup] at hquiet
    have hheld : task.id ∈ s.pullPending := AList.lookup_isSome.mp (by rw [hlookup]; rfl)
    have hlength : (s.pullPending.erase task.id).keys.length = s.pullPending.keys.length-1 := by
      rw [AList.keys_erase]
      exact List.length_erase_of_mem hheld
    cases hhandler : s.handlers task.type with
    | false =>
      simp only [runTask,hhandler,Bool.false_eq_true,if_false] at hquiet
      exact absurd (Ledger.released (Ledger.accounting.perm h (scopes_of_lookup hlookup))).2 hquiet
    | true =>
      simp only [runTask,hhandler,if_true]
      rcases hdial hheld with hdial | hempty
      · refine hblocked.imp (fun hfull => ?_) id
        change (s.pullPending.erase task.id).keys.length ≥ s.maxConcurrentPreallocations
        omega
      · refine .inr fun item hitem => ?_
        rw [hempty] at hitem
        cases hitem

end ProbeLocalScheduler

namespace WakingNode
variable {n t : WakingNode} {s : ProbeLocalScheduler} {e : WakingNodeEvent}

structure Awake (n : WakingNode) : Prop where
  types : n.scheduler.admission.TypeAccounts n.scheduler.scopes
  unreleased : ∀ scope ∈ n.scheduler.scopes, scope.released = false
  observed : n.observer ∈ n.scheduler.admission.capacityObservers
  blocked : n.pending = [] → n.scheduler.Blocked n.router.allCached

/-- The reservations and the queued probes of the node fit in its memory. -/
def Addressable (n : WakingNode) (_ : WakingNodeEvent) : Prop :=
  n.scheduler.scopes.length+(n.scheduler.queue.items.length+1) < 2^64

/-- A grant takes a held reservation only if that does not make room under the dial, or no probe is queued, or a
command waits. -/
def DialKept (n : WakingNode) : WakingNodeEvent → Prop
  | .frame (.grant task) _ => task.id ∈ n.scheduler.pullPending →
    n.scheduler.pullPending.keys.length ≠ n.scheduler.maxConcurrentPreallocations ∨
      n.scheduler.queue.items = [] ∨ n.pending ≠ []
  | _ => True

lemma Awake.ledger (h : n.Awake) (hroom : n.Addressable e) :
    Ledger n.observer n.scheduler.admission (n.scheduler.queue.items.length+1) n.scheduler.admission
      n.scheduler.scopes :=
  ⟨h.types,h.unreleased,hroom,h.observed,[],by simp,.inr (.refl _)⟩

/-- A scheduler that has notified itself has a command waiting; otherwise its queue has to be blocked. -/
lemma Awake.after (hbooks : Ledger n.observer n.scheduler.admission 0 s.admission s.scopes)
    (hquiet : ¬Notified n.observer n.scheduler.admission s.admission → n.pending = [] → s.Blocked n.router.allCached) :
    (n.after s).Awake := by
  refine ⟨hbooks.types,hbooks.unreleased,hbooks.observed,fun hnone => ?_⟩
  obtain ⟨hpending,hsubmitted⟩ := List.append_eq_nil_iff.mp hnone
  refine hquiet (fun ⟨added,hadded,hmem⟩ => ?_) hpending
  rw [submitted,hadded,List.drop_left,List.map_eq_nil_iff,List.filter_eq_nil_iff] at hsubmitted
  exact hsubmitted _ hmem (decide_eq_true rfl)

lemma Awake.frame (h : n.Awake) {frame : GatewayFrame} {mailbox : Mailbox}
    (hroom : n.Addressable (.frame frame mailbox)) (hdial : n.DialKept (.frame frame mailbox)) :
    (n.after (n.scheduler.handleFrame n.router.allCached frame mailbox).2.1).Awake := by
  have hbooks := h.ledger hroom
  refine Awake.after (Ledger.accounting.handleFrame frame mailbox hbooks) fun hquiet hpending => ?_
  have hblocked := h.blocked hpending
  cases frame with
  | submission task => exact hblocked
  | probe probe => exact ProbeLocalScheduler.handleFrame_probe_quiet hbooks hquiet
  | grant task =>
    refine ProbeLocalScheduler.handleGrant_quiet hbooks hblocked (fun hheld => ?_) hquiet
    exact (hdial hheld).imp id fun hqueue => hqueue.resolve_right (fun hwaits => hwaits hpending)
  | cancel id => exact ProbeLocalScheduler.handleCancel_quiet hbooks hblocked hquiet
  | malformed kind => exact hblocked
  | other typeId => exact hblocked

lemma Awake.elsewhere (h : n.Awake) (hbooks : Ledger n.observer n.scheduler.admission 0 s.admission s.scopes)
    (hdial : s.maxConcurrentPreallocations = n.scheduler.maxConcurrentPreallocations)
    (hheld : s.pullPending = n.scheduler.pullPending) (hqueue : s.queue = n.scheduler.queue) :
    (n.after s).Awake := by
  refine Awake.after hbooks fun hquiet hpending => (h.blocked hpending).tightens hdial (hheld ▸ le_rfl)
    (fun item hitem => .inl (hqueue ▸ hitem)) (hbooks.tightens_of_quiet hquiet)

lemma Awake.step (h : n.Awake) (hroom : n.Addressable e) (hdial : n.DialKept e)
    (hstep : n.step e = some t) : t.Awake := by
  have hbooks := h.ledger hroom
  have hnow := Ledger.accounting.skipAll (k := 0) _ hbooks
  cases e with
  | frame frame mailbox =>
    obtain rfl := Option.some.inj hstep
    exact h.frame hroom hdial
  | finishTask i =>
    obtain rfl := Option.some.inj hstep
    have hscheduler : (n.scheduler.finishTask i).maxConcurrentPreallocations = n.scheduler.maxConcurrentPreallocations ∧
        (n.scheduler.finishTask i).pullPending = n.scheduler.pullPending ∧
        (n.scheduler.finishTask i).queue = n.scheduler.queue := by
      rw [ProbeLocalScheduler.finishTask]
      split <;> exact ⟨rfl,rfl,rfl⟩
    exact h.elsewhere (Ledger.accounting.finishTask i hnow) hscheduler.1 hscheduler.2.1 hscheduler.2.2
  | populate ref data =>
    obtain rfl := Option.some.inj hstep
    exact ⟨h.types,h.unreleased,h.observed,fun hnone => by simp at hnone⟩
  | process =>
    cases hpending : n.pending with
    | nil => simp [WakingNode.step,hpending] at hstep
    | cons wakeUp rest =>
      simp only [WakingNode.step,hpending,Option.some.injEq] at hstep
      subst hstep
      have hwalk : n.scheduler.processCommand n.router.allCached wakeUp.command =
          n.scheduler.walk n.router.allCached := by cases wakeUp <;> rfl
      rw [hwalk]
      refine Awake.after (n := { n with pending := rest }) (Ledger.accounting.skip (Ledger.accounting.walk hbooks))
        fun hquiet _ => ?_
      exact ProbeLocalScheduler.walk_quiet hbooks hquiet
  | admitOther taskType r =>
    obtain rfl := Option.some.inj hstep
    have hscheduler : (n.scheduler.admitOther taskType r).maxConcurrentPreallocations =
          n.scheduler.maxConcurrentPreallocations ∧
        (n.scheduler.admitOther taskType r).pullPending = n.scheduler.pullPending ∧
        (n.scheduler.admitOther taskType r).queue = n.scheduler.queue := by
      rw [ProbeLocalScheduler.admitOther]
      split <;> exact ⟨rfl,rfl,rfl⟩
    exact h.elsewhere (Ledger.accounting.admitOther taskType r (Ledger.accounting.skipAll _ hbooks)) hscheduler.1
      hscheduler.2.1 hscheduler.2.2
  | releaseOther i =>
    obtain rfl := Option.some.inj hstep
    have hscheduler : (n.scheduler.releaseOther i).maxConcurrentPreallocations =
          n.scheduler.maxConcurrentPreallocations ∧
        (n.scheduler.releaseOther i).pullPending = n.scheduler.pullPending ∧
        (n.scheduler.releaseOther i).queue = n.scheduler.queue := by
      rw [ProbeLocalScheduler.releaseOther]
      split <;> exact ⟨rfl,rfl,rfl⟩
    exact h.elsewhere (Ledger.accounting.releaseOther i hnow) hscheduler.1 hscheduler.2.1 hscheduler.2.2

lemma registerAll (c : AdmissionController) (observers : List Observer) :
    observers.foldl (fun c o => c.registerCapacityObserver o) c =
      { c with capacityObservers := c.capacityObservers ++ observers } := by
  induction observers generalizing c with
  | nil => simp
  | cons o observers ih =>
    rw [List.foldl_cons,ih]
    simp [AdmissionController.registerCapacityObserver]

section Runs
variable (capabilities : NodeCapabilities) (observers : List Observer) (observer : Observer)
  (handlers : String → Bool) (dial capacity : ℕ) (sources : List String)

lemma Awake.start (hobserver : observer ∈ observers) :
    (start capabilities observers observer handlers dial capacity sources).Awake := by
  have htypes := AdmissionController.TypeAccounts.start capabilities
  refine ⟨?_,fun scope hscope => ?_,?_,fun _ => .inr fun item hitem => ?_⟩
  · simp only [WakingNode.start,registerAll]
    exact ⟨htypes.inFlight,htypes.positive,htypes.bounded⟩
  · cases hscope
  · simp only [WakingNode.start,registerAll]
    exact List.mem_append_right _ hobserver
  · cases hitem

/-- In every run of a node in which no grant makes room under the dial while probes are queued and no command waits,
a probe is queued only for a reason whenever no command waits for the scheduler. -/
theorem no_lost_wakeups (hobserver : observer ∈ observers) (events : List WakingNodeEvent) (n : WakingNode)
    (hrun : runAll step (start capabilities observers observer handlers dial capacity sources) events = some n)
    (hroom : Throughout step Addressable
      (start capabilities observers observer handlers dial capacity sources) events)
    (hdial : Throughout step DialKept (start capabilities observers observer handlers dial capacity sources) events)
    (hpending : n.pending = []) : ∀ item ∈ n.scheduler.queue.items,
      n.scheduler.pullPending.keys.length ≥ n.scheduler.maxConcurrentPreallocations ∨
        n.router.Missing item.probe.deps ∨
        ∃ e, (n.scheduler.admission.admitTask item.probe.type item.probe.requirements).1 = .error e := by
  have hawake : n.Awake := runAll_invariant (fun _ _ _ h ⟨hroom,hdial⟩ hstep => h.step hroom hdial hstep)
    (Awake.start capabilities observers observer handlers dial capacity sources hobserver) (hroom.and hdial) hrun
  intro item hitem
  exact (hawake.blocked hpending).reasons.imp id fun hreasons => hreasons item hitem

end Runs

instance (n : WakingNode) (e : WakingNodeEvent) : Decidable (n.Addressable e) := Nat.decLt _ _

instance (n : WakingNode) (e : WakingNodeEvent) : Decidable (n.DialKept e) :=
  match e with
  | .frame (.grant _) _ => inferInstanceAs (Decidable (_ → _))
  | .frame (.submission _) _ | .frame (.probe _) _ | .frame (.cancel _) _ | .frame (.malformed _) _
  | .frame (.other _) _ | .finishTask _ | .populate _ _ | .process | .admitOther _ _ | .releaseOther _ =>
    instDecidableTrue

def twoSlots : WakingNode :=
  start { handlers := [⟨"echo",2⟩] } [0,1] 1 (fun _ => true) 1 4 []

def echoProbe (id : String) : GatewayFrame := .probe ⟨id,"echo",⟨[],List.nodup_nil⟩,[]⟩

def echoGrant (id : String) : GatewayFrame := .grant ⟨id,"echo",⟨[],List.nodup_nil⟩,[]⟩

/-- Two probes are pulled and granted; a third one is queued until a task finishes. -/
def finishWakes : List WakingNodeEvent :=
  [.frame (echoProbe "a") 0,.frame (echoProbe "b") 0,.frame (echoGrant "a") 0,.frame (echoGrant "b") 0,
    .frame (echoProbe "c") 0,.finishTask 0,.process,.frame (echoProbe "d") 0]

theorem no_lost_wakeups_finishWakes : ∃ n, runAll step twoSlots finishWakes = some n ∧
      (n.pending = [] ∧ n.scheduler.pullPending.keys = ["c"] ∧ n.scheduler.queue.items.length = 1) ∧
      ∀ item ∈ n.scheduler.queue.items,
        n.scheduler.pullPending.keys.length ≥ n.scheduler.maxConcurrentPreallocations ∨
          n.router.Missing item.probe.deps ∨
          ∃ e, (n.scheduler.admission.admitTask item.probe.type item.probe.requirements).1 = .error e := by
  have hrun : (runAll step twoSlots finishWakes).any (fun n => n.pending = [] ∧
      n.scheduler.pullPending.keys = ["c"] ∧ n.scheduler.queue.items.length = 1) = true := by decide +kernel
  obtain ⟨n,hn,hplaces⟩ := (Option.any_eq_true _ _).mp hrun
  have hplaces := of_decide_eq_true hplaces
  exact ⟨n,hn,hplaces,no_lost_wakeups _ _ _ _ _ _ _ (by decide) finishWakes n hn (by decide +kernel)
    (by decide +kernel) hplaces.1⟩

/-- Both slots are held when a third probe comes. A cancel frees a slot, but the walk it causes stops at the dial;
the grant of the other one makes room under the dial, and nothing walks. -/
def grantStrands : List WakingNodeEvent :=
  [.frame (echoProbe "a") 0,.frame (echoProbe "b") 0,.frame (echoProbe "c") 0,.frame (.cancel "b") 0,.process,
    .frame (echoGrant "a") 0]

theorem queued_without_reason :
    ∃ n, runAll step twoSlots grantStrands = some n ∧ Throughout step Addressable twoSlots grantStrands ∧
      n.pending = [] ∧ ProbeLocalScheduler.ids n.scheduler.queue.items = ["c"] ∧
      ∀ item ∈ n.scheduler.queue.items,
        ¬(n.scheduler.pullPending.keys.length ≥ n.scheduler.maxConcurrentPreallocations ∨
          n.router.Missing item.probe.deps ∨
          ∃ e, (n.scheduler.admission.admitTask item.probe.type item.probe.requirements).1 = .error e) := by
  have hrun : (runAll step twoSlots grantStrands).any (fun n => n.pending = [] ∧
      ProbeLocalScheduler.ids n.scheduler.queue.items = ["c"] ∧
      n.scheduler.pullPending.keys.length < n.scheduler.maxConcurrentPreallocations ∧
      ∀ item ∈ n.scheduler.queue.items, n.router.allCached item.probe.deps = true ∧
        (n.scheduler.admission.admitTask item.probe.type item.probe.requirements).1.isOk = true) = true := by
    decide +kernel
  obtain ⟨n,hn,hstate⟩ := (Option.any_eq_true _ _).mp hrun
  obtain ⟨hpending,hids,hdial,hready⟩ := of_decide_eq_true hstate
  refine ⟨n,hn,by decide +kernel,hpending,hids,fun item hitem hreason => ?_⟩
  obtain ⟨hcached,hadmits⟩ := hready item hitem
  rcases hreason with hfull | hmissing | ⟨e,he⟩
  · omega
  · rw [n.router.allCached_eq_false.mpr hmissing] at hcached
    cases hcached
  · rw [he] at hadmits
    cases hadmits

end WakingNode
end Strij.NodeAgent
