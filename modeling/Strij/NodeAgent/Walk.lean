import Strij.Lib.GreedyPass
import Strij.NodeAgent.AdmissionAccounts
import Strij.NodeAgent.DataDependencies
import Strij.NodeAgent.ProbeLocalScheduler

/-! The walk over the queued probes is a greedy pass: `Admit` refuses after an admission what it refused
before, so what the walk has put aside cannot be taken when it returns. -/
namespace Strij.NodeAgent
open Strij.Lib Strij.Wire

namespace AdmissionController
variable {c c' : AdmissionController} {taskType : String} {r : ResourceRequirements}

def Tightens (c c' : AdmissionController) : Prop := ∀ taskType r, c'.Admits taskType r → c.Admits taskType r

lemma Tightens.refl (c : AdmissionController) : c.Tightens c := fun _ _ => id

lemma Tightens.trans {c'' : AdmissionController} (h : c.Tightens c') (h' : c'.Tightens c'') : c.Tightens c'' :=
  fun taskType r => h taskType r ∘ h' taskType r

lemma refuses_of_not_admits (h : ¬c.Admits taskType r) : ∃ e, (c.admitTask taskType r).1 = .error e := by
  rcases hanswer : c.admitTask taskType r with ⟨e | u,c'⟩
  · exact ⟨e,rfl⟩
  · exact absurd (by rw [Admits,hanswer]; rfl) h

lemma free_add_le {total reserved inUse amount : UInt64}
    (h : amount ≤ if total > reserved+inUse then total-reserved-inUse else 0) :
    (if total > reserved+(inUse+amount) then total-reserved-(inUse+amount) else 0) ≤
      if total > reserved+inUse then total-reserved-inUse else 0 := by
  have htotal := total.toNat_lt
  have hreserved := reserved.toNat_lt
  have hinUse := inUse.toNat_lt
  simp only [gt_iff_lt,UInt64.lt_iff_toNat_lt,UInt64.le_iff_toNat_le,UInt64.toNat_add] at h ⊢
  split at h
  · next hroom =>
    rw [if_pos hroom]
    split
    · simp only [UInt64.toNat_sub,UInt64.toNat_add] at *
      omega
    · exact Nat.zero_le _
  · next hfull =>
    have hzero : amount.toNat = 0 := Nat.le_zero.mp h
    rw [hzero,Nat.add_zero,Nat.mod_eq_of_lt hinUse,if_neg hfull,if_neg hfull]

lemma sharedFree_addAll_le (hresources : c.checkResources taskType r.resources = .ok ())
    (hinUse : c'.poolInUse = c.poolInUse.addAll r.resources) (hreserved : c'.poolReserved = c.poolReserved)
    (hpools : c'.poolTotal = c.poolTotal) (pool : String) : c'.sharedFree pool ≤ c.sharedFree pool := by
  have hamount := checkResources_le hresources pool
  cases htotal : c.poolTotal[pool]? with
  | none => simp only [sharedFree,hpools,htotal,UInt64.le_refl]
  | some total =>
    simp only [sharedFree,hinUse,hreserved,hpools,htotal,Tally.value_addAll _ r.nodup] at hamount ⊢
    exact free_add_le hamount

lemma tightens_admitTask (h : c.admitTask taskType r = (.ok (),c')) : c.Tightens c' := by
  rcases c.admitTask_cases taskType r with ⟨e,he⟩ | ⟨hresources,hconcurrency,hok⟩
  · cases he.symm.trans h
  have hc' := (Prod.mk.inj (hok.symm.trans h)).2
  have hfree (pool : String) : c'.sharedFree pool ≤ c.sharedFree pool :=
    sharedFree_addAll_le hresources (hc' ▸ rfl) (hc' ▸ rfl) (hc' ▸ rfl) pool
  intro otherType other hadmits
  obtain ⟨hpools,htypes⟩ := admits_iff.mp hadmits
  refine admits_iff.mpr ⟨checkResources_mono (c := c') (hc' ▸ rfl) hfree hpools,?_⟩
  by_cases htype : taskType = otherType
  · subst htype
    exact hconcurrency
  · have hflight : c'.inFlight otherType = c.inFlight otherType := by
      rw [← hc',inFlight,inFlight,Tally.value_add,if_neg htype]
    exact checkConcurrency_mono (c := c') (hc' ▸ rfl) (UInt64.le_of_eq hflight.symm) htypes

end AdmissionController

def pulls (effects : List NodeEffect) : List (Mailbox × String) :=
  effects.filterMap fun
    | .enqueue mailbox (.pull id) => some (mailbox,id)
    | _ => none

def declines (effects : List NodeEffect) : List (Mailbox × String × String) :=
  effects.filterMap fun
    | .enqueue mailbox (.decline id reason) => some (mailbox,id,reason)
    | _ => none

namespace ProbeLocalScheduler
variable (cached : AllCached) (s : ProbeLocalScheduler)
  {held : AList (fun _ : String => PullPending)} {probe : TaskProbe}

def judge (c : AdmissionController) (item : QueuedProbe) : Verdict AdmissionController :=
  if ¬cached item.probe.deps then .keep
  else match c.admitTask item.probe.type item.probe.requirements with
    | (.ok (),c) => .take c
    | (.error (.failedPrecondition _),_) => .drop
    | (.error (.resourceExhausted _),_) => .keep

def room : ℕ := s.maxConcurrentPreallocations-s.pullPending.keys.length

def pass : Pass AdmissionController QueuedProbe := greedyPass (judge cached) s.queue.items s.room s.admission

def holdAll (held : AList (fun _ : String => PullPending)) (items : List QueuedProbe) :
    AList (fun _ : String => PullPending) :=
  items.foldl (fun held item =>
    held.insert item.probe.id ⟨item.probe,⟨item.probe.type,item.probe.requirements,false⟩⟩) held

def ids (items : List QueuedProbe) : List String := items.map (·.probe.id)

variable {cached s} {item : QueuedProbe} {c : AdmissionController}

section Judge
variable {c' : AdmissionController} {message : String}

lemma judge_uncached (h : cached item.probe.deps = false) : judge cached c item = .keep := by
  simp [judge,h]

lemma judge_admitted (h : cached item.probe.deps = true)
    (hanswer : c.admitTask item.probe.type item.probe.requirements = (.ok (),c')) :
    judge cached c item = .take c' := by
  simp [judge,h,hanswer]

lemma judge_unsatisfiable (h : cached item.probe.deps = true)
    (hanswer : c.admitTask item.probe.type item.probe.requirements = (.error (.failedPrecondition message),c')) :
    judge cached c item = .drop := by
  simp [judge,h,hanswer]

lemma judge_exhausted (h : cached item.probe.deps = true)
    (hanswer : c.admitTask item.probe.type item.probe.requirements = (.error (.resourceExhausted message),c')) :
    judge cached c item = .keep := by
  simp [judge,h,hanswer]

end Judge

lemma stuck_judge_iff : Stuck (judge cached) c item ↔
    cached item.probe.deps = false ∨ ¬c.Admits item.probe.type item.probe.requirements := by
  rw [Stuck,AdmissionController.Admits]
  simp only [judge]
  cases hcached : cached item.probe.deps with
  | false => simp
  | true =>
    rcases hanswer : c.admitTask item.probe.type item.probe.requirements with ⟨e | u,c'⟩
    · cases e <;> simp [Except.isOk,Except.toBool]
    · simp [Except.isOk,Except.toBool]

lemma judge_stable (cached : AllCached) (c c' : AdmissionController) (item other : QueuedProbe) (h : Stuck (judge cached) c item)
    (htake : judge cached c other = .take c') : Stuck (judge cached) c' item := by
  have htightens : c.Tightens c' := by
    rw [judge] at htake
    split at htake
    · cases htake
    split at htake
    · next hanswer =>
      cases htake
      exact AdmissionController.tightens_admitTask hanswer
    · cases htake
    · cases htake
  rw [stuck_judge_iff] at h ⊢
  exact h.imp id fun hrefused hadmits => hrefused (htightens _ _ hadmits)

lemma preallocate_of_not_mem (h : probe.id ∉ s.pullPending) (c : AdmissionController) (mailbox : Mailbox) :
    s.preallocate c probe mailbox = ({ s with
        admission := c
        pullPending := s.pullPending.insert probe.id ⟨probe,⟨probe.type,probe.requirements,false⟩⟩ },
        [.enqueue mailbox (.pull probe.id)]) := by
  rw [preallocate,assignPullPending,AList.lookup_eq_none.mpr h]

lemma keys_insert_of_not_mem {id : String} (h : id ∉ held) (p : PullPending) :
    (held.insert id p).keys = id :: held.keys := by
  rw [AList.keys_insert,List.erase_of_not_mem h]

lemma preallocate_admission {mailbox : Mailbox} (h : probe.id ∉ s.pullPending) :
    (s.preallocate c probe mailbox).1.admission = c := by
  rw [preallocate_of_not_mem h]

lemma preallocate_room {mailbox : Mailbox} {n : ℕ} (h : probe.id ∉ s.pullPending)
    (hroom : s.room = n+1) : (s.preallocate c probe mailbox).1.room = n := by
  rw [room] at hroom
  rw [preallocate_of_not_mem h,room,keys_insert_of_not_mem h,List.length_cons]
  change s.maxConcurrentPreallocations-(s.pullPending.keys.length+1) = n
  omega

structure Walked (s : ProbeLocalScheduler) (p : Pass AdmissionController QueuedProbe) (deferred : List QueuedProbe)
    (r : ProbeLocalScheduler × List QueuedProbe × List NodeEffect) : Prop where
  scheduler : r.1 = { s with
    admission := p.state
    pullPending := holdAll s.pullPending p.taken
    queue := { s.queue with items := p.rest } }
  deferred : r.2.1 = deferred ++ p.kept
  pulled : pulls r.2.2 = p.taken.map (fun item => (item.pullMailbox,item.probe.id))
  declined : declines r.2.2 =
    p.dropped.map (fun item => (item.pullMailbox,item.probe.id,"requirements unsatisfiable"))

namespace Walked
variable {p : Pass AdmissionController QueuedProbe} {deferred : List QueuedProbe}
  {r : ProbeLocalScheduler × List QueuedProbe × List NodeEffect}

lemma keep (h : Walked s p (deferred ++ [item]) r) : Walked s { p with kept := item :: p.kept } deferred r where
  scheduler := h.scheduler
  deferred := by rw [h.deferred,List.append_assoc,List.singleton_append]
  pulled := h.pulled
  declined := h.declined

lemma drop (h : Walked s p deferred r) : Walked s { p with dropped := item :: p.dropped } deferred
    (r.1,r.2.1,sendDecline item.pullMailbox item.probe.id "requirements unsatisfiable" :: r.2.2) where
  scheduler := h.scheduler
  deferred := h.deferred
  pulled := h.pulled
  declined := congrArg ((item.pullMailbox,item.probe.id,"requirements unsatisfiable") :: ·) h.declined

lemma take (hid : item.probe.id ∉ s.pullPending)
    (h : Walked (s.preallocate c item.probe item.pullMailbox).1 p deferred r) :
    Walked s { p with taken := item :: p.taken } deferred
      (r.1,r.2.1,(s.preallocate c item.probe item.pullMailbox).2 ++ r.2.2) := by
  rw [preallocate_of_not_mem hid] at h ⊢
  exact ⟨h.scheduler,h.deferred,congrArg ((item.pullMailbox,item.probe.id) :: ·) h.pulled,h.declined⟩

end Walked

/-- If the ids of the probes it takes are new, the loop of the walk is the pass. -/
lemma walkLoop_walked (items deferred : List QueuedProbe)
    (hfresh : (ids (greedyPass (judge cached) items s.room s.admission).taken ++ s.pullPending.keys).Nodup) :
    Walked s (greedyPass (judge cached) items s.room s.admission) deferred (s.walkLoop cached items deferred) := by
  induction items generalizing s deferred with
  | nil => exact ⟨by simp [walkLoop,holdAll],by simp [walkLoop],by simp [walkLoop,pulls],by simp [walkLoop,declines]⟩
  | cons item rest ih =>
    cases hroom : s.room with
    | zero =>
      have hfull : s.pullPending.keys.length ≥ s.maxConcurrentPreallocations := Nat.sub_eq_zero_iff_le.mp hroom
      rw [walkLoop,if_pos hfull,greedyPass_zero]
      exact ⟨by simp [holdAll],by simp,by simp [pulls],by simp [declines]⟩
    | succ n =>
      have hnot : ¬s.pullPending.keys.length ≥ s.maxConcurrentPreallocations := by
        rw [room] at hroom
        omega
      rw [hroom] at hfresh
      rw [walkLoop,if_neg hnot]
      cases hcached : cached item.probe.deps with
      | false =>
        rw [greedyPass_keep (judge_uncached hcached),← hroom] at hfresh ⊢
        exact (ih (deferred ++ [item]) hfresh).keep
      | true =>
        cases hanswer : s.admission.admitTask item.probe.type item.probe.requirements with
        | mk answer c =>
          cases answer with
          | ok u =>
            rw [greedyPass_take (judge_admitted hcached hanswer)] at hfresh ⊢
            have hid : item.probe.id ∉ s.pullPending := fun hmem =>
              (List.nodup_cons.mp hfresh).1 (List.mem_append_right _ hmem)
            have hnext := ih (s := (s.preallocate c item.probe item.pullMailbox).1) deferred
            rw [preallocate_room hid hroom,preallocate_admission hid] at hnext
            refine (hnext ?_).take hid
            rw [preallocate_pullPending,keys_insert_of_not_mem hid]
            exact List.perm_middle.nodup_iff.mpr hfresh
          | error e =>
            cases e with
            | failedPrecondition message =>
              rw [greedyPass_drop (judge_unsatisfiable hcached hanswer),← hroom] at hfresh ⊢
              exact (ih deferred hfresh).drop
            | resourceExhausted message =>
              rw [greedyPass_keep (judge_exhausted hcached hanswer),← hroom] at hfresh ⊢
              exact (ih (deferred ++ [item]) hfresh).keep

structure Distinct (s : ProbeLocalScheduler) : Prop where
  nodup : (ids s.queue.items ++ s.pullPending.keys).Nodup
  bounded : s.queue.items.length ≤ s.queue.maxSize

lemma Distinct.fresh (h : s.Distinct) (cached : AllCached) : (ids (s.pass cached).taken ++ s.pullPending.keys).Nodup := by
  have hperm := (greedyPass_perm (judge cached) s.queue.items s.room s.admission).map (·.probe.id)
  have hall := (hperm.append_right s.pullPending.keys).nodup_iff.mpr h.nodup
  exact hall.sublist (((List.sublist_append_left _ _).map _).append_right _)

lemma Distinct.walk_eq (h : s.Distinct) (cached : AllCached) : (s.walk cached).1 = { s with
      admission := (s.pass cached).state
      pullPending := holdAll s.pullPending (s.pass cached).taken
      queue := { s.queue with items := (s.pass cached).rest ++ (s.pass cached).kept } } ∧
    pulls (s.walk cached).2 = (s.pass cached).taken.map (fun item => (item.pullMailbox,item.probe.id)) ∧
    declines (s.walk cached).2 = (s.pass cached).dropped.map
      (fun item => (item.pullMailbox,item.probe.id,"requirements unsatisfiable")) := by
  obtain ⟨hscheduler,hdeferred,hpulled,hdeclined⟩ := walkLoop_walked s.queue.items [] (h.fresh cached)
  refine ⟨?_,hpulled,hdeclined⟩
  have hlength := (greedyPass_perm (judge cached) s.queue.items s.room s.admission).length_eq
  simp only [List.length_append] at hlength
  have hpush : BoundedQueue.pushAll { s.queue with items := (s.pass cached).rest } (s.pass cached).kept = _ :=
    BoundedQueue.pushAll_of_room _ (by have := h.bounded; simp only [pass]; omega)
  change { (s.walkLoop cached s.queue.items []).1 with
    queue := (s.walkLoop cached s.queue.items []).1.queue.pushAll (s.walkLoop cached s.queue.items []).2.1 } = _
  rw [hdeferred,hscheduler,List.nil_append]
  exact congrArg (fun queue => { s with
    admission := (s.pass cached).state
    pullPending := holdAll s.pullPending (s.pass cached).taken
    queue := queue }) hpush

lemma keys_holdAll {items : List QueuedProbe}
    (h : (ids items ++ held.keys).Nodup) : (holdAll held items).keys = (ids items).reverse ++ held.keys := by
  induction items generalizing held with
  | nil => rfl
  | cons item items ih =>
    have hid : item.probe.id ∉ held := fun hmem => (List.nodup_cons.mp h).1 (List.mem_append_right _ hmem)
    have hkeys := keys_insert_of_not_mem hid ⟨item.probe,⟨item.probe.type,item.probe.requirements,false⟩⟩
    rw [holdAll,List.foldl_cons,← holdAll,ih (hkeys ▸ List.perm_middle.nodup_iff.mpr h),hkeys]
    simp [ids]

/-- The dial stops a walk, or there is a reason for every probe that is queued. -/
def Blocked (cached : AllCached) (s : ProbeLocalScheduler) : Prop :=
  s.pullPending.keys.length ≥ s.maxConcurrentPreallocations ∨
    ∀ item ∈ s.queue.items, Stuck (judge cached) s.admission item

lemma walk_blocked (hfresh : (ids (s.pass cached).taken ++ s.pullPending.keys).Nodup) :
    (s.walk cached).1.Blocked cached := by
  obtain ⟨hscheduler,hdeferred,-,-⟩ := walkLoop_walked s.queue.items [] hfresh
  change ProbeLocalScheduler.Blocked cached { (s.walkLoop cached s.queue.items []).1 with
    queue := (s.walkLoop cached s.queue.items []).1.queue.pushAll (s.walkLoop cached s.queue.items []).2.1 }
  rw [hdeferred,hscheduler]
  rcases greedyPass_maximal (judge_stable cached) s.queue.items s.room s.admission with
    hlength | ⟨hrest,hkept⟩
  · refine .inl ?_
    change (holdAll s.pullPending (s.pass cached).taken).keys.length ≥ s.maxConcurrentPreallocations
    rw [keys_holdAll hfresh,List.length_append,List.length_reverse,ids,List.length_map,pass,hlength,room]
    omega
  · refine .inr fun item hitem => hkept item ?_
    rcases BoundedQueue.mem_pushAll _ hitem with hitem | hitem
    · exact absurd (hrest ▸ hitem) List.not_mem_nil
    · exact hitem

lemma Blocked.reasons {router : DataDependencyFetcherRouter} (h : s.Blocked router.allCached) :
    s.pullPending.keys.length ≥ s.maxConcurrentPreallocations ∨ ∀ item ∈ s.queue.items,
      router.Missing item.probe.deps ∨
        ∃ e, (s.admission.admitTask item.probe.type item.probe.requirements).1 = .error e := by
  refine h.imp id fun hstuck item hitem => ?_
  rcases stuck_judge_iff.mp (hstuck item hitem) with hmissing | hrefused
  · exact .inl (router.allCached_eq_false.mp hmissing)
  · exact .inr (AdmissionController.refuses_of_not_admits hrefused)

/-- When a walk returns, the dial is reached or no queued probe is ready. It has pulled the probes that
the oldest-first pass takes until the dial stops it, declined those that `Admit` refuses for good in that
pass, and keeps the others. -/
theorem walk_maximal (router : DataDependencyFetcherRouter) (h : s.Distinct) (t : ProbeLocalScheduler)
    (effects : List NodeEffect) (hwalk : s.walk router.allCached = (t,effects)) :
    (t.pullPending.keys.length ≥ t.maxConcurrentPreallocations ∨ ∀ item ∈ t.queue.items,
      router.Missing item.probe.deps ∨
        ∃ e, (t.admission.admitTask item.probe.type item.probe.requirements).1 = .error e) ∧
    t.pullPending.keys = (ids (s.pass router.allCached).taken).reverse ++ s.pullPending.keys ∧
    pulls effects = (s.pass router.allCached).taken.map (fun item => (item.pullMailbox,item.probe.id)) ∧
    declines effects = (s.pass router.allCached).dropped.map
      (fun item => (item.pullMailbox,item.probe.id,"requirements unsatisfiable")) ∧
    t.queue.items.Perm ((s.pass router.allCached).kept ++ (s.pass router.allCached).rest) ∧
    t.admission = (s.pass router.allCached).state := by
  have hblocked := walk_blocked (h.fresh router.allCached)
  obtain ⟨hscheduler,hpulled,hdeclined⟩ := h.walk_eq router.allCached
  rw [hwalk] at hscheduler hpulled hdeclined hblocked
  have hkeys := keys_holdAll (h.fresh router.allCached)
  simp only at hscheduler
  subst hscheduler
  exact ⟨hblocked.reasons,hkeys,hpulled,hdeclined,List.perm_append_comm,rfl⟩

def s3Router : DataDependencyFetcherRouter := { bySource := ["s3"] }

/-- Three probes wait for a pool of two: the first for its data, and the second one takes the pool. -/
def threeWaiting : ProbeLocalScheduler where
  admission := .ofCapabilities { pools := [⟨"gpu",2⟩] }
  handlers _ := true
  maxConcurrentPreallocations := 4
  queue := ⟨4,[⟨⟨"a","echo",⟨[("gpu",1)],List.nodup_singleton "gpu"⟩,[⟨"s3","x",""⟩]⟩,0⟩,
    ⟨⟨"b","echo",⟨[("gpu",2)],List.nodup_singleton "gpu"⟩,[⟨"gs","y",""⟩]⟩,0⟩,
    ⟨⟨"c","echo",⟨[("gpu",1)],List.nodup_singleton "gpu"⟩,[]⟩,1⟩]⟩

theorem walk_maximal_threeWaiting : pulls (threeWaiting.walk s3Router.allCached).2 = [(0,"b")] ∧
    let t := (threeWaiting.walk s3Router.allCached).1
    t.pullPending.keys.length ≥ t.maxConcurrentPreallocations ∨ ∀ item ∈ t.queue.items,
      s3Router.Missing item.probe.deps ∨
        ∃ e, (t.admission.admitTask item.probe.type item.probe.requirements).1 = .error e := by
  have hdistinct : threeWaiting.Distinct := ⟨by decide +kernel,by decide +kernel⟩
  exact ⟨by decide +kernel,(walk_maximal s3Router hdistinct (threeWaiting.walk s3Router.allCached).1
    (threeWaiting.walk s3Router.allCached).2 rfl).1⟩

section Readiness

lemma mem_pulls_walkLoop {x : Mailbox × String} (items deferred : List QueuedProbe)
    (h : x ∈ pulls (s.walkLoop cached items deferred).2.2) : ∃ item ∈ items, cached item.probe.deps = true ∧
      item.pullMailbox = x.1 ∧ item.probe.id = x.2 := by
  induction items generalizing deferred s with
  | nil => cases h
  | cons item rest ih =>
    have hlater {s : ProbeLocalScheduler} (deferred : List QueuedProbe)
        (h : x ∈ pulls (s.walkLoop cached rest deferred).2.2) : ∃ item' ∈ item :: rest,
          cached item'.probe.deps = true ∧ item'.pullMailbox = x.1 ∧ item'.probe.id = x.2 := by
      obtain ⟨item',hitem',hready⟩ := ih deferred h
      exact ⟨item',List.mem_cons_of_mem _ hitem',hready⟩
    rw [walkLoop] at h
    split at h
    · cases h
    split at h
    · exact hlater _ h
    next hcached =>
    split at h
    · rcases List.mem_cons.mp (show x ∈ (item.pullMailbox,item.probe.id) :: pulls _ from h) with rfl | h
      · exact ⟨item,List.mem_cons_self,by simpa using hcached,rfl,rfl⟩
      · exact hlater _ h
    · exact hlater _ h
    · exact hlater _ h

def oneWaiting (ref : DataRef) : ProbeLocalScheduler where
  admission := .ofCapabilities {}
  handlers _ := true
  maxConcurrentPreallocations := 1
  queue := ⟨1,[⟨⟨"t","echo",⟨[],List.nodup_nil⟩,[ref]⟩,0⟩]⟩

end Readiness

end ProbeLocalScheduler
end Strij.NodeAgent
