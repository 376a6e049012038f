import Strij.Probe.System

/-! What each operation of a node means for one task: its operations are steps of the task's
conversation. -/
namespace Strij.Probe
open Strij.Lib Strij.NodeAgent Strij.Wire Relation

section Answers
variable (id : String)

@[simp] lemma enqueued_append (a b : List NodeEffect) :
    enqueued (a ++ b) = enqueued a ++ enqueued b := List.filterMap_append

@[simp] lemma answers_nil : answers id [] = [] := rfl

@[simp] lemma answers_append (a b : List NodeEffect) :
    answers id (a ++ b) = answers id a ++ answers id b := by
  simp [answers]

lemma answers_pull (mailbox : Mailbox) (i : String) :
    answers id [.enqueue mailbox (.pull i)] = if i = id then [.pull] else [] := by
  by_cases h : i = id <;> simp [answers,enqueued,upOf,h]

lemma answers_decline (mailbox : Mailbox) (i reason : String) :
    answers id [ProbeLocalScheduler.sendDecline mailbox i reason] = if i = id then [.decline] else [] := by
  by_cases h : i = id <;> simp [answers,enqueued,upOf,ProbeLocalScheduler.sendDecline,h]

@[simp] lemma queuedIn_nil : queuedIn id [] = 0 := rfl

@[simp] lemma queuedIn_append (a b : List QueuedProbe) :
    queuedIn id (a ++ b) = queuedIn id a+queuedIn id b := List.countP_append

lemma queuedIn_cons (item : QueuedProbe) (items : List QueuedProbe) :
    queuedIn id (item :: items) = queuedIn id items+(if item.probe.id = id then 1 else 0) := by
  simp [queuedIn,List.countP_cons]

end Answers

/-- The conversation with a new state of the node's queue and reservation, and new answers. -/
def Conversation.hold (c : Conversation) (queued : ℕ) (held : Bool) (new : List Up) : Conversation :=
  { c with queued := queued, held := held, up := c.up ++ new, replied := c.replied ++ new }

lemma Conversation.hold_self {c : Conversation} {q : ℕ} {h : Bool} (hq : c.queued = q)
    (hh : c.held = h) : c.hold q h [] = c := by
  subst hq hh
  simp [hold]

lemma Conversation.hold_hold (c : Conversation) (q q' : ℕ) (h h' : Bool) (u u' : List Up) :
    (c.hold q h u).hold q' h' u' = c.hold q' h' (u ++ u') := by
  simp [hold]

/-- The conversation after the node did something: the messages on their way down are not touched. -/
def Conversation.after (c : Conversation) (id : String) (s : ProbeLocalScheduler)
    (effects : List NodeEffect) : Conversation :=
  { c.hold (queuedIn id s.queue.items) (heldBy id s) (answers id effects) with
    consumed := c.consumed+effects.countP (isRun id)
    stray := c.stray+effects.countP (isStray id) }

structure Conversation.Shows (c : Conversation) (id : String) (s : ProbeLocalScheduler) : Prop where
  queued : c.queued = queuedIn id s.queue.items
  held : c.held = heldBy id s

section After
variable {c : Conversation} {id : String} {s : ProbeLocalScheduler}

lemma Conversation.after_shows (effects : List NodeEffect) : (c.after id s effects).Shows id s :=
  ⟨rfl,rfl⟩

lemma Conversation.after_after (c : Conversation) (id : String) (s t : ProbeLocalScheduler)
    (a b : List NodeEffect) : (c.after id s a).after id t b = c.after id t (a ++ b) := by
  simp [Conversation.after,Conversation.hold,Nat.add_assoc]

end After

namespace Node
variable {s : ProbeLocalScheduler}
  {c : Conversation} {r : ProbeLocalScheduler × List QueuedProbe × List NodeEffect} {rest : List Down}
  {id : String}

def Room (s : ProbeLocalScheduler) : Prop := s.queue.items.length ≤ s.queue.maxSize

section Preallocate
variable (c : AdmissionController) (probe : TaskProbe) (mailbox : Mailbox) (id : String)

lemma heldBy_preallocate :
    heldBy id (s.preallocate c probe mailbox).1 = (decide (probe.id = id) || heldBy id s) := by
  rw [heldBy,ProbeLocalScheduler.preallocate_pullPending]
  by_cases h : id = probe.id
  · subst h
    simp
  · rw [AList.lookup_insert_ne h]
    simp [heldBy,Ne.symm h]

end Preallocate

structure Walking (c : Conversation) (id : String) (items : List QueuedProbe)
    (s : ProbeLocalScheduler) : Prop where
  queued : c.queued = queuedIn id items
  held : c.held = heldBy id s

structure Walked (c : Conversation) (id : String) (size : ℕ) (s : ProbeLocalScheduler)
    (r : ProbeLocalScheduler × List QueuedProbe × List NodeEffect) : Prop where
  steps : ReflTransGen Conversation.Step c
    (c.hold (queuedIn id (r.1.queue.items ++ r.2.1)) (heldBy id r.1) (answers id r.2.2))
  size : r.1.queue.items.length+r.2.1.length ≤ size
  capacity : r.1.queue.maxSize = s.queue.maxSize
  enqueues : r.2.2.countP (isRun id) = 0 ∧ r.2.2.countP (isStray id) = 0

lemma Walking.stop {items deferred : List QueuedProbe}
    (h : Walking c id (items ++ deferred) s) : Walked c id (items.length+deferred.length) s
      ({ s with queue := { s.queue with items := items } },deferred,[]) where
  steps := by
    change ReflTransGen Conversation.Step c
      (c.hold (queuedIn id (items ++ deferred)) (heldBy id s) [])
    rw [Conversation.hold_self h.queued h.held]
  size := le_rfl
  capacity := rfl
  enqueues := ⟨rfl,rfl⟩

lemma Walked.taken {size q : ℕ} {h : Bool} {u : List Up} {t : ProbeLocalScheduler}
    (hr : Walked (c.hold q h u) id size t r) (hc : ReflTransGen Conversation.Step c (c.hold q h u))
    (hcapacity : t.queue.maxSize = s.queue.maxSize) {e : NodeEffect} (he : answers id [e] = u)
    (hrun : isRun id e = false) (hstray : isStray id e = false) :
    Walked c id (size+1) s (r.1,r.2.1,e :: r.2.2) where
  steps := by
    have hsteps := hc.trans hr.steps
    rw [Conversation.hold_hold,← he,← answers_append] at hsteps
    exact hsteps
  size := hr.size.trans (Nat.le_succ _)
  capacity := hr.capacity.trans hcapacity
  enqueues := by simp [hrun,hstray,hr.enqueues]

lemma Walked.deferred {rest deferred : List QueuedProbe} {item : QueuedProbe}
    (hr : Walked c id (rest.length+(deferred ++ [item]).length) s r) :
    Walked c id ((item :: rest).length+deferred.length) s r :=
  { hr with size := hr.size.trans (by simp only [List.length_append,List.length_cons,List.length_nil]; omega) }

theorem walkLoop_walked (cached : AllCached) (id : String) (items deferred : List QueuedProbe)
    (h : Walking c id (items ++ deferred) s) :
    Walked c id (items.length+deferred.length) s (s.walkLoop cached items deferred) := by
  induction items generalizing deferred s c with
  | nil => exact h.stop
  | cons item rest ih =>
    have hdefer : Walking c id (rest ++ (deferred ++ [item])) s := by
      refine ⟨?_,h.held⟩
      rw [h.queued]
      simp only [List.cons_append,queuedIn_cons,queuedIn_append,queuedIn_nil]
      omega
    have hsize : (item :: rest).length+deferred.length = rest.length+deferred.length+1 := by
      rw [List.length_cons]
      omega
    have hcount : c.queued =
        queuedIn id (rest ++ deferred)+(if item.probe.id = id then 1 else 0) := by
      rw [h.queued,List.cons_append,queuedIn_cons]
    rw [ProbeLocalScheduler.walkLoop]
    split
    · exact h.stop
    split
    · exact (ih _ hdefer).deferred
    split
    · next ctrl _ =>
      -- the item is admitted: a pull if it is for `id`, nothing otherwise
      have hq := ProbeLocalScheduler.preallocate_queue (s := s) ctrl item.probe item.pullMailbox
      have hh := heldBy_preallocate (s := s) ctrl item.probe item.pullMailbox id
      have he := answers_pull id item.pullMailbox item.probe.id
      rw [hsize]
      refine Walked.taken (u := if item.probe.id = id then [.pull] else [])
        (ih deferred (c := c.hold (queuedIn id (rest ++ deferred))
          (heldBy id (s.preallocate ctrl item.probe item.pullMailbox).1) _) ⟨rfl,rfl⟩)
        ?_ (by rw [hq]) he rfl rfl
      rw [hh]
      by_cases hid : item.probe.id = id
      · simp only [hid,if_true,decide_true,Bool.true_or] at hcount ⊢
        exact .single (.walkPull hcount)
      · simp only [hid,if_false,decide_false,Bool.false_or,Nat.add_zero] at hcount ⊢
        rw [Conversation.hold_self hcount h.held]
    · have he := answers_decline id item.pullMailbox item.probe.id "requirements unsatisfiable"
      rw [hsize]
      refine Walked.taken (u := if item.probe.id = id then [.decline] else [])
        (ih deferred (c := c.hold (queuedIn id (rest ++ deferred)) (heldBy id s) _) ⟨rfl,rfl⟩)
        ?_ rfl he rfl rfl
      by_cases hid : item.probe.id = id
      · simp only [hid,if_true] at hcount ⊢
        rw [← h.held]
        exact .single (.walkDecline hcount)
      · simp only [hid,if_false,Nat.add_zero] at hcount ⊢
        rw [Conversation.hold_self hcount h.held]
    · exact (ih _ hdefer).deferred

theorem walk_sim (cached : AllCached) (hs : Room s) (h : c.Shows id s) :
    ReflTransGen Conversation.Step c (c.after id (s.walk cached).1 (s.walk cached).2) ∧
      Room (s.walk cached).1 := by
  have hw := walkLoop_walked cached id s.queue.items []
    (c := c) ⟨by rw [List.append_nil,h.queued],h.held⟩
  rw [ProbeLocalScheduler.walk]
  generalize s.walkLoop cached s.queue.items [] = r at hw ⊢
  obtain ⟨t,deferred,effects⟩ := r
  have hroom : t.queue.items.length+deferred.length ≤ t.queue.maxSize := by
    have hsize := hw.size
    have hcapacity := hw.capacity
    simp only [Room,List.length_nil,Nat.add_zero] at hs hsize hcapacity
    omega
  simp only [BoundedQueue.pushAll_of_room _ hroom]
  refine ⟨?_,by simpa [Room] using hroom⟩
  have hsteps := hw.steps
  have heq : c.hold (queuedIn id (t.queue.items ++ deferred)) (heldBy id t) (answers id effects) =
      c.after id { t with queue := { t.queue with items := t.queue.items ++ deferred } } effects := by
    obtain ⟨hrun,hstray⟩ := hw.enqueues
    simp only at hrun hstray
    rw [Conversation.after,hrun,hstray]
    rfl
  exact heq ▸ hsteps

/-- The three answers to a probe: hold and pull, decline, or keep it in the queue. -/
inductive ProbeAnswer (probe : TaskProbe) (mailbox : Mailbox) (id : String)
    (s t : ProbeLocalScheduler) (effects : List NodeEffect) : Prop
  | pull (hq : t.queue = s.queue) (hh : heldBy id t = (decide (probe.id = id) || heldBy id s))
      (ha : answers id effects = if probe.id = id then [.pull] else [])
  | decline (ht : t = s) (ha : answers id effects = if probe.id = id then [.decline] else [])
  | queue (hq : t.queue.items = s.queue.items ++ [⟨probe,mailbox⟩]) (hh : heldBy id t = heldBy id s)
      (hroom : Room t) (ha : answers id effects = [])

lemma answers_startPrefetch (cached : AllCached) (probe : TaskProbe) (id : String) :
    answers id (ProbeLocalScheduler.startPrefetch cached probe) = [] ∧
      (ProbeLocalScheduler.startPrefetch cached probe).countP (isRun id) = 0 ∧
      (ProbeLocalScheduler.startPrefetch cached probe).countP (isStray id) = 0 := by
  rw [ProbeLocalScheduler.startPrefetch]
  split <;> exact ⟨rfl,rfl,rfl⟩

lemma handleProbe_answer (cached : AllCached) (probe : TaskProbe) (mailbox : Mailbox) (id : String) :
    ProbeAnswer probe mailbox id s (s.handleProbe cached probe mailbox).1
        (s.handleProbe cached probe mailbox).2 ∧
      (s.handleProbe cached probe mailbox).2.countP (isRun id) = 0 ∧
      (s.handleProbe cached probe mailbox).2.countP (isStray id) = 0 := by
  obtain ⟨hp,hrun,hstray⟩ := answers_startPrefetch cached probe id
  rw [ProbeLocalScheduler.handleProbe]
  split
  · next ctrl _ =>
    refine ⟨.pull (ProbeLocalScheduler.preallocate_queue ctrl probe mailbox) (heldBy_preallocate ctrl probe mailbox id)
      ?_,?_,?_⟩
    · simp only [ProbeLocalScheduler.preallocate_effects,answers_append,hp,List.append_nil,answers_pull]
    · simp only [ProbeLocalScheduler.preallocate_effects,List.countP_append,hrun]
      rfl
    · simp only [ProbeLocalScheduler.preallocate_effects,List.countP_append,hstray]
      rfl
  · exact ⟨.decline rfl (answers_decline id mailbox probe.id _),rfl,rfl⟩
  · split
    · exact ⟨.decline rfl (answers_decline id mailbox probe.id _),rfl,rfl⟩
    · next queue hpush =>
      rw [BoundedQueue.push] at hpush
      split at hpush
      · cases hpush
      next hfull =>
      cases hpush
      refine ⟨.queue rfl rfl ?_ hp,hrun,hstray⟩
      simpa [BoundedQueue.full,Room,Nat.succ_le_iff] using hfull

lemma after_unrelated {t : ProbeLocalScheduler} {effects : List NodeEffect} (h : c.Shows id s)
    (hq : queuedIn id t.queue.items = queuedIn id s.queue.items) (hh : heldBy id t = heldBy id s)
    (ha : answers id effects = []) (hrun : effects.countP (isRun id) = 0)
    (hstray : effects.countP (isStray id) = 0) : ReflTransGen Conversation.Step c (c.after id t effects) := by
  rw [Conversation.after,ha,hrun,hstray,hq,hh,Conversation.hold_self h.queued h.held]
  exact .refl

theorem handleProbe_sim (cached : AllCached) (hs : Room s)
    (h : c.Shows id s) (probe : TaskProbe) (mailbox : Mailbox)
    (hdown : c.down = (downOf id (.probe probe)).toList ++ rest) :
    ReflTransGen Conversation.Step c ({ c with down := rest }.after id
      (s.handleProbe cached probe mailbox).1 (s.handleProbe cached probe mailbox).2) ∧
      Room (s.handleProbe cached probe mailbox).1 := by
  obtain ⟨hanswer,hrun,hstray⟩ := handleProbe_answer (s := s) cached probe mailbox id
  generalize s.handleProbe cached probe mailbox = r at hanswer hrun hstray ⊢
  obtain ⟨t,effects⟩ := r
  simp only at hanswer hrun hstray ⊢
  have hroom : Room t := by
    cases hanswer with
    | pull hq => rwa [Room,hq]
    | decline ht => rwa [ht]
    | queue _ _ hroom => exact hroom
  refine ⟨?_,hroom⟩
  by_cases hid : probe.id = id
  · have hdown : c.down = .probe :: rest := by simpa [downOf,hid] using hdown
    rw [Conversation.after,hrun,hstray]
    cases hanswer with
    | pull hq hh ha =>
      rw [ha,hh,hq,← h.queued,if_pos hid,decide_eq_true hid,Bool.true_or]
      exact .single (.probeHeld hdown)
    | decline ht ha =>
      rw [ht,ha,if_pos hid,← h.queued,← h.held]
      exact .single (.probeDeclined hdown)
    | queue hq hh _ ha =>
      rw [ha,hh,hq,queuedIn_append,← h.queued,← h.held,queuedIn_cons,if_pos hid]
      have hstep := Conversation.Step.probeQueued hdown
      simpa [Conversation.hold] using ReflTransGen.single hstep
  · have hdown : c.down = rest := by simpa [downOf,hid] using hdown
    subst hdown
    cases hanswer with
    | pull hq hh ha =>
      exact after_unrelated h (by rw [hq]) (by simpa [hid] using hh) (by simpa [hid] using ha)
        hrun hstray
    | decline ht ha =>
      exact after_unrelated h (by rw [ht]) (by rw [ht]) (by simpa [hid] using ha) hrun hstray
    | queue hq hh _ ha =>
      exact after_unrelated h (by simp [hq,queuedIn_cons,hid]) hh ha hrun hstray

section RunTask
variable (task : Task) (scope : AdmissionScope) (id : String)

lemma runTask_spec : (s.runTask task scope).1.queue = s.queue ∧
    (s.runTask task scope).1.pullPending = s.pullPending ∧ answers id (s.runTask task scope).2 = [] ∧
    (s.runTask task scope).2.countP (isRun id) = (if task.id = id then 1 else 0) ∧
    (s.runTask task scope).2.countP (isStray id) = 0 := by
  rw [ProbeLocalScheduler.runTask]
  by_cases hid : task.id = id <;> split <;>
    exact ⟨rfl,rfl,rfl,by simp [isRun,hid],rfl⟩

end RunTask

lemma heldBy_erase (id i : String) (s : ProbeLocalScheduler) :
    heldBy id { s with pullPending := s.pullPending.erase i } =
      if i = id then false else heldBy id s := by
  by_cases h : i = id
  · simp [heldBy,h]
  · simp [heldBy,h,AList.lookup_erase_ne (Ne.symm h)]

theorem handleGrant_sim (hs : Room s) (h : c.Shows id s)
    (task : Task) (hdown : c.down = (downOf id (.grant task)).toList ++ rest) :
    ReflTransGen Conversation.Step c ({ c with down := rest }.after id
      (s.handleGrant task).1 (s.handleGrant task).2) ∧ Room (s.handleGrant task).1 := by
  rw [ProbeLocalScheduler.handleGrant]
  cases hheld : s.pullPending.lookup task.id with
  | none =>
    refine ⟨?_,hs⟩
    by_cases hid : task.id = id
    · have hdown : c.down = .grant :: rest := by simpa [downOf,hid] using hdown
      have hno : heldBy id s = false := by
        rw [heldBy,← hid,hheld]
        rfl
      have hstep := Conversation.Step.stray hdown (h.held.trans hno)
      have heq : ({ c with down := rest } : Conversation).after id s [.strayGrant task.id] =
          { c with down := rest, stray := c.stray+1 } := by
        rw [Conversation.after,← h.queued,← h.held]
        simp [Conversation.hold,answers,enqueued,isRun,isStray,hid]
      rw [heq]
      exact .single hstep
    · have hdown : c.down = rest := by simpa [downOf,hid] using hdown
      subst hdown
      exact after_unrelated h rfl rfl rfl (by simp [isRun]) (by simp [isStray,hid])
  | some pending =>
    obtain ⟨hq,hp,ha,hrun,hstray⟩ := runTask_spec
      (s := { s with pullPending := s.pullPending.erase task.id }) task pending.scope id
    have hh := heldBy_erase id task.id s
    rw [heldBy,← hp,← heldBy] at hh
    simp only
    generalize ProbeLocalScheduler.runTask task pending.scope
      { s with pullPending := s.pullPending.erase task.id } = r at hq hp ha hrun hstray hh ⊢
    refine ⟨?_,by simpa only [Room,hq] using hs⟩
    by_cases hid : task.id = id
    · have hdown : c.down = .grant :: rest := by simpa [downOf,hid] using hdown
      have hyes : heldBy id s = true := by
        rw [heldBy,← hid,hheld]
        rfl
      have hstep := Conversation.Step.run hdown (h.held.trans hyes)
      simp only [Conversation.after,hq,hh,ha,hrun,hstray,hid,if_true,← h.queued]
      simpa [Conversation.hold] using ReflTransGen.single hstep
    · have hdown : c.down = rest := by simpa [downOf,hid] using hdown
      subst hdown
      exact after_unrelated h (by rw [hq]) (by rw [hh,if_neg hid]) ha (by rw [hrun,if_neg hid])
        hstray

lemma removeQueued_spec (hs : Room s) (i : String) :
    (s.removeQueued i).queue.items = s.queue.items.filter (fun item => item.probe.id ≠ i) ∧
      Room (s.removeQueued i) := by
  have hlen := (List.length_filter_le (fun item : QueuedProbe => item.probe.id ≠ i)
    s.queue.items).trans hs
  simp only [ProbeLocalScheduler.removeQueued]
  rw [BoundedQueue.pushAll_of_room _ (by simpa using hlen)]
  exact ⟨rfl,by simpa [Room] using hlen⟩

lemma queuedIn_removed (id i : String) (items : List QueuedProbe) :
    queuedIn id (items.filter (fun item => item.probe.id ≠ i)) = if i = id then 0 else queuedIn id items := by
  induction items with
  | nil => simp
  | cons item items ih =>
    by_cases hi : item.probe.id = i
    · rw [List.filter_cons_of_neg (by simpa using hi),ih,queuedIn_cons]
      by_cases hid : i = id
      · simp [hid]
      · simp [hid,hi]
    · rw [List.filter_cons_of_pos (by simpa using hi),queuedIn_cons,ih,queuedIn_cons]
      by_cases hid : i = id
      · subst hid
        simp [hi]
      · simp [hid]

theorem handleCancel_sim (hs : Room s) (h : c.Shows id s)
    (i : String) (hdown : c.down = (downOf id (.cancel i)).toList ++ rest) :
    ReflTransGen Conversation.Step c ({ c with down := rest }.after id (s.handleCancel i) []) ∧
      Room (s.handleCancel i) := by
  have hspec : queuedIn id (s.handleCancel i).queue.items =
      (if i = id then 0 else queuedIn id s.queue.items) ∧
      heldBy id (s.handleCancel i) = (if i = id then false else heldBy id s) ∧
      Room (s.handleCancel i) := by
    rw [ProbeLocalScheduler.handleCancel]
    cases hheld : s.pullPending.lookup i with
    | none =>
      obtain ⟨hq,hroom⟩ := removeQueued_spec hs i
      refine ⟨by rw [hq,queuedIn_removed],?_,hroom⟩
      by_cases hid : i = id
      · subst hid
        simp [heldBy,ProbeLocalScheduler.removeQueued,hheld]
      · simp [heldBy,ProbeLocalScheduler.removeQueued,hid]
    | some pending =>
      obtain ⟨hq,hroom⟩ := removeQueued_spec (s := { s with
        pullPending := s.pullPending.erase i
        admission := (pending.scope.release s.admission).2 }) hs i
      exact ⟨by rw [hq,queuedIn_removed],heldBy_erase id i s,hroom⟩
  obtain ⟨hq,hh,hroom⟩ := hspec
  refine ⟨?_,hroom⟩
  by_cases hid : i = id
  · have hdown : c.down = .cancel :: rest := by simpa [downOf,hid] using hdown
    have hstep := Conversation.Step.cancel hdown
    rw [if_pos hid] at hq hh
    simp only [Conversation.after,hq,hh,answers_nil]
    simpa [Conversation.hold] using ReflTransGen.single hstep
  · have hdown : c.down = rest := by simpa [downOf,hid] using hdown
    subst hdown
    exact after_unrelated h (by rw [hq,if_neg hid]) (by rw [hh,if_neg hid]) (answers_nil id) rfl rfl

theorem handleFrame_sim (cached : AllCached) (hs : Room s)
    (h : c.Shows id s) (frame : GatewayFrame) (mailbox : Mailbox)
    (hdown : c.down = (downOf id frame).toList ++ rest) :
    ReflTransGen Conversation.Step c ({ c with down := rest }.after id
      (s.handleFrame cached frame mailbox).2.1 (s.handleFrame cached frame mailbox).2.2) ∧
      Room (s.handleFrame cached frame mailbox).2.1 := by
  cases frame with
  | probe probe =>
    obtain ⟨hwalk,hroom⟩ := walk_sim cached hs h
    obtain ⟨hprobe,hroom'⟩ := handleProbe_sim cached hroom (Conversation.after_shows (c := c) _)
      probe mailbox hdown
    refine ⟨?_,hroom'⟩
    have heq := Conversation.after_after { c with down := rest } id (s.walk cached).1
      ((s.walk cached).1.handleProbe cached probe mailbox).1 (s.walk cached).2
      ((s.walk cached).1.handleProbe cached probe mailbox).2
    exact heq ▸ hwalk.trans hprobe
  | grant task => exact handleGrant_sim hs h task hdown
  | cancel i => exact handleCancel_sim hs h i hdown
  | submission task =>
    have hdown : c.down = rest := by simpa [downOf] using hdown
    subst hdown
    exact ⟨after_unrelated h rfl rfl (answers_nil id) rfl rfl,hs⟩
  | malformed kind =>
    have hdown : c.down = rest := by simpa [downOf] using hdown
    subst hdown
    exact ⟨after_unrelated h rfl rfl (answers_nil id) rfl rfl,hs⟩
  | other typeId =>
    have hdown : c.down = rest := by simpa [downOf] using hdown
    subst hdown
    exact ⟨after_unrelated h rfl rfl (answers_nil id) rfl rfl,hs⟩

end Node
end Strij.Probe
