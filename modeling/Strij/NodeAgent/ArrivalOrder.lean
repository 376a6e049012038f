import Strij.NodeAgent.HeldReservations
import Strij.NodeAgent.ProbeQueue

/-! The order of the queued probes. A walk pops probes from the front and pushes those it puts aside back at the
end: if the dial stops it in between, older probes end up behind newer ones. -/
namespace Strij.NodeAgent
open Strij.Lib Strij.Wire

namespace ProbeLocalScheduler
variable {s : ProbeLocalScheduler} {cached : AllCached}

/-- The dial does not stop the walk between a probe that it has put aside and one that it has not seen. -/
def Uncut (cached : AllCached) (s : ProbeLocalScheduler) : Prop :=
  let r := s.walkLoop cached s.queue.items []
  r.1.queue.items = [] ∨ r.2.1 = []

instance : Decidable (s.Uncut cached) :=
  inferInstanceAs (Decidable (_ = [] ∨ _ = []))

lemma walkLoop_sublist (cached : AllCached) (items deferred : List QueuedProbe) (s : ProbeLocalScheduler) :
    ∃ kept, (s.walkLoop cached items deferred).2.1 = deferred ++ kept ∧
      (kept ++ (s.walkLoop cached items deferred).1.queue.items).Sublist items := by
  induction items generalizing deferred s with
  | nil => exact ⟨[],(List.append_nil _).symm,.refl _⟩
  | cons item rest ih =>
    have hkeep : ∃ kept, (s.walkLoop cached rest (deferred ++ [item])).2.1 = deferred ++ kept ∧
        (kept ++ (s.walkLoop cached rest (deferred ++ [item])).1.queue.items).Sublist (item :: rest) := by
      obtain ⟨kept,hkept,hsub⟩ := ih (deferred ++ [item]) s
      exact ⟨item :: kept,by rw [hkept,List.append_assoc,List.singleton_append],hsub.cons_cons item⟩
    have hgone (s' : ProbeLocalScheduler) : ∃ kept, (s'.walkLoop cached rest deferred).2.1 = deferred ++ kept ∧
        (kept ++ (s'.walkLoop cached rest deferred).1.queue.items).Sublist (item :: rest) := by
      obtain ⟨kept,hkept,hsub⟩ := ih deferred s'
      exact ⟨kept,hkept,hsub.cons item⟩
    rw [walkLoop]
    split
    · exact ⟨[],(List.append_nil _).symm,.refl _⟩
    split
    · exact hkeep
    split
    · exact hgone _
    · exact hgone _
    · exact hkeep

lemma Uncut.walk_sublist (h : s.Uncut cached) : (s.walk cached).1.queue.items.Sublist s.queue.items := by
  obtain ⟨kept,hkept,hsub⟩ := walkLoop_sublist cached s.queue.items [] s
  rw [List.nil_append] at hkept
  have hpush := BoundedQueue.pushAll_sublist (s.walkLoop cached s.queue.items []).1.queue kept
  change (BoundedQueue.pushAll _ (s.walkLoop cached s.queue.items []).2.1).items.Sublist _
  rw [hkept]
  refine hpush.trans ?_
  rcases h with hrest | hdeferred
  · rw [hrest,List.append_nil] at hsub
    rw [hrest,List.nil_append]
    exact hsub
  · rw [hkept] at hdeferred
    rw [hdeferred,List.nil_append] at hsub
    rw [hdeferred,List.append_nil]
    exact hsub

lemma handleProbe_queue (cached : AllCached) (probe : TaskProbe) (mailbox : Mailbox) (s : ProbeLocalScheduler) :
    (s.handleProbe cached probe mailbox).1.queue.items = s.queue.items ∨
      (s.handleProbe cached probe mailbox).1.queue.items = s.queue.items ++ [⟨probe,mailbox⟩] := by
  rw [handleProbe]
  split
  · exact .inl (congrArg BoundedQueue.items (preallocate_queue _ probe mailbox))
  · exact .inl rfl
  · cases hpush : s.queue.push ⟨probe,mailbox⟩ with
    | none => exact .inl rfl
    | some queue =>
      obtain ⟨-,rfl⟩ := BoundedQueue.push_eq_some _ hpush
      exact .inr rfl

lemma removeQueued_sublist (id : String) (s : ProbeLocalScheduler) :
    (s.removeQueued id).queue.items.Sublist s.queue.items :=
  (BoundedQueue.pushAll_sublist _ _).trans List.filter_sublist

lemma handleCancel_sublist (id : String) (s : ProbeLocalScheduler) :
    (s.handleCancel id).queue.items.Sublist s.queue.items := by
  rw [handleCancel]
  split
  · exact removeQueued_sublist id s
  · exact removeQueued_sublist id _

lemma handleGrant_queue (task : Task) (s : ProbeLocalScheduler) : (s.handleGrant task).1.queue = s.queue := by
  rw [handleGrant]
  split
  · rfl
  · exact (runTask_keeps task _ _).1

lemma finishTask_queue (i : ℕ) (s : ProbeLocalScheduler) : (s.finishTask i).queue = s.queue := by
  rw [finishTask]
  split <;> rfl

lemma admitOther_queue (taskType : String) (requirements : ResourceRequirements) (s : ProbeLocalScheduler) :
    (s.admitOther taskType requirements).queue = s.queue := by
  rw [admitOther]
  split <;> rfl

lemma releaseOther_queue (i : ℕ) (s : ProbeLocalScheduler) : (s.releaseOther i).queue = s.queue := by
  rw [releaseOther]
  split <;> rfl

end ProbeLocalScheduler

namespace ProbeNode
variable {n t : ProbeNode}

def arrival : ProbeNodeEvent → Option QueuedProbe
  | .frame _ (.probe probe) mailbox => some ⟨probe,mailbox⟩
  | _ => none

def arrivals (events : List ProbeNodeEvent) : List QueuedProbe := events.filterMap arrival

def Uncut (n : ProbeNode) : ProbeNodeEvent → Prop
  | .frame cached (.probe _) _ => n.scheduler.Uncut cached
  | .command cached .capacityReleased => n.scheduler.Uncut cached
  | .command cached .depCompleted => n.scheduler.Uncut cached
  | _ => True

instance (e : ProbeNodeEvent) : Decidable (n.Uncut e) := by
  unfold Uncut
  split <;> infer_instance

/-- An event removes probes from the queue and puts the one it brings at the end. -/
lemma step_sublist (e : ProbeNodeEvent) (huncut : n.Uncut e) (hstep : n.step e = some t) :
    t.scheduler.queue.items.Sublist (n.scheduler.queue.items ++ (arrival e).toList) := by
  cases e with
  | frame cached frame mailbox =>
    rw [step] at hstep
    split at hstep
    · cases hstep
    obtain rfl := Option.some.inj hstep
    cases frame with
    | submission task => exact List.sublist_append_left _ _
    | probe probe =>
      have hwalk : (n.scheduler.walk cached).1.queue.items.Sublist n.scheduler.queue.items :=
        ProbeLocalScheduler.Uncut.walk_sublist huncut
      change (((n.scheduler.walk cached).1).handleProbe cached probe mailbox).1.queue.items.Sublist _
      rcases ProbeLocalScheduler.handleProbe_queue cached probe mailbox (n.scheduler.walk cached).1 with h | h
      · rw [h]
        exact hwalk.trans (List.sublist_append_left _ _)
      · rw [h]
        exact hwalk.append_right _
    | grant task =>
      change (n.scheduler.handleGrant task).1.queue.items.Sublist _
      rw [ProbeLocalScheduler.handleGrant_queue]
      exact List.sublist_append_left _ _
    | cancel id => exact (ProbeLocalScheduler.handleCancel_sublist id _).trans (List.sublist_append_left _ _)
    | malformed kind => exact List.sublist_append_left _ _
    | other typeId => exact List.sublist_append_left _ _
  | command cached command =>
    obtain rfl := Option.some.inj hstep
    refine List.Sublist.trans ?_ (List.sublist_append_left _ _)
    cases command with
    | capacityReleased => exact ProbeLocalScheduler.Uncut.walk_sublist huncut
    | depCompleted => exact ProbeLocalScheduler.Uncut.walk_sublist huncut
    | other => exact .refl _
  | close mailbox =>
    obtain rfl := Option.some.inj hstep
    exact List.sublist_append_left _ _
  | finishTask i =>
    obtain rfl := Option.some.inj hstep
    rw [ProbeLocalScheduler.finishTask_queue]
    exact List.sublist_append_left _ _
  | admitOther taskType requirements =>
    obtain rfl := Option.some.inj hstep
    rw [ProbeLocalScheduler.admitOther_queue]
    exact List.sublist_append_left _ _
  | releaseOther i =>
    obtain rfl := Option.some.inj hstep
    rw [ProbeLocalScheduler.releaseOther_queue]
    exact List.sublist_append_left _ _

lemma run_sublist (events : List ProbeNodeEvent) (huncut : Throughout step Uncut n events)
    (hrun : runAll step n events = some t) :
    t.scheduler.queue.items.Sublist (n.scheduler.queue.items ++ arrivals events) := by
  induction events generalizing n with
  | nil =>
    cases hrun
    exact List.sublist_append_left _ _
  | cons e events ih =>
    obtain ⟨m,hm,hrun⟩ := Option.bind_eq_some_iff.mp hrun
    have hhead := step_sublist e huncut.head hm
    have htail := ih (huncut.tail hm) hrun
    have harrivals : arrivals (e :: events) = (arrival e).toList ++ arrivals events := by
      cases he : arrival e <;> simp [arrivals,he]
    rw [harrivals,← List.append_assoc]
    exact htail.trans (hhead.append_right _)

end ProbeNode

open ProbeLocalScheduler (ids s3Router threeWaiting)

def fourDevices : ProbeLocalScheduler where
  admission := .ofCapabilities { pools := [⟨"gpu",4⟩] }
  handlers _ := true
  maxConcurrentPreallocations := 1
  queue := ⟨4,[]⟩

/-- Two tasks run on all devices while three probes arrive, then one of them ends and the queue is walked. -/
def threeArrivals (a b c : UInt64) : List ProbeNodeEvent :=
  let cached : AllCached := fun _ => true
  [.frame cached (.probe (gpuProbe "x" 2)) 0,.frame cached (.grant (DefaultLocalScheduler.childTask "x" "echo")) 0,
    .frame cached (.probe (gpuProbe "y" 2)) 0,.frame cached (.grant (DefaultLocalScheduler.childTask "y" "echo")) 0,
    .frame cached (.probe (gpuProbe "a" a)) 0,.frame cached (.probe (gpuProbe "b" b)) 0,
    .frame cached (.probe (gpuProbe "c" c)) 0,.finishTask 0,.command cached .capacityReleased]

def oneWaiting : List ProbeRecordEvent :=
  [.probe s3Router.allCached (gpuProbe "x" 2) 0,.probe s3Router.allCached (gpuProbe "a" 4) 0]

def twoReady : List ProbeRecordEvent :=
  [.probe s3Router.allCached (gpuProbe "x" 4) 0,.probe s3Router.allCached (gpuProbe "a" 1) 0,
    .probe s3Router.allCached (gpuProbe "b" 1) 0,.cancel s3Router.allCached "x" 0]

end Strij.NodeAgent
