import Strij.Lib.Runs
import Strij.NodeAgent.ProbeAccounts

/-! Who can still release a reservation held for a grant: a reservation can be released as long as no connection
closes while a probe from it is queued or pulled. -/
namespace Strij.NodeAgent
open Strij.Lib Strij.Wire

structure ProbeNode where
  scheduler : ProbeLocalScheduler
  closed : List Mailbox := []
  pulledOn : String → Option Mailbox := fun _ => none

inductive ProbeNodeEvent
  | frame (cached : AllCached) (frame : GatewayFrame) (mailbox : Mailbox)
  | command (cached : AllCached) (command : CommandType)
  | close (mailbox : Mailbox)
  | finishTask (i : ℕ)
  | admitOther (taskType : String) (requirements : ResourceRequirements)
  | releaseOther (i : ℕ)

/-- Enqueued frames reach the mailboxes: a closed one drops them. -/
def acceptPulls (closed : List Mailbox) (pulledOn : String → Option Mailbox) (effects : List NodeEffect) :
    String → Option Mailbox :=
  effects.foldl (fun pulledOn effect =>
    match effect with
    | .enqueue mailbox (.pull id) =>
      Function.update pulledOn id (if mailbox ∈ closed then none else some mailbox)
    | _ => pulledOn) pulledOn

namespace ProbeNode
variable (n : ProbeNode)

def after (result : ProbeLocalScheduler × List NodeEffect) : ProbeNode :=
  { n with scheduler := result.1, pulledOn := acceptPulls n.closed n.pulledOn result.2 }

/-- One event; no frame arrives on a closed connection. -/
def step (n : ProbeNode) : ProbeNodeEvent → Option ProbeNode
  | .frame cached frame mailbox =>
    if mailbox ∈ n.closed then none
    else some (n.after (n.scheduler.handleFrame cached frame mailbox).2)
  | .command cached command => some (n.after (n.scheduler.processCommand cached command))
  | .close mailbox => some { n with closed := mailbox :: n.closed }
  | .finishTask i => some { n with scheduler := n.scheduler.finishTask i }
  | .admitOther taskType requirements =>
    some { n with scheduler := n.scheduler.admitOther taskType requirements }
  | .releaseOther i => some { n with scheduler := n.scheduler.releaseOther i }

/-- The pull of every held reservation was accepted by a mailbox that is open, and nothing is reserved
at the controller but these, the running tasks and what other services hold. -/
structure Releasable : Prop where
  pulled : ∀ id ∈ n.scheduler.pullPending, ∃ mailbox, n.pulledOn id = some mailbox ∧ mailbox ∉ n.closed
  accounted : n.scheduler.Accounted

/-- A connection closes only when no probe from it is queued or pulled. -/
def Unused (n : ProbeNode) : ProbeNodeEvent → Prop
  | .close mailbox => (∀ item ∈ n.scheduler.queue.items, item.pullMailbox ≠ mailbox) ∧
    ∀ id ∈ n.scheduler.pullPending, n.pulledOn id ≠ some mailbox
  | _ => True

instance (e : ProbeNodeEvent) : Decidable (n.Unused e) :=
  match e with
  | .close _ => inferInstanceAs (Decidable (_ ∧ ∀ id ∈ n.scheduler.pullPending.keys, _))
  | .frame _ _ _ => instDecidableTrue
  | .command _ _ => instDecidableTrue
  | .finishTask _ => instDecidableTrue
  | .admitOther _ _ => instDecidableTrue
  | .releaseOther _ => instDecidableTrue

end ProbeNode

section Effects
variable {closed : List Mailbox} {pulledOn : String → Option Mailbox} {id : String} {mailbox : Mailbox}

@[simp] lemma acceptPulls_append (a b : List NodeEffect) :
    acceptPulls closed pulledOn (a ++ b) = acceptPulls closed (acceptPulls closed pulledOn a) b :=
  List.foldl_append

@[simp] lemma acceptPulls_nil : acceptPulls closed pulledOn [] = pulledOn := rfl

@[simp] lemma acceptPulls_decline (reason : String) (effects : List NodeEffect) :
    acceptPulls closed pulledOn (ProbeLocalScheduler.sendDecline mailbox id reason :: effects) =
      acceptPulls closed pulledOn effects := rfl

@[simp] lemma acceptPulls_startPrefetch (cached : AllCached) (probe : TaskProbe) :
    acceptPulls closed pulledOn (ProbeLocalScheduler.startPrefetch cached probe) = pulledOn := by
  rw [ProbeLocalScheduler.startPrefetch]
  split <;> rfl

lemma acceptPulls_pull (hopen : mailbox ∉ closed) :
    acceptPulls closed pulledOn [.enqueue mailbox (.pull id)] =
      Function.update pulledOn id (some mailbox) := by
  simp [acceptPulls,hopen]

end Effects

namespace ProbeLocalScheduler
variable {closed : List Mailbox} {pulledOn : String → Option Mailbox} {s : ProbeLocalScheduler}
  {cached : AllCached} {probe : TaskProbe} {mailbox : Mailbox}

def PulledOpen (closed : List Mailbox) (pulledOn : String → Option Mailbox) (s : ProbeLocalScheduler) : Prop :=
  ∀ id ∈ s.pullPending, ∃ mailbox, pulledOn id = some mailbox ∧ mailbox ∉ closed

def FromOpen (closed : List Mailbox) (items : List QueuedProbe) : Prop :=
  ∀ item ∈ items, item.pullMailbox ∉ closed

lemma PulledOpen.preallocate (h : s.PulledOpen closed pulledOn) (hopen : mailbox ∉ closed)
    (c : AdmissionController) (probe : TaskProbe) : (s.preallocate c probe mailbox).1.PulledOpen closed
      (acceptPulls closed pulledOn (s.preallocate c probe mailbox).2) := by
  intro id hid
  rw [preallocate_pullPending,AList.mem_insert] at hid
  rw [preallocate_effects,acceptPulls_pull hopen]
  by_cases heq : id = probe.id
  · subst heq
    exact ⟨mailbox,Function.update_self ..,hopen⟩
  · rw [Function.update_of_ne heq]
    exact h id (hid.resolve_left heq)

lemma PulledOpen.walkLoop (items deferred : List QueuedProbe) (h : s.PulledOpen closed pulledOn)
    (hitems : FromOpen closed items) (hdeferred : FromOpen closed deferred) :
    let r := s.walkLoop cached items deferred
    r.1.PulledOpen closed (acceptPulls closed pulledOn r.2.2) ∧ FromOpen closed r.1.queue.items ∧
      FromOpen closed r.2.1 := by
  induction items generalizing deferred s pulledOn with
  | nil => exact ⟨h,hitems,hdeferred⟩
  | cons item rest ih =>
    obtain ⟨hitem,hrest⟩ := List.forall_mem_cons.mp hitems
    have hlater : FromOpen closed (deferred ++ [item]) := by
      intro x hx
      rcases List.mem_append.mp hx with hx | hx
      · exact hdeferred x hx
      · exact List.mem_singleton.mp hx ▸ hitem
    rw [ProbeLocalScheduler.walkLoop]
    split
    · exact ⟨h,hitems,hdeferred⟩
    split
    · exact ih _ h hrest hlater
    split
    · next c _ =>
      have hr := ih deferred (h.preallocate hitem c item.probe) hrest hdeferred
      simpa only [acceptPulls_append] using hr
    · simpa only [acceptPulls_decline] using ih deferred h hrest hdeferred
    · exact ih _ h hrest hlater

structure Reachable (closed : List Mailbox) (pulledOn : String → Option Mailbox) (s : ProbeLocalScheduler) :
    Prop where
  pulled : s.PulledOpen closed pulledOn
  queued : FromOpen closed s.queue.items

variable (h : s.Reachable closed pulledOn)
include h

lemma Reachable.walk :
    (s.walk cached).1.Reachable closed (acceptPulls closed pulledOn (s.walk cached).2) := by
  obtain ⟨hpulled,hkept,hdeferred⟩ :=
    h.pulled.walkLoop s.queue.items [] h.queued (by simp [FromOpen])
  refine ⟨hpulled,fun item hitem => ?_⟩
  rcases BoundedQueue.mem_pushAll _ hitem with hitem | hitem
  · exact hkept item hitem
  · exact hdeferred item hitem

lemma Reachable.handleProbe (hopen : mailbox ∉ closed) :
    (s.handleProbe cached probe mailbox).1.Reachable closed
      (acceptPulls closed pulledOn (s.handleProbe cached probe mailbox).2) := by
  rw [ProbeLocalScheduler.handleProbe]
  split
  · next c _ =>
    refine ⟨?_,?_⟩
    · simpa using h.pulled.preallocate hopen c probe
    · change FromOpen closed (s.preallocate c probe mailbox).1.queue.items
      rw [preallocate_queue]
      exact h.queued
  · exact h
  · split
    · exact h
    · next queue hpush =>
      rw [acceptPulls_startPrefetch]
      refine ⟨h.pulled,fun item hitem => ?_⟩
      rw [BoundedQueue.push] at hpush
      split at hpush
      · cases hpush
      · cases hpush
        rcases List.mem_append.mp hitem with hitem | hitem
        · exact h.queued item hitem
        · exact List.mem_singleton.mp hitem ▸ hopen

omit h in
lemma PulledOpen.erase (h : s.PulledOpen closed pulledOn) (id : String) :
    PulledOpen closed pulledOn { s with pullPending := s.pullPending.erase id } :=
  fun id' hid' => h id' (AList.mem_erase.mp hid').2

lemma Reachable.handleGrant (task : Task) :
    (s.handleGrant task).1.Reachable closed (acceptPulls closed pulledOn (s.handleGrant task).2) := by
  rw [ProbeLocalScheduler.handleGrant]
  split
  · exact h
  · rw [runTask]
    split
    · exact ⟨h.pulled.erase task.id,h.queued⟩
    · exact ⟨h.pulled.erase task.id,h.queued⟩

lemma Reachable.removeQueued (id : String) : (s.removeQueued id).Reachable closed pulledOn := by
  refine ⟨h.pulled,fun item hitem => ?_⟩
  rcases BoundedQueue.mem_pushAll _ hitem with hitem | hitem
  · cases hitem
  · exact h.queued item (List.mem_of_mem_filter hitem)

lemma Reachable.handleCancel (id : String) : (s.handleCancel id).Reachable closed pulledOn := by
  rw [ProbeLocalScheduler.handleCancel]
  split
  · exact h.removeQueued id
  · apply Reachable.removeQueued
    exact ⟨h.pulled.erase id,h.queued⟩

lemma Reachable.handleFrame (hopen : mailbox ∉ closed)
    (frame : GatewayFrame) : (s.handleFrame cached frame mailbox).2.1.Reachable closed
      (acceptPulls closed pulledOn (s.handleFrame cached frame mailbox).2.2) := by
  cases frame with
  | submission task => exact h
  | probe probe => simpa only [ProbeLocalScheduler.handleFrame,acceptPulls_append] using h.walk.handleProbe hopen
  | grant task => exact h.handleGrant task
  | cancel id => exact h.handleCancel id
  | malformed kind => exact h
  | other typeId => exact h

lemma Reachable.processCommand (command : CommandType) : (s.processCommand cached command).1.Reachable closed
      (acceptPulls closed pulledOn (s.processCommand cached command).2) := by
  cases command with
  | capacityReleased => exact h.walk
  | depCompleted => exact h.walk
  | other => exact h

lemma Reachable.congr {t : ProbeLocalScheduler}
    (hpending : t.pullPending = s.pullPending) (hqueue : t.queue = s.queue) : t.Reachable closed pulledOn :=
  ⟨fun id hid => h.pulled id (hpending ▸ hid),hqueue ▸ h.queued⟩

lemma Reachable.close (hqueued : ∀ item ∈ s.queue.items, item.pullMailbox ≠ mailbox)
    (hpulled : ∀ id ∈ s.pullPending, pulledOn id ≠ some mailbox) :
    s.Reachable (mailbox :: closed) pulledOn := by
  refine ⟨fun id hid => ?_,fun item hitem => ?_⟩
  · obtain ⟨m,hm,hopen⟩ := h.pulled id hid
    refine ⟨m,hm,?_⟩
    rw [List.mem_cons,not_or]
    exact ⟨fun heq => hpulled id hid (heq ▸ hm),hopen⟩
  · rw [List.mem_cons,not_or]
    exact ⟨hqueued item hitem,h.queued item hitem⟩

end ProbeLocalScheduler

namespace ProbeNode
open ProbeLocalScheduler
variable {n n' : ProbeNode} {events : List ProbeNodeEvent} {e : ProbeNodeEvent}

lemma step_reachable (h : n.scheduler.Reachable n.closed n.pulledOn)
    (hunused : n.Unused e) (hstep : n.step e = some n') : n'.scheduler.Reachable n'.closed n'.pulledOn := by
  cases e with
  | frame cached frame mailbox =>
    rw [step] at hstep
    split at hstep
    · cases hstep
    · next hopen =>
      cases hstep
      exact h.handleFrame hopen frame
  | command cached command =>
    cases hstep
    exact h.processCommand command
  | close mailbox =>
    cases hstep
    exact h.close hunused.1 hunused.2
  | finishTask i =>
    cases hstep
    refine h.congr ?_ ?_ <;> · rw [ProbeLocalScheduler.finishTask]; split <;> rfl
  | admitOther taskType requirements =>
    cases hstep
    refine h.congr ?_ ?_ <;> · rw [ProbeLocalScheduler.admitOther]; split <;> rfl
  | releaseOther i =>
    cases hstep
    refine h.congr ?_ ?_ <;> · rw [ProbeLocalScheduler.releaseOther]; split <;> rfl

lemma step_accounted (h : n.scheduler.Accounted) (hstep : n.step e = some n') : n'.scheduler.Accounted := by
  cases e with
  | frame cached frame mailbox =>
    rw [step] at hstep
    split at hstep
    · cases hstep
    · cases hstep
      exact handleFrame_accounted cached frame mailbox h
  | command cached command =>
    cases hstep
    exact processCommand_accounted cached command h
  | close mailbox =>
    cases hstep
    exact h
  | finishTask i =>
    cases hstep
    exact finishTask_accounted i h
  | admitOther taskType requirements =>
    cases hstep
    exact admitOther_accounted taskType requirements h
  | releaseOther i =>
    cases hstep
    exact releaseOther_accounted i h

def init (capabilities : NodeCapabilities) (handlers : String → Bool) (maxPreallocations queueCapacity : ℕ) :
    ProbeNode where
  scheduler :=
    { admission := .ofCapabilities capabilities
      handlers := handlers
      maxConcurrentPreallocations := maxPreallocations
      queue := ⟨queueCapacity,[]⟩ }

/-- If connections close only when no probe from them is queued or pulled, every held reservation can be
released by its gateway. -/
theorem held_releasable (capabilities : NodeCapabilities) (handlers : String → Bool)
    (maxPreallocations queueCapacity : ℕ) (events : List ProbeNodeEvent)
    (hunused : Throughout step Unused (init capabilities handlers maxPreallocations queueCapacity) events)
    (hrun : runAll step (init capabilities handlers maxPreallocations queueCapacity) events = some n) :
    n.Releasable := by
  have hinv : n.scheduler.Reachable n.closed n.pulledOn ∧ n.scheduler.Accounted := by
    refine runAll_invariant (I := fun n => n.scheduler.Reachable n.closed n.pulledOn ∧ n.scheduler.Accounted)
      (fun n e n' h hu hstep => ⟨step_reachable h.1 hu hstep,step_accounted h.2 hstep⟩) ?_ hunused hrun
    refine ⟨⟨fun id hid => ?_,fun item hitem => ?_⟩,Books.start capabilities⟩
    · cases hid
    · cases hitem
  exact ⟨hinv.1.pulled,hinv.2⟩

def small : ProbeNode := init { pools := [⟨"slot",1⟩] } (fun _ => true) 1 1

def slotProbe (id : String) : TaskProbe := ⟨id,"echo",⟨[("slot",1)],by decide⟩,[]⟩

/-- Two probes from two gateways: the first is pulled, the second queued until the first is cancelled. The
first gateway leaves. -/
def twoProbes : List ProbeNodeEvent :=
  [.frame (fun _ => true) (.probe (slotProbe "a")) 0,.frame (fun _ => true) (.probe (slotProbe "b")) 1,
    .frame (fun _ => true) (.cancel "a") 0,.close 0,.command (fun _ => true) .capacityReleased]

theorem held_releasable_twoProbes :
    ∃ n, runAll step small twoProbes = some n ∧ "b" ∈ n.scheduler.pullPending ∧ n.Releasable := by
  obtain ⟨n,hn,hb⟩ : ∃ n, runAll step small twoProbes = some n ∧ "b" ∈ n.scheduler.pullPending :=
    ⟨_,rfl,by decide +kernel⟩
  exact ⟨n,hn,hb,held_releasable _ _ _ _ twoProbes (by decide +kernel) hn⟩

/-- The gateway of a pulled probe leaves; and, as in `twoProbes`, the gateway of a queued probe leaves, and
the probe is pulled on its closed mailbox afterwards. -/
theorem abandoned_not_releasable :
    (∃ n, runAll step small [.frame (fun _ => true) (.probe (slotProbe "a")) 0,.close 0] = some n ∧
      n.scheduler.admission.inFlight "echo" = 1 ∧ ¬ n.Releasable) ∧
    ∃ n, runAll step small [.frame (fun _ => true) (.probe (slotProbe "a")) 0,
        .frame (fun _ => true) (.probe (slotProbe "b")) 1,.close 1,
        .frame (fun _ => true) (.cancel "a") 0,.command (fun _ => true) .capacityReleased] = some n ∧
      n.scheduler.admission.inFlight "echo" = 1 ∧ ¬ n.Releasable := by
  refine ⟨⟨_,rfl,by decide +kernel,fun h => ?_⟩,⟨_,rfl,by decide +kernel,fun h => ?_⟩⟩
  · obtain ⟨mailbox,hm,hopen⟩ := h.pulled "a" (by decide +kernel)
    cases hm
    exact hopen List.mem_cons_self
  · obtain ⟨mailbox,hm,-⟩ := h.pulled "b" (by decide +kernel)
    cases hm

end ProbeNode
end Strij.NodeAgent
