import Strij.Gateway.LoopTurns

/-! Forwarders in the receiver storage: as long as the router's entry for a child task is there, the put of its
forwarder does nothing. -/
namespace Strij.Gateway
open Strij.Lib Strij.Wire

namespace Desk
variable {net : Network} {d : Desk} {effects : List Effect} {r : Receiver}

structure Calm (d : Desk) : Prop where
  plain : d.storage.Plain
  running : d.hung = false

namespace Calm

variable (h : d.Calm)
include h

lemma settle {s : ResultReceiverStorage} (hs : s.Plain) : (d.settle (some s)).Calm :=
  ⟨hs,h.running⟩

lemma call (r : Receiver) (c : ReceiverCall) : (d.settle (d.storage.call r c)).Calm := by
  obtain ⟨s,hs,hprogress⟩ := h.plain.progress_call r c
  rw [hs]
  exact h.settle hprogress.plain

lemma close (ids : List String) : (d.close ids).Calm := by
  induction ids generalizing d with
  | nil => exact h
  | cons id ids ih =>
    obtain ⟨s,hs,hprogress,-⟩ := h.plain.progress_nodeDisconnected id
    rw [Desk.close,if_neg (by simp [h.running]),hs]
    exact ih (h.settle hprogress.plain)

lemma put {id : String} {r : Receiver}
    (hr : r.isForwarder = false ∨ id ∈ d.storage.receivers) (nodeId : String) :
    (d.effect net (.put id r nodeId)).Calm :=
  ⟨h.plain.put hr nodeId,h.running⟩

lemma perform (hput : ∀ id r n, .put id r n ∉ effects) : (d.perform net effects).Calm := by
  induction effects generalizing d with
  | nil => exact h
  | cons e effects ih =>
    rw [Desk.perform,if_neg (by simp [h.running])]
    refine ih ?_ fun id r n hmem => hput id r n (List.mem_cons_of_mem _ hmem)
    cases e with
    | write conn frame => exact ⟨h.plain,h.running⟩
    | nullWrite nodeId frame => exact ⟨h.plain,h.running⟩
    | put id r nodeId => exact absurd List.mem_cons_self (hput id r nodeId)
    | deliverError r message status => exact h.call r _

lemma writes (hw : Writes effects) : (d.perform net effects).Calm := by
  rw [perform_writes hw h.running]
  exact ⟨h.plain,h.running⟩

lemma schedulers (schedulers : List RoutedScheduler) : Calm { d with schedulers := schedulers } :=
  ⟨h.plain,h.running⟩

end Calm

variable (h : d.Calm)
include h

lemma Calm.push {task : Task} (hr : r.isForwarder = false ∨ task.id ∈ d.storage.receivers) (n : NodeRecord) :
    (d.perform net (pushTask n task r)).Calm := by
  rw [pushTask,Desk.perform,if_neg (by simp [h.running])]
  refine (h.put hr n.nodeId).writes fun e he => ?_
  exact ⟨n.view,_,List.mem_singleton.mp he⟩

lemma Calm.writesPut (hw : Writes effects) {id : String}
    (hr : r.isForwarder = false ∨ id ∈ d.storage.receivers) (nodeId : String) :
    (d.perform net (effects ++ [.put id r nodeId])).Calm := by
  rw [perform_append,perform_writes hw h.running,Desk.perform,if_neg (by simp [h.running])]
  exact ⟨h.plain.put hr nodeId,h.running⟩

lemma Calm.scheduleAt {task : Task}
    (hr : r.isForwarder = false ∨ task.id ∈ d.storage.receivers) (now : ℤ) (i : ℕ) :
    (d.withScheduler net i (·.schedule net.directory now task r)).Calm := by
  rw [withScheduler]
  split
  · exact h
  next routed hrouted =>
  have hout := routed.scheduler.scheduled net.directory now task r
  generalize routed.scheduler.schedule net.directory now task r = out at hout ⊢
  cases hout with
  | refused hsame message status =>
    refine (h.schedulers _).perform fun id q n hmem => ?_
    cases List.mem_singleton.mp hmem
  | pushed hsame hn =>
    refine (h.schedulers _).push ?_ _
    exact hr
  | probed hs hne hn deadline =>
    refine (h.schedulers _).writes fun e he => ?_
    obtain ⟨n,-,rfl⟩ := List.mem_map.mp he
    exact ⟨n.view,_,rfl⟩

lemma Calm.schedule (hr : r.isForwarder = false) (now : ℤ) (task : Task) :
    (d.schedule net now task r).Calm := by
  rw [Desk.schedule]
  split
  · exact h.call r _
  · exact h.scheduleAt (.inl hr) now _

omit h in
lemma noteDecline_schedulers (d : Desk) (key : ℕ) (frame : NodeFrame) :
    (d.noteDecline key frame).schedulers = d.schedulers := by
  cases frame <;> rfl

lemma Calm.noteDecline (key : ℕ) (frame : NodeFrame) : (d.noteDecline key frame).Calm := by
  cases frame <;> exact ⟨h.plain,h.running⟩

lemma Calm.sweep (i : ℕ) (now : ℤ) : (d.withScheduler net i (·.sweepExpired net.directory now)).Calm := by
  rw [withScheduler]
  split
  · exact h
  exact (h.schedulers _).perform put_notMem_sweep

lemma Calm.handleChildTaskSubmission (now : ℤ) (task : Task) (n : NodeRecord) (conn : ℕ) :
    (d.handleChildTaskSubmission net now task n conn).Calm := by
  have hstored : Calm { d with
      storage := d.storage.put task.id (.nodeConnection task.id conn) n.nodeId
      submitted := d.submitted ++ [(task.id,.nodeConnection task.id conn)] } :=
    ⟨h.plain.put (.inl rfl) n.nodeId,h.running⟩
  rw [Desk.handleChildTaskSubmission]
  split
  · split
    · exact ⟨hstored.plain.erase task.id,hstored.running⟩
    · next stored hget =>
      rw [hstored.plain.call hget]
      exact hstored.settle ((ResultReceiverStorage.Progress.record hstored.plain stored _).plain.erase task.id)
  · exact hstored.scheduleAt (.inr (mem_emplace.mpr (.inl rfl))) now _

end Desk

namespace EventLoop
variable {g g' : EventLoop} {e : LoopEvent} {id nodeId : String}

def grantedRound (g : EventLoop) : LoopEvent → Option (String × PendingProbe)
  | .frame nodeId _ (.scheduling (.pull id)) =>
    ((findFrameOwner g.desk.schedulers 8).bind (g.desk.schedulers[·]?)).bind (fun routed =>
      (routed.scheduler.pending.lookup id).bind (fun round =>
        if nodeId ∈ round.probedNodeIds then some (id,round) else none))
  | _ => none

lemma grantedRound_eq {i : ℕ} {routed : RoutedScheduler} {round : PendingProbe}
    (howner : findFrameOwner g.desk.schedulers 8 = some i) (hrouted : g.desk.schedulers[i]? = some routed)
    (hround : routed.scheduler.pending.lookup id = some round) (hmem : nodeId ∈ round.probedNodeIds)
    (now : ℤ) : g.grantedRound (.frame nodeId now (.scheduling (.pull id))) = some (id,round) := by
  simp [grantedRound,howner,hrouted,hround,hmem]

/-- A pull that wins a child task finds the child's receiver still stored. -/
def ChildStored (g : EventLoop) (e : LoopEvent) : Prop :=
  ∀ x ∈ g.grantedRound e, x.2.receiver.isForwarder = true → x.1 ∈ g.desk.storage.receivers

instance (e : LoopEvent) : Decidable (g.ChildStored e) :=
  inferInstanceAs (Decidable (∀ x ∈ g.grantedRound e, _))

lemma calm_routeFrame (h : g.desk.Calm) (hsound : g.net.Sound) {n : NodeRecord}
    {conn : ℕ} (hreads : Reads g.net nodeId n conn) {now : ℤ} {frame : NodeFrame}
    (hcond : g.ChildStored (.frame nodeId now (.scheduling frame))) :
    (g.desk.routeFrame g.net frame n ⟨conn,some n.nodeId⟩).Calm := by
  rw [Desk.routeFrame]
  split
  · exact h.noteDecline n.key frame
  next i howner =>
  rw [Desk.withScheduler]
  split
  · exact h.noteDecline n.key frame
  next routed hrouted =>
  rw [Desk.noteDecline_schedulers] at hrouted
  have hout := routed.scheduler.framed g.net.directory frame ⟨conn,some n.nodeId⟩
    fun id hid => List.ne_nil_of_mem (mem_handledFrameTypes howner hrouted)
  generalize routed.scheduler.handleFrame g.net.directory frame ⟨conn,some n.nodeId⟩ = out at hout ⊢
  have hcalm := (h.noteDecline n.key frame).schedulers
  cases hout with
  | ignored _ => exact hcalm _
  | revoked hs hframe _ => exact (hcalm _).perform (by simp)
  | declined hs hframe hround => exact hcalm _
  | exhausted hs hframe hround => exact (hcalm _).perform (by simp)
  | @granted p hs id hframe round hround winner hwinner hprobed =>
    subst hframe
    cases hwinner
    have hid := hsound.named nodeId n hreads.node
    have hgranted : g.grantedRound (.frame nodeId now (.scheduling (.pull id))) = some (id,round) :=
      grantedRound_eq howner hrouted (by rw [hs]; exact hround) (hid ▸ hprobed) now
    have hstored := hcond (id,round) hgranted
    have hwrites : Desk.Writes (.write ⟨conn,some n.nodeId⟩ (.grant round.task) ::
        ProbeScheduler.cancelNodes g.net.directory.answers id
          (round.probedNodeIds.filter (· ≠ n.nodeId))) := by
      refine List.forall_mem_cons.mpr ⟨?_,Desk.writes_cancelNodes _ _ _⟩
      exact ⟨⟨n.nodeId,some ⟨conn,some n.nodeId⟩⟩,_,rfl⟩
    refine (hcalm _).writesPut hwrites ?_ n.nodeId
    cases hforwarder : round.receiver.isForwarder with
    | false => exact .inl rfl
    | true => exact .inr (hstored hforwarder)

lemma calm_of_step (h : g.desk.Calm) (hsound : g.net.Sound) (hcond : g.ChildStored e)
    (hstep : g.step e = some g') : g'.desk.Calm := by
  cases turn_of_step hsound hstep with
  | network hnet => exact h.close _
  | rekeyed hreads now hrekeys => exact h
  | answered hanswer =>
    obtain ⟨s,rfl,hprogress⟩ := hanswer h.plain
    exact h.settle hprogress.plain
  | withdrawn id hclient => exact ⟨h.plain.erase id,h.running⟩
  | submitted now task =>
    have hclient : g.client.isForwarder = false := rfl
    refine Desk.Calm.schedule ?_ hclient now task
    exact ⟨h.plain,h.running⟩
  | child hreads now task => exact h.handleChildTaskSubmission now task _ _
  | scheduling hreads now frame => exact calm_routeFrame h hsound hreads hcond
  | swept i now => exact h.sweep i now

/-- As long as every won child task has its receiver stored, no forwarder is ever stored under the id it
forwards to, and the frames that resolve a receiver are handled to their end. -/
theorem forwarders_never_loop (schedulers : List RoutedScheduler) (events : List LoopEvent)
    (hcond : Throughout step ChildStored (start schedulers) events)
    (hrun : runAll step (start schedulers) events = some g) :
    (∀ id, g.desk.storage.get id ≠ some (.forwarder id)) ∧
      (∀ result, (g.desk.storage.handleTaskResultFrame result).isSome = true) ∧
      (∀ rejected, (g.desk.storage.handleTaskRejectedFrame rejected).isSome = true) ∧
      g.desk.hung = false := by
  have hinv := runAll_invariant (I := fun g : EventLoop => g.net.Sound ∧ g.desk.Calm)
    (fun g e g' hg hcond hstep =>
      ⟨(turn_of_step hg.1 hstep).sound hg.1,calm_of_step hg.2 hg.1 hcond hstep⟩)
    ⟨.empty,.empty,rfl⟩ hcond hrun
  have hcalm := hinv.2
  refine ⟨fun id hget => ?_,fun result => ?_,fun rejected => ?_,hcalm.running⟩
  · cases hcalm.plain.endpoint id _ hget
  · obtain ⟨s,hs,-⟩ := hcalm.plain.progress_result result
    simpa using congrArg Option.isSome hs
  · obtain ⟨s,hs,-⟩ := hcalm.plain.progress_rejected rejected
    simpa using congrArg Option.isSome hs

/-- A probe scheduler that asks one node per task, here the second of two. -/
def oneProbe : List RoutedScheduler := [⟨"",.probe ⟨1,1000,fun _ _ => 1,∅⟩⟩]

/-- The first node submits a child, the second one pulls it and answers. -/
def wonChild : List LoopEvent := twoNodes ++ [.frame "a" 0 (.submission (bareTask "t" "x")),
  .frame "b" 1 (.scheduling (.pull "t")),.frame "b" 2 (.result ⟨"t","ok",none,none⟩)]

theorem forwarders_never_loop_wonChild : Throughout step ChildStored (start oneProbe) wonChild ∧
    ∃ g, runAll step (start oneProbe) wonChild = some g ∧
      (∀ id, g.desk.storage.get id ≠ some (.forwarder id)) ∧
      (∀ result, (g.desk.storage.handleTaskResultFrame result).isSome = true) ∧
      (∀ rejected, (g.desk.storage.handleTaskRejectedFrame rejected).isSome = true) ∧
      g.desk.hung = false := by
  have hcond : Throughout step ChildStored (start oneProbe) wonChild := by decide +kernel
  have hruns : (runAll step (start oneProbe) wonChild).isSome = true := by decide +kernel
  obtain ⟨g,hrun⟩ := Option.isSome_iff_exists.mp hruns
  exact ⟨hcond,g,hrun,forwarders_never_loop oneProbe wonChild hcond hrun⟩

lemma callWithin_of_loop {s : ResultReceiverStorage} (h : s.get id = some (.forwarder id))
    (fuel : ℕ) (c : ReceiverCall) : ResultReceiverStorage.callWithin fuel s (.forwarder id) c = none := by
  induction fuel with
  | zero => rfl
  | succ fuel ih =>
    rw [ResultReceiverStorage.callWithin,h]
    simp only [ih,Option.map_none]

/-- The first node submits a child and goes away before the second one pulls it. -/
def lostSubmitter : List LoopEvent := twoNodes ++ [.frame "a" 0 (.submission (bareTask "t" "x")),
  .endOfStream "a",.tick,.frame "b" 1 (.scheduling (.pull "t"))]

/-- The grant stores the forwarder under its own id, and no number of nested calls ends the delivery. -/
theorem forwarder_loops : ∃ g, runAll step (start oneProbe) lostSubmitter = some g ∧
    g.desk.storage.get "t" = some (.forwarder "t") ∧
    (∀ fuel c, ResultReceiverStorage.callWithin fuel g.desk.storage (.forwarder "t") c = none) ∧
    g.desk.storage.handleTaskResultFrame ⟨"t","ok",none,none⟩ = none ∧
    g.desk.storage.handleTaskRejectedFrame ⟨"t","busy"⟩ = none := by
  have hstored : (runAll step (start oneProbe) lostSubmitter).map (fun g => g.desk.storage.get "t") =
      some (some (.forwarder "t")) := by decide +kernel
  obtain ⟨g,hrun,hget⟩ := Option.map_eq_some_iff.mp hstored
  have hcall (c : ReceiverCall) : g.desk.storage.call (.forwarder "t") c = none :=
    callWithin_of_loop hget _ c
  refine ⟨g,hrun,hget,callWithin_of_loop hget,?_,?_⟩
  · rw [ResultReceiverStorage.handleTaskResultFrame,hget]
    simp [hcall]
  · rw [ResultReceiverStorage.handleTaskRejectedFrame,hget]
    simp [hcall]

end EventLoop
end Strij.Gateway
