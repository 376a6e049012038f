import Strij.Gateway.Forwarders

/-! Writes through nodes without a connection. A node that is probed or pushed to is available and so
has a connection; a cancel goes to a node remembered by its id, whose connection may be gone. -/
namespace Strij.Gateway
open Strij.Lib Strij.Wire

lemma Network.Sound.ownerOf {net : Network} (h : net.Sound) {id : String} {n : NodeRecord} {l : Link}
    (hget : net.getNode id = some n) (hlink : n.link = some l) :
    net.ownerOf ⟨l.key,some n.nodeId⟩ = some n := by
  rw [Network.ownerOf,h.named id n hget,Option.bind_some,hget,Option.filter_some,if_pos]
  simp [hlink]

namespace Desk
variable {net : Network} {d d' : Desk} {effects : List Effect} {n : NodeRecord}

/-- The effect writes to no node without a connection, and to no connection without a node. -/
def Addressed (net : Network) (e : Effect) : Prop :=
  nullTarget e = none ∧ ∀ w, written net e = some w → w.node.isSome = true

structure Reached (d : Desk) : Prop where
  nulls : d.nullWrites = []
  writes : ∀ w ∈ d.writes, w.node.isSome = true

namespace Reached

lemma extend (h : d.Reached) (hext : Extends net effects d d') (he : ∀ e ∈ effects, Addressed net e) :
    d'.Reached := by
  obtain ⟨more,heq,hmore⟩ := hext.writes
  constructor
  case nulls =>
    refine List.eq_nil_iff_forall_not_mem.mpr fun id hid => ?_
    rcases hext.nulls id hid with hid | ⟨e,hmem,hnull⟩
    · rw [h.nulls] at hid
      cases hid
    · rw [(he e hmem).1] at hnull
      cases hnull
  case writes =>
    intro w hw
    rw [heq] at hw
    rcases List.mem_append.mp hw with hw | hw
    · exact h.writes w hw
    · obtain ⟨e,hmem,hwritten⟩ := hmore w hw
      exact (he e hmem).2 w hwritten

lemma withScheduler (h : d.Reached) (i : ℕ) {op : GatewayScheduler → GatewayScheduler × List Effect}
    (hop : ∀ routed, d.schedulers[i]? = some routed → ∀ e ∈ (op routed.scheduler).2, Addressed net e) :
    (d.withScheduler net i op).Reached := by
  rw [Desk.withScheduler]
  split
  · exact h
  · next routed hrouted =>
    refine Reached.extend ?_ (perform_extends _ _ _) (hop routed hrouted)
    exact ⟨h.nulls,h.writes⟩

lemma settle (h : d.Reached) (out : Option ResultReceiverStorage) : (d.settle out).Reached := by
  obtain ⟨s,hung,heq⟩ := d.settle_eq out
  rw [heq]
  exact ⟨h.nulls,h.writes⟩

end Reached

lemma addressed_write (h : net.Sound) {id : String} (hget : net.getNode id = some n)
    (hlink : n.link.isSome = true) (frame : GatewayFrame) : Addressed net (n.view.write frame) := by
  obtain ⟨l,hl⟩ := Option.isSome_iff_exists.mp hlink
  simp only [NodeRecord.view,Node.write,hl,Option.map_some]
  refine ⟨rfl,fun w hw => ?_⟩
  cases hw
  rw [h.ownerOf hget hl]
  rfl

lemma addressed_candidate (h : net.Sound) {protocol : String}
    (hn : n ∈ net.directory.getCandidates protocol) (frame : GatewayFrame) :
    Addressed net (n.view.write frame) := by
  obtain ⟨⟨id,hget⟩,havailable⟩ := NodeDirectoryImpl.mem_getCandidates hn
  exact addressed_write h hget (h.linked id n hget havailable) frame

lemma addressed_schedule (h : net.Sound) (s : GatewayScheduler) (now : ℤ) (task : Task) (r : Receiver) :
    ∀ e ∈ (s.schedule net.directory now task r).2, Addressed net e := by
  have hout := s.scheduled net.directory now task r
  generalize s.schedule net.directory now task r = out at hout ⊢
  intro e he
  cases hout with
  | refused hsame message status =>
    cases List.mem_singleton.mp he
    exact ⟨rfl,nofun⟩
  | pushed hsame hn =>
    rcases List.mem_cons.mp he with rfl | he
    · exact ⟨rfl,nofun⟩
    · cases List.mem_singleton.mp he
      exact addressed_candidate h hn _
  | probed hs hne hn deadline =>
    obtain ⟨n,hmem,rfl⟩ := List.mem_map.mp he
    exact addressed_candidate h (hn n hmem) _

lemma Reached.schedule (h : d.Reached) (hsound : net.Sound) (now : ℤ) (task : Task) (r : Receiver) :
    (d.schedule net now task r).Reached := by
  rw [Desk.schedule]
  split
  · exact h.settle _
  · exact h.withScheduler _ fun routed _ => addressed_schedule hsound routed.scheduler now task r

lemma Reached.handleChildTaskSubmission (h : d.Reached) (hsound : net.Sound) (now : ℤ) (task : Task)
    (n : NodeRecord) (conn : ℕ) : (d.handleChildTaskSubmission net now task n conn).Reached := by
  have hstored : Reached { d with
      storage := d.storage.put task.id (.nodeConnection task.id conn) n.nodeId
      submitted := d.submitted ++ [(task.id,.nodeConnection task.id conn)] } := ⟨h.nulls,h.writes⟩
  rw [Desk.handleChildTaskSubmission]
  split
  · split
    · exact ⟨h.nulls,h.writes⟩
    · exact hstored.settle _
  · exact hstored.withScheduler _ fun routed _ => addressed_schedule hsound routed.scheduler now task _

lemma Reached.noteDecline (h : d.Reached) (key : ℕ) (frame : NodeFrame) :
    (d.noteDecline key frame).Reached := by
  cases frame <;> exact ⟨h.nulls,h.writes⟩

lemma addressed_cancel (h : net.Sound) {id : String} {nodeIds : List String}
    (hlinks : ∀ k ∈ nodeIds, ∀ n ∈ net.getNode k, n.link.isSome = true) :
    ∀ e ∈ ProbeScheduler.cancelNodes net.directory.answers id nodeIds, Addressed net e := by
  intro e he
  obtain ⟨k,hk,hn⟩ := List.mem_filterMap.mp he
  obtain ⟨node,hnode,rfl⟩ := Option.map_eq_some_iff.mp hn
  obtain ⟨n,hget,rfl⟩ := Option.map_eq_some_iff.mp hnode
  exact addressed_write h hget (hlinks k hk n hget) _

end Desk

namespace EventLoop
variable {g g' : EventLoop} {e : LoopEvent} {routed : RoutedScheduler} {now : ℤ}

/-- The nodes that the event has cancels sent to: the other nodes of a round that a pull wins, and those
of the overdue rounds of a sweep. -/
def cancelTargets (g : EventLoop) : LoopEvent → List String
  | .frame nodeId now frame =>
    ((g.grantedRound (.frame nodeId now frame)).map
      (fun x => x.2.probedNodeIds.filter (· ≠ nodeId))).getD []
  | .sweep i now =>
    ((g.desk.schedulers[i]?).map (fun routed =>
      (routed.scheduler.pending.entries.filter (fun x => x.2.deadline < now)).flatMap
        (fun x => x.2.probedNodeIds))).getD []
  | _ => []

/-- The nodes to cancel that the directory still knows have their connections. -/
def TargetsLinked (g : EventLoop) (e : LoopEvent) : Prop :=
  ∀ id ∈ g.cancelTargets e, ∀ n ∈ g.net.getNode id, n.link.isSome = true

instance (e : LoopEvent) : Decidable (g.TargetsLinked e) :=
  inferInstanceAs (Decidable (∀ id ∈ g.cancelTargets e, _))

lemma addressed_handleFrame (hsound : g.net.Sound) {nodeId : String} {n : NodeRecord} {conn : ℕ}
    (hreads : Reads g.net nodeId n conn) {frame : NodeFrame}
    (hcond : g.TargetsLinked (.frame nodeId now (.scheduling frame))) {i : ℕ}
    (howner : findFrameOwner g.desk.schedulers (frameType frame) = some i)
    (hrouted : g.desk.schedulers[i]? = some routed) :
    ∀ e ∈ (routed.scheduler.handleFrame g.net.directory frame ⟨conn,some n.nodeId⟩).2,
      Desk.Addressed g.net e := by
  have hout := routed.scheduler.framed g.net.directory frame ⟨conn,some n.nodeId⟩
    fun id hid => List.ne_nil_of_mem (mem_handledFrameTypes howner hrouted)
  generalize routed.scheduler.handleFrame g.net.directory frame ⟨conn,some n.nodeId⟩ = out at hout ⊢
  have hreply (f : GatewayFrame) : Desk.Addressed g.net (.write ⟨conn,some n.nodeId⟩ f) := by
    refine ⟨rfl,fun w hw => ?_⟩
    cases hw
    rw [hsound.ownerOf hreads.node hreads.link]
    rfl
  intro e he
  cases hout with
  | ignored _ => cases he
  | revoked hs hframe _ =>
    cases List.mem_singleton.mp he
    exact hreply _
  | declined hs hframe hround => cases he
  | exhausted hs hframe hround =>
    cases List.mem_singleton.mp he
    exact ⟨rfl,nofun⟩
  | @granted p hs id hframe round hround winner hwinner hprobed =>
    subst hframe
    cases hwinner
    have hid := hsound.named nodeId n hreads.node
    have hgranted : g.grantedRound (.frame nodeId now (.scheduling (.pull id))) = some (id,round) :=
      grantedRound_eq howner hrouted (by rw [hs]; exact hround) (hid ▸ hprobed) now
    rcases List.mem_append.mp he with he | he
    · rcases List.mem_cons.mp he with rfl | he
      · exact hreply _
      · refine Desk.addressed_cancel hsound (fun k hk => hcond k ?_) e he
        rw [cancelTargets,hgranted]
        exact hid ▸ hk
    · cases List.mem_singleton.mp he
      exact ⟨rfl,nofun⟩

lemma addressed_sweep (hsound : g.net.Sound) {i : ℕ} (hcond : g.TargetsLinked (.sweep i now))
    (hrouted : g.desk.schedulers[i]? = some routed) :
    ∀ e ∈ (routed.scheduler.sweepExpired g.net.directory now).2, Desk.Addressed g.net e := by
  intro e he
  obtain ⟨id,round,hround,hlate,hexpire⟩ := GatewayScheduler.mem_sweepExpired he
  rcases List.mem_append.mp hexpire with he | he
  · refine Desk.addressed_cancel hsound (fun k hk => hcond k ?_) e he
    rw [cancelTargets,hrouted]
    refine List.mem_flatMap.mpr ⟨⟨id,round⟩,List.mem_filter.mpr ⟨AList.mem_lookup_iff.mp hround,?_⟩,hk⟩
    simpa using hlate
  · cases List.mem_singleton.mp he
    exact ⟨rfl,nofun⟩

lemma reached_of_step (h : g.desk.Reached) (hsound : g.net.Sound) (hcond : g.TargetsLinked e)
    (hstep : g.step e = some g') : g'.desk.Reached := by
  cases turn_of_step hsound hstep with
  | network hnet =>
    obtain ⟨s,hung,heq⟩ := g.desk.close_eq _
    rw [heq]
    exact ⟨h.nulls,h.writes⟩
  | rekeyed hreads now hrekeys => exact h
  | answered hanswer => exact h.settle _
  | withdrawn id hclient => exact ⟨h.nulls,h.writes⟩
  | submitted now task =>
    refine Desk.Reached.schedule ?_ hsound now task g.client
    exact ⟨h.nulls,h.writes⟩
  | child hreads now task => exact h.handleChildTaskSubmission hsound now task _ _
  | @scheduling nodeId n conn hreads now frame =>
    rw [Desk.routeFrame]
    split
    · exact h.noteDecline n.key frame
    next i howner =>
    refine (h.noteDecline n.key frame).withScheduler i fun routed hrouted => ?_
    rw [Desk.noteDecline_schedulers] at hrouted
    exact addressed_handleFrame hsound hreads hcond howner hrouted
  | swept i now => exact h.withScheduler i fun routed hrouted => addressed_sweep hsound hcond hrouted

/-- As long as every node to cancel that the directory knows has its connection, each frame goes to the
connection that a node has at that moment. -/
theorem writes_reach_linked_nodes (schedulers : List RoutedScheduler) (events : List LoopEvent)
    (hcond : Throughout step TargetsLinked (start schedulers) events)
    (hrun : runAll step (start schedulers) events = some g) :
    g.desk.nullWrites = [] ∧ ∀ w ∈ g.desk.writes, w.node.isSome = true := by
  have hinv := runAll_invariant (I := fun g : EventLoop => g.net.Sound ∧ g.desk.Reached)
    (fun g e g' hg hcond hstep =>
      ⟨(turn_of_step hg.1 hstep).sound hg.1,reached_of_step hg.2 hg.1 hcond hstep⟩)
    ⟨.empty,rfl,by simp [start]⟩ hcond hrun
  exact ⟨hinv.2.nulls,hinv.2.writes⟩

def twoProbes : List RoutedScheduler := [⟨"",.probe ⟨2,1000,fun _ _ => 0,∅⟩⟩]

/-- Two nodes are probed; the first one declines, the second one pulls. A second task is never
pulled. -/
def probedTwice : List LoopEvent := twoNodes ++ [.httpTask 0 (bareTask "t" "x"),
  .frame "a" 1 (.scheduling (.decline "t" "busy")),.frame "b" 2 (.scheduling (.pull "t")),
  .httpTask 3 (bareTask "u" "x"),.sweep 0 1004]

theorem writes_reach_linked_nodes_probedTwice : Throughout step TargetsLinked (start twoProbes) probedTwice ∧
      ∃ g, runAll step (start twoProbes) probedTwice = some g ∧
        g.desk.nullWrites = [] ∧ ∀ w ∈ g.desk.writes, w.node.isSome = true := by
  have hcond : Throughout step TargetsLinked (start twoProbes) probedTwice := by decide +kernel
  have hruns : (runAll step (start twoProbes) probedTwice).isSome = true := by decide +kernel
  obtain ⟨g,hrun⟩ := Option.isSome_iff_exists.mp hruns
  exact ⟨hcond,g,hrun,writes_reach_linked_nodes twoProbes probedTwice hcond hrun⟩

/-- A probed node loses its connection before the other one pulls. -/
def lostLoser : List LoopEvent := twoNodes ++ [.httpTask 0 (bareTask "t" "x"),.endOfStream "b",.tick,
  .frame "a" 1 (.scheduling (.pull "t"))]

/-- A probed node loses its connection before the deadline of the round. -/
def lostProbed : List LoopEvent := twoNodes ++ [.httpTask 0 (bareTask "t" "x"),.endOfStream "b",.tick,
  .sweep 0 1001]

/-- The cancels of a pull and of a sweep go through a node without a connection. -/
theorem cancel_without_connection :
    (∃ g, runAll step (start twoProbes) lostLoser = some g ∧ g.desk.nullWrites = ["b"]) ∧
      ∃ g, runAll step (start twoProbes) lostProbed = some g ∧ g.desk.nullWrites = ["b"] := by
  have hpull : (runAll step (start twoProbes) lostLoser).map (fun g => g.desk.nullWrites) =
      some ["b"] := by decide +kernel
  have hsweep : (runAll step (start twoProbes) lostProbed).map (fun g => g.desk.nullWrites) =
      some ["b"] := by decide +kernel
  exact ⟨Option.map_eq_some_iff.mp hpull,Option.map_eq_some_iff.mp hsweep⟩

end EventLoop
end Strij.Gateway
