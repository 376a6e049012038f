import Strij.Gateway.SchedulerOutcomes
import Strij.Probe.Invariant

/-! What the probe protocol guarantees in every reachable state: a task is run by one node at most
and with the reservation made for it, and a finished round leaves no reservation behind. -/
namespace Strij.Probe
open Strij.Gateway Strij.NodeAgent Strij.Wire

section Frames
variable {id : String} {frame : GatewayFrame}

lemma downOf_eq_probe : downOf id frame = some .probe ↔ ∃ probe, frame = .probe probe ∧ probe.id = id := by
  cases frame <;> simp [downOf]

lemma downOf_eq_grant : downOf id frame = some .grant ↔ ∃ task, frame = .grant task ∧ task.id = id := by
  cases frame <;> simp [downOf]

lemma downOf_eq_cancel : downOf id frame = some .cancel ↔ frame = .cancel id := by
  cases frame <;> simp [downOf]

lemma upOf_eq_decline {frame : NodeFrame} :
    upOf id frame = some .decline ↔ ∃ reason, frame = .decline id reason := by
  cases frame <;> simp [upOf]

lemma isRun_iff {e : NodeEffect} : isRun id e = true ↔
    ∃ task, (e = .handleTask task ∨ e = .noHandler task) ∧ task.id = id := by
  cases e <;> simp [isRun]

end Frames

namespace System
variable {s t : System} {n id : String}

lemma probe_mem_sent : Down.probe ∈ (s.view id n).sent ↔ s.Probed n id := by
  simp only [view,sentTo,List.mem_filterMap,downOf_eq_probe,Probed]
  constructor
  · rintro ⟨_,hmem,probe,rfl,hid⟩
    exact ⟨probe,hmem,hid⟩
  · rintro ⟨probe,hmem,hid⟩
    exact ⟨_,hmem,probe,rfl,hid⟩

lemma grant_mem_sent : Down.grant ∈ (s.view id n).sent ↔ s.Granted n id := by
  simp only [view,sentTo,List.mem_filterMap,downOf_eq_grant,Granted]
  constructor
  · rintro ⟨_,hmem,task,rfl,hid⟩
    exact ⟨task,hmem,hid⟩
  · rintro ⟨task,hmem,hid⟩
    exact ⟨_,hmem,task,rfl,hid⟩

lemma cancel_mem_sent : Down.cancel ∈ (s.view id n).sent ↔ s.Cancelled n id := by
  simp [view,sentTo,List.mem_filterMap,downOf_eq_cancel,Cancelled]

lemma decline_mem_replied : Up.decline ∈ (s.view id n).replied ↔ s.Declined n id := by
  simp only [view,answers,List.mem_filterMap,upOf_eq_decline,Declined]
  constructor
  · rintro ⟨_,hmem,reason,rfl⟩
    exact ⟨reason,hmem⟩
  · rintro ⟨reason,hmem⟩
    exact ⟨_,hmem,reason,rfl⟩

lemma consumed_pos : 0 < (s.view id n).consumed ↔ s.Consumed n id := by
  simp only [view,List.countP_pos_iff,isRun_iff,Consumed]
  constructor
  · rintro ⟨e,hmem,task,rfl | rfl,hid⟩
    · exact ⟨task,.inl hmem,hid⟩
    · exact ⟨task,.inr hmem,hid⟩
  · rintro ⟨task,hmem | hmem,hid⟩
    · exact ⟨_,hmem,task,.inl rfl,hid⟩
    · exact ⟨_,hmem,task,.inr rfl,hid⟩

lemma Granted.effect (h : s.Granted n id) :
    ∃ task : Task, .write (connection n) (.grant task) ∈ s.effects ∧ task.id = id := by
  obtain ⟨task,hmem,hid⟩ := h
  obtain ⟨e,he,hframe⟩ := List.mem_filterMap.mp hmem
  refine ⟨task,?_,hid⟩
  cases e with
  | write conn frame =>
    simp only [Option.ite_none_right_eq_some,Option.some.injEq] at hframe
    obtain ⟨rfl,rfl⟩ := hframe
    exact he
  | nullWrite m frame => simp at hframe
  | put i r m => simp at hframe
  | deliverError r message status => simp at hframe

lemma eq_of_mem_of_length_le_one {α : Type} {l : List α} {a b : α} (h : l.length ≤ 1) (ha : a ∈ l)
    (hb : b ∈ l) : a = b := by
  obtain hnil | ⟨x,hx⟩ := Nat.le_one_iff_eq_zero_or_eq_one.mp h |>.imp List.length_eq_zero_iff.mp
    List.length_eq_one_iff.mp
  · simp [hnil] at ha
  · rw [hx,List.mem_singleton] at ha hb
    rw [ha,hb]

lemma Inv.granted_eq (h : s.Inv) {m : String} (hn : s.Granted n id) (hm : s.Granted m id) : n = m := by
  obtain ⟨a,ha,haid⟩ := hn.effect
  obtain ⟨b,hb,hbid⟩ := hm.effect
  have hone := h.ledger.grants_le_one id
  rw [grants,List.countP_eq_length_filter] at hone
  have hmem : ∀ {k : String} {task : Task}, .write (connection k) (.grant task) ∈ s.effects →
      task.id = id → .write (connection k) (.grant task) ∈ s.effects.filter (Effect.isGrant id) :=
    fun hk hid => List.mem_filter.mpr ⟨hk,by simp [Effect.isGrant,hid]⟩
  have heq := eq_of_mem_of_length_le_one hone (hmem ha haid) (hmem hb hbid)
  exact connection_inj.mp (Effect.write.inj heq).1

/-- In every reachable state a task has been run by at most one node, no node was sent both a grant
and a cancel for it, and no grant was dropped because its reservation was gone. -/
theorem mutual_exclusion (s : System) (h : s.Initial) (events : List SystemEvent) (t : System)
    (hrun : s.run events = some t) (id : String) : (∀ n m, t.Consumed n id → t.Consumed m id → n = m) ∧
    (∀ n, ¬(t.Granted n id ∧ t.Cancelled n id)) ∧ ∀ n, .strayGrant id ∉ t.log n := by
  have hinv := h.inv.run hrun
  refine ⟨fun n m hn hm => ?_,fun n hboth => ?_,fun n hmem => ?_⟩
  · have hgranted : ∀ k, t.Consumed k id → t.Granted k id := by
      intro k hk
      obtain ⟨-,-,hgrant,-⟩ := (hinv.legal id k).exclusive
      exact grant_mem_sent.mp (hgrant (consumed_pos.mpr hk))
    exact hinv.granted_eq (hgranted n hn) (hgranted m hm)
  · exact (hinv.legal id n).exclusive.1 ⟨grant_mem_sent.mpr hboth.1,cancel_mem_sent.mpr hboth.2⟩
  · have hstray : (t.log n).countP (isStray id) = 0 := (hinv.legal id n).exclusive.2.1
    rw [List.countP_eq_zero] at hstray
    simpa [isStray] using hstray _ hmem

/-- Nodes with one pool and a handler for `echo`, and a gateway that probes two of them. -/
def echoSystem : System where
  gateway := ⟨2,3,fun _ _ => 0,∅⟩
  nodes _ := {
    admission := .ofCapabilities { pools := [⟨"cpu",4⟩], handlers := [⟨"echo",2⟩] }
    handlers := fun type => type = "echo"
    maxConcurrentPreallocations := 2
    queue := ⟨4,[]⟩ }

lemma echoSystem_initial : echoSystem.Initial where
  pending := rfl
  idle _ := ⟨rfl,rfl,rfl,rfl⟩
  admission _ := ⟨_,rfl⟩
  channels _ := ⟨rfl,rfl⟩
  history := ⟨rfl,rfl,fun _ => rfl⟩

/-- Both nodes reserve; the pull of the second arrives first, it runs the task and the other node's
reservation is cancelled. -/
def echoRun : List SystemEvent :=
  [.schedule ⟨"t","echo",⟨[("cpu",3)],List.nodup_singleton "cpu"⟩,[]⟩ (.client 5) ["a","b"] 0,.toNode "a" (fun _ => true),
    .toNode "b" (fun _ => true),.toGateway "b",.toGateway "a",.toNode "a" (fun _ => true),
    .toNode "b" (fun _ => true),.toNode "a" (fun _ => true)]

/-- The run ends with both nodes' channels empty and no round pending. -/
def echoDone (t : System) : Bool :=
  (t.gateway.pending.lookup "t").isNone &&
    ["a","b"].all (fun n => (t.down n).isEmpty && (t.up n).isEmpty) &&
    t.effects.all (fun
      | .write conn _ => conn = connection "a" || conn = connection "b"
      | _ => true)

lemma echoRun_done : ∃ t, echoSystem.run echoRun = some t ∧ echoDone t = true := by
  have hrun : (echoSystem.run echoRun).any echoDone = true := by decide +kernel
  cases hresult : echoSystem.run echoRun with
  | none => simp [hresult] at hrun
  | some t => exact ⟨t,rfl,by simpa [hresult] using hrun⟩

theorem mutual_exclusion_echo : ∃ t, echoSystem.run echoRun = some t ∧
    (∀ n m, t.Consumed n "t" → t.Consumed m "t" → n = m) ∧
    (∀ n, ¬(t.Granted n "t" ∧ t.Cancelled n "t")) ∧ ∀ n, .strayGrant "t" ∉ t.log n := by
  obtain ⟨t,hrun,-⟩ := echoRun_done
  exact ⟨t,hrun,mutual_exclusion _ echoSystem_initial _ t hrun "t"⟩

def Silent (s : System) (id : String) : Prop :=
  ∀ n, (∀ frame ∈ s.down n, downOf id frame = none) ∧ ∀ frame ∈ s.up n, upOf id frame = none

structure Clean (s : System) (n id : String) : Prop where
  queue : ∀ item ∈ (s.nodes n).queue.items, item.probe.id ≠ id
  pullPending : (s.nodes n).pullPending.lookup id = none
  probed : s.Probed n id → s.Declined n id ∨ s.Cancelled n id ∨ s.Consumed n id
  usage : ¬s.Ran n id → (s.nodes n).attributed id = [] ∧
    ∀ pool, ((s.nodes n).admission.poolInUse.value pool).toNat = held (s.nodes n).scopes pool

/-- In every reachable state a task without a pending round and without frames on their way has left
nothing behind on any node. -/
theorem no_leak (s : System) (h : s.Initial) (events : List SystemEvent) (t : System)
    (hrun : s.run events = some t) (id : String) (hpending : t.gateway.pending.lookup id = none)
    (hsilent : t.Silent id) (n : String) : t.Clean n id := by
  have hinv := h.inv.run hrun
  have hdown : (t.view id n).down = [] := List.filterMap_eq_nil_iff.mpr (hsilent n).1
  have hup : (t.view id n).up = [] := List.filterMap_eq_nil_iff.mpr (hsilent n).2
  obtain ⟨hqueued,hheld,hprobed⟩ :=
    (hinv.legal id n).settled hdown hup (waits_of_none id n hpending)
  have hnone : (t.nodes n).pullPending.lookup id = none := by
    simpa [view,heldBy] using hheld
  constructor
  case queue =>
    intro item hitem
    have hcount := List.countP_eq_zero.mp hqueued item hitem
    simpa using hcount
  case pullPending => exact hnone
  case probed =>
    intro hp
    rw [← probe_mem_sent] at hp
    rw [← decline_mem_replied,← cancel_mem_sent,← consumed_pos]
    exact hprobed hp
  case usage =>
    intro hran
    refine ⟨?_,(hinv.accounted n).pools.inUse⟩
    have hrunning : (t.nodes n).running.filter (fun x => x.1 = id) = [] := by
      refine List.filter_eq_nil_iff.mpr fun x hx hid => hran ?_
      rw [← of_decide_eq_true hid]
      exact hinv.running n x hx
    simp [ProbeLocalScheduler.attributed,hnone,hrunning]

lemma echoRun_silent {t : System} (hrun : echoSystem.run echoRun = some t)
    (hdone : echoDone t = true) : t.Silent "t" := by
  simp only [echoDone,List.all_cons,List.all_nil,Bool.and_true,Bool.and_eq_true,
    List.isEmpty_iff] at hdone
  obtain ⟨⟨-,⟨hda,hua⟩,hdb,hub⟩,hwrites⟩ := hdone
  intro n
  by_cases ha : n = "a"
  · simp [ha,hda,hua]
  by_cases hb : n = "b"
  · simp [hb,hdb,hub]
  -- nothing was ever sent to any other node
  have hsent : sentTo "t" n t.effects = [] := by
    have hnone : writesTo n t.effects = [] := by
      refine List.filterMap_eq_nil_iff.mpr fun e he => ?_
      have hconn := List.all_eq_true.mp hwrites e he
      cases e with
      | write conn frame =>
        simp only [Bool.or_eq_true,decide_eq_true_eq] at hconn
        rcases hconn with rfl | rfl <;> simp [connection_inj,Ne.symm ha,Ne.symm hb]
      | nullWrite m frame => rfl
      | put i r m => rfl
      | deliverError r message status => rfl
    rw [sentTo,hnone]
    rfl
  obtain ⟨hdown,hup⟩ := ((echoSystem_initial.inv.run hrun).legal "t" n).unsent hsent
  exact ⟨List.filterMap_eq_nil_iff.mp hdown,List.filterMap_eq_nil_iff.mp hup⟩

theorem no_leak_echo : ∃ t, echoSystem.run echoRun = some t ∧
    t.gateway.pending.lookup "t" = none ∧ t.Silent "t" ∧ ∀ n, t.Clean n "t" := by
  obtain ⟨t,hrun,hdone⟩ := echoRun_done
  have hpending : t.gateway.pending.lookup "t" = none := by
    simp only [echoDone,Bool.and_eq_true,Option.isNone_iff_eq_none] at hdone
    exact hdone.1.1
  have hsilent := echoRun_silent hrun hdone
  exact ⟨t,hrun,hpending,hsilent,no_leak _ echoSystem_initial _ t hrun "t" hpending hsilent⟩

def Linked (s : System) : Prop :=
  ∀ conn (task : Task), .write conn (.grant task) ∈ s.effects → ∃ n, conn = connection n

lemma Linked.afterGateway (h : s.Linked) {r : ProbeScheduler × List Effect}
    (hr : ∀ conn (task : Task), .write conn (.grant task) ∈ r.2 → ∃ n, conn = connection n) :
    (s.afterGateway r).Linked := by
  intro conn task hmem
  rcases List.mem_append.mp hmem with hmem | hmem
  · exact h conn task hmem
  · exact hr conn task hmem

lemma not_granted_of_quiet {effects : List Effect} {conn : Connection} {task : Task} (h : Quiet effects) :
    .write conn (.grant task) ∉ effects := fun hmem => by
  simpa [Effect.isGrant] using List.countP_eq_zero.mp (h.1 task.id) _ hmem

lemma Linked.step (h : s.Linked) {e : SystemEvent} (hstep : s.step e = some t) : t.Linked := by
  cases e with
  | schedule task receiver candidates now =>
    obtain ⟨-,hstep⟩ := Option.ite_none_right_eq_some.mp hstep
    cases hstep
    refine h.afterGateway fun conn task' hmem => ?_
    rw [ProbeScheduler.schedule] at hmem
    split at hmem
    · simp at hmem
    · exact absurd hmem (not_granted_of_quiet (quiet_probes _ _))
  | sweep now =>
    cases hstep
    refine h.afterGateway fun conn task hmem => ?_
    obtain ⟨⟨id,round⟩,-,-,hexpired⟩ := ProbeScheduler.mem_sweep hmem
    rcases List.mem_append.mp hexpired with hcancel | herror
    · exact absurd hcancel (not_granted_of_quiet (quiet_cancelNodes _ _ _))
    · simp at herror
  | toGateway n =>
    rw [System.step] at hstep
    split at hstep
    · cases hstep
    next frame rest hup =>
    cases hstep
    refine afterGateway h fun conn task hmem => ?_
    cases frame with
    | pull id =>
      simp only [ProbeScheduler.handleFrame,ProbeScheduler.handleTaskPullFrame] at hmem
      split at hmem
      · simp at hmem
      split at hmem
      · simp at hmem
      split at hmem
      · simp at hmem
      · rcases List.mem_append.mp hmem with hmem | hput
        · rcases List.mem_cons.mp hmem with heq | hcancel
          · exact ⟨n,(Effect.write.inj heq).1⟩
          · exact absurd hcancel (not_granted_of_quiet (quiet_cancelNodes _ _ _))
        · simp at hput
    | decline id reason =>
      simp only [ProbeScheduler.handleFrame,ProbeScheduler.handleTaskDeclineFrame] at hmem
      split at hmem
      · simp at hmem
      split at hmem <;> simp at hmem
    | malformed kind => simp [ProbeScheduler.handleFrame] at hmem
    | other typeId => simp [ProbeScheduler.handleFrame] at hmem
  | toNode n cached =>
    rw [System.step] at hstep
    split at hstep
    · cases hstep
    · cases hstep
      exact h
  | command | finishTask | admitOther | releaseOther =>
    cases hstep
    exact h

lemma run_keeps {P : System → Prop} (hP : ∀ s t e, P s → s.step e = some t → P t) (h : P s)
    {events : List SystemEvent} (hrun : s.run events = some t) : P t := by
  induction events generalizing s with
  | nil =>
    cases hrun
    exact h
  | cons e events ih =>
    obtain ⟨s₁,hstep,hrest⟩ := Option.bind_eq_some_iff.mp hrun
    exact ih (hP _ _ _ h hstep) hrest

def runs (s : System) (n id : String) : ℕ := (s.log n).countP (isRun id)

lemma Inv.runs_eq_zero (h : s.Inv) (hnot : ¬s.Granted n id) : s.runs n id = 0 := by
  by_contra hne
  exact hnot (grant_mem_sent.mp ((h.legal id n).exclusive.2.2.1 (Nat.pos_of_ne_zero hne)))

/-- A task whose round is over and about which no frame is on its way was taken by exactly one node, once, with
its receiver stored once and never told of an error; or no node took it, and its receiver was told of one error. -/
theorem settled_once (s : System) (h : s.Initial) (events : List SystemEvent) (t : System)
    (hrun : s.run events = some t) (id : String) (r : Receiver) (hscheduled : (id,r) ∈ t.scheduled)
    (hpending : t.gateway.pending.lookup id = none) (hsilent : t.Silent id) :
    (puts t.effects r = 1 ∧ errors t.effects r = 0 ∧ ∃ n, t.runs n id = 1 ∧ ∀ m, m ≠ n → t.runs m id = 0) ∨
      puts t.effects r = 0 ∧ errors t.effects r = 1 ∧ ∀ n, t.runs n id = 0 := by
  have hinv := h.inv.run hrun
  have hlinked : t.Linked :=
    run_keeps (fun _ _ _ h => h.step) (fun conn task hmem => by simp [h.history.2.1] at hmem) hrun
  obtain ⟨p,hplaced⟩ := hinv.ledger.placed id r hscheduled
  cases p with
  | pending =>
    obtain ⟨⟨round,hround,-⟩,-⟩ := hplaced
    cases hpending.symm.trans hround
  | stored =>
    obtain ⟨-,hputs,hgrants,herrors⟩ := hplaced
    obtain ⟨e,he,hgrant⟩ := List.countP_pos_iff.mp (hgrants ▸ Nat.one_pos : 0 < grants t.effects id)
    obtain ⟨n,hn⟩ : ∃ n, t.Granted n id := by
      cases e with
      | write conn frame =>
        cases frame with
        | grant task =>
          obtain ⟨n,rfl⟩ := hlinked conn task he
          exact ⟨n,task,List.mem_filterMap.mpr ⟨_,he,if_pos rfl⟩,by simpa [Effect.isGrant] using hgrant⟩
        | _ => simp [Effect.isGrant] at hgrant
      | _ => simp [Effect.isGrant] at hgrant
    refine .inl ⟨hputs,herrors,n,?_,fun m hm => hinv.runs_eq_zero fun hgranted => hm (hinv.granted_eq hgranted hn)⟩
    have hdown : (t.view id n).down = [] := List.filterMap_eq_nil_iff.mpr (hsilent n).1
    exact (hinv.legal id n).consumed_eq_one (grant_mem_sent.mpr hn) hdown
  | dropped =>
    obtain ⟨-,hputs,hgrants,herrors⟩ := hplaced
    refine .inr ⟨hputs,herrors,fun n => hinv.runs_eq_zero fun hn => ?_⟩
    obtain ⟨task,hmem,hid⟩ := hn.effect
    simpa [Effect.isGrant,hid] using List.countP_eq_zero.mp hgrants _ hmem

theorem settled_once_echo : ∃ t, echoSystem.run echoRun = some t ∧ ("t",.client 5) ∈ t.scheduled ∧
    ((puts t.effects (.client 5) = 1 ∧ errors t.effects (.client 5) = 0 ∧
        ∃ n, t.runs n "t" = 1 ∧ ∀ m, m ≠ n → t.runs m "t" = 0) ∨
      puts t.effects (.client 5) = 0 ∧ errors t.effects (.client 5) = 1 ∧ ∀ n, t.runs n "t" = 0) := by
  obtain ⟨t,hrun,hdone⟩ := echoRun_done
  have hscheduled : ((echoSystem.run echoRun).any fun t => ("t",.client 5) ∈ t.scheduled) = true := by decide +kernel
  rw [hrun] at hscheduled
  have hpending : t.gateway.pending.lookup "t" = none := by
    simp only [echoDone,Bool.and_eq_true,Option.isNone_iff_eq_none] at hdone
    exact hdone.1.1
  have hscheduled : ("t",.client 5) ∈ t.scheduled := by simpa using hscheduled
  exact ⟨t,hrun,hscheduled,settled_once _ echoSystem_initial _ t hrun "t" _ hscheduled hpending
    (echoRun_silent hrun hdone)⟩

/-- Each node offers these capabilities, and its pools account for the scopes that are alive on it. -/
def Serves (s : System) (capabilities : String → NodeCapabilities) : Prop :=
  ∀ n, (s.nodes n).admission.Offers (capabilities n) ∧ (s.nodes n).Accounted

section Capacity
variable {capabilities : String → NodeCapabilities}

lemma serves_accounting (capabilities : NodeCapabilities) :
    Accounting (fun _ c scopes => c.Offers capabilities ∧ Books c scopes) where
  perm h hp := ⟨h.1,h.2.perm hp⟩
  skip h := h
  admitTask h ha := ⟨h.1.admitTask ha,h.2.admitTask ha⟩
  release h := ⟨h.1.release _,h.2.release⟩

lemma Serves.afterNode (h : s.Serves capabilities) {r : ProbeLocalScheduler × List NodeEffect}
    (hr : r.1.admission.Offers (capabilities n) ∧ r.1.Accounted) : (s.afterNode n r).Serves capabilities := by
  intro m
  by_cases hm : m = n
  · subst hm
    simpa [System.afterNode] using hr
  · simpa [System.afterNode,hm] using h m

lemma Serves.step (h : s.Serves capabilities) {e : SystemEvent} (hstep : s.step e = some t) :
    t.Serves capabilities := by
  have hA := fun n => serves_accounting (capabilities n)
  cases e with
  | schedule =>
    rw [System.step] at hstep
    split at hstep
    · cases hstep
      exact h
    · cases hstep
  | sweep now =>
    cases hstep
    exact h
  | toGateway n =>
    rw [System.step] at hstep
    split at hstep
    · cases hstep
    · cases hstep
      exact h
  | toNode n cached =>
    rw [System.step] at hstep
    split at hstep
    · cases hstep
    · next frame rest _ =>
      cases hstep
      exact Serves.afterNode (s := { s with down := Function.update s.down n rest }) h
        ((hA n).handleFrame (k := 0) frame 0 (h n))
  | command n command cached =>
    cases hstep
    exact h.afterNode ((hA n).processCommand (k := 0) command (h n))
  | finishTask n i =>
    cases hstep
    exact h.afterNode ((hA n).finishTask (k := 0) i (h n))
  | admitOther n taskType r =>
    cases hstep
    exact h.afterNode ((hA n).admitOther (k := 0) taskType r (h n))
  | releaseOther n i =>
    cases hstep
    exact h.afterNode ((hA n).releaseOther (k := 0) i (h n))

end Capacity

end System
end Strij.Probe
