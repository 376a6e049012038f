import Strij.NodeAgent.ProbeAccounts
import Strij.Probe.GatewaySide
import Strij.Probe.NodeSide

/-! The invariant of the composed system: every event is a sequence of steps of each conversation, so all
conversations stay legal. -/
namespace Strij.Probe
open Strij.Gateway Strij.NodeAgent Strij.Wire Relation

namespace System

structure Inv (s : System) : Prop where
  ledger : Ledger s.scheduled s.gateway s.effects
  distinct : Distinct s.scheduled
  rounds : Rounds s.gateway
  room : ∀ n, Node.Room (s.nodes n)
  legal : ∀ id n, (s.view id n).Legal
  unprobed : ∀ id, id ∉ s.scheduled.map Prod.fst → ∀ n, s.view id n = {}
  accounted : ∀ n, (s.nodes n).Accounted
  running : ∀ n x, x ∈ (s.nodes n).running → s.Ran n x.1

section Views
variable (s : System) (id n : String)

lemma view_afterGateway (r : ProbeScheduler × List Effect) : (s.afterGateway r).view id n = { s.view id n with
      outstanding := waits id r.1 n
      down := (s.view id n).down ++ sentTo id n r.2
      sent := (s.view id n).sent ++ sentTo id n r.2 } := by
  simp [view,afterGateway,sentTo]

lemma view_afterNode (r : ProbeLocalScheduler × List NodeEffect) :
    (s.afterNode n r).view id n = (s.view id n).after id r.1 r.2 := by
  simp [view,afterNode,Conversation.after,Conversation.hold,answers]

lemma view_afterNode_ne {m : String} (h : m ≠ n) (r : ProbeLocalScheduler × List NodeEffect) :
    (s.afterNode n r).view id m = s.view id m := by
  simp [view,afterNode,h]

lemma view_shows : (s.view id n).Shows id (s.nodes n) := ⟨rfl,rfl⟩

end Views

lemma Inv.of_steps {s t : System} (h : s.Inv) (hscheduled : t.scheduled = s.scheduled)
    (hsteps : ∀ id n, ReflTransGen Conversation.Step (s.view id n) (t.view id n))
    (hledger : Ledger s.scheduled t.gateway t.effects) (hrounds : Rounds t.gateway)
    (hroom : ∀ n, Node.Room (t.nodes n)) (haccounted : ∀ n, (t.nodes n).Accounted)
    (hrunning : ∀ n x, x ∈ (t.nodes n).running → t.Ran n x.1) : t.Inv where
  ledger := hscheduled ▸ hledger
  distinct := hscheduled ▸ h.distinct
  rounds := hrounds
  room := hroom
  legal id n := (h.legal id n).steps (hsteps id n)
  unprobed id hid n := by
    rw [hscheduled] at hid
    have hsteps := hsteps id n
    rw [h.unprobed id hid n] at hsteps
    exact Conversation.steps_unprobed hsteps
  accounted := haccounted
  running := hrunning

/-- A node event, by what it does to the node and to every conversation with it. -/
lemma Inv.node {s : System} (h : s.Inv) (n : String) (down : List GatewayFrame)
    (r : ProbeLocalScheduler × List NodeEffect) (hsteps : ∀ id, ReflTransGen Conversation.Step (s.view id n)
      ({ s.view id n with down := down.filterMap (downOf id) }.after id r.1 r.2))
    (hroom : Node.Room r.1) (haccounted : r.1.Accounted)
    (hrunning : ∀ x ∈ r.1.running, x ∈ (s.nodes n).running ∨
      ∃ task : Task, .handleTask task ∈ r.2 ∧ task.id = x.1) :
    (afterNode { s with down := Function.update s.down n down } n r).Inv := by
  refine h.of_steps rfl (fun id m => ?_) h.ledger h.rounds (fun m => ?_) (fun m => ?_) (fun m x hx => ?_)
  · by_cases hm : m = n
    · subst hm
      rw [view_afterNode]
      have hview : view { s with down := Function.update s.down m down } id m =
          { s.view id m with down := down.filterMap (downOf id) } := by
        simp [view]
      rw [hview]
      exact hsteps id
    · rw [view_afterNode_ne _ _ _ hm]
      have hview : view { s with down := Function.update s.down n down } id m = s.view id m := by
        simp [view,hm]
      rw [hview]
  · by_cases hm : m = n
    · subst hm
      simpa [afterNode] using hroom
    · simpa [afterNode,hm] using h.room m
  · by_cases hm : m = n
    · subst hm
      simpa [afterNode] using haccounted
    · simpa [afterNode,hm] using h.accounted m
  · by_cases hm : m = n
    · subst hm
      simp only [afterNode,Function.update_self] at hx
      rcases hrunning x hx with hx | ⟨task,htask,hid⟩
      · obtain ⟨task,htask,hid⟩ := h.running m x hx
        exact ⟨task,by simp [afterNode,htask],hid⟩
      · exact ⟨task,by simp [afterNode,htask],hid⟩
    · simp only [afterNode,Function.update_of_ne hm] at hx
      obtain ⟨task,htask,hid⟩ := h.running m x hx
      exact ⟨task,by simpa [afterNode,hm] using htask,hid⟩

section NodeEvents
variable {s : System}

variable (cached : AllCached)
include cached

lemma walkLoop_running (items deferred : List QueuedProbe)
    (a : ProbeLocalScheduler) : (a.walkLoop cached items deferred).1.running = a.running := by
  have hpre : ∀ (a : ProbeLocalScheduler) c probe mailbox,
      (a.preallocate c probe mailbox).1.running = a.running := by
    intro a c probe mailbox
    simp only [ProbeLocalScheduler.preallocate,ProbeLocalScheduler.assignPullPending]
    split <;> rfl
  induction items generalizing deferred a with
  | nil => rfl
  | cons item rest ih =>
    rw [ProbeLocalScheduler.walkLoop]
    split
    · rfl
    split
    · exact ih _ _
    split
    · exact (ih _ _).trans (hpre _ _ _ _)
    · exact ih _ _
    · exact ih _ _

lemma walk_running (a : ProbeLocalScheduler) : (a.walk cached).1.running = a.running :=
  walkLoop_running cached a.queue.items [] a

lemma handleProbe_running (probe : TaskProbe) (mailbox : Mailbox)
    (a : ProbeLocalScheduler) : (a.handleProbe cached probe mailbox).1.running = a.running := by
  rw [ProbeLocalScheduler.handleProbe]
  split
  · simp only [ProbeLocalScheduler.preallocate,ProbeLocalScheduler.assignPullPending]
    split <;> rfl
  · rfl
  · split <;> rfl

lemma handleFrame_running (frame : GatewayFrame) (mailbox : Mailbox)
    (a : ProbeLocalScheduler) : ∀ x ∈ (a.handleFrame cached frame mailbox).2.1.running, x ∈ a.running ∨
      ∃ task : Task, .handleTask task ∈ (a.handleFrame cached frame mailbox).2.2 ∧ task.id = x.1 := by
  intro x hx
  cases frame with
  | probe probe =>
    have hrunning : (a.handleFrame cached (.probe probe) mailbox).2.1.running = a.running :=
      (handleProbe_running cached probe mailbox _).trans (walk_running cached a)
    exact .inl (hrunning ▸ hx)
  | grant task =>
    simp only [ProbeLocalScheduler.handleFrame,ProbeLocalScheduler.handleGrant] at hx ⊢
    split at hx
    · exact .inl hx
    · next p hp =>
      simp only [ProbeLocalScheduler.runTask] at hx ⊢
      split at hx
      · next hhandler =>
        rcases List.mem_append.mp hx with hx | hx
        · exact .inl hx
        · cases List.mem_singleton.mp hx
          refine .inr ⟨task,?_,rfl⟩
          simp [hhandler]
      · exact .inl hx
  | cancel id =>
    simp only [ProbeLocalScheduler.handleFrame,ProbeLocalScheduler.handleCancel] at hx
    split at hx <;> exact .inl hx
  | submission task => exact .inl hx
  | malformed kind => exact .inl hx
  | other typeId => exact .inl hx

variable (h : s.Inv)
include h

theorem Inv.toNode {n : String} {frame : GatewayFrame}
    {rest : List GatewayFrame} (hdown : s.down n = frame :: rest) :
    (afterNode { s with down := Function.update s.down n rest } n
      ((s.nodes n).handleFrame cached frame 0).2).Inv := by
  have hview : ∀ id, (s.view id n).down = (downOf id frame).toList ++ rest.filterMap (downOf id) := by
    intro id
    cases hd : downOf id frame <;> simp [view,hdown,hd]
  have hsim : ∀ id, _ := fun id =>
    Node.handleFrame_sim cached (h.room n) (s.view_shows id n) frame 0 (hview id)
  exact h.node n rest _ (fun id => (hsim id).1) (hsim "").2
    (ProbeLocalScheduler.handleFrame_accounted cached frame 0 (h.accounted n))
    (handleFrame_running cached frame 0 (s.nodes n))

omit cached

lemma Inv.local (n : String) (r : ProbeLocalScheduler × List NodeEffect)
    (hsteps : ∀ id, ReflTransGen Conversation.Step (s.view id n) ((s.view id n).after id r.1 r.2))
    (hroom : Node.Room r.1) (haccounted : r.1.Accounted)
    (hrunning : ∀ x ∈ r.1.running, x ∈ (s.nodes n).running) : (s.afterNode n r).Inv := by
  have hself : ({ s with down := Function.update s.down n (s.down n) } : System) = s := by
    rw [Function.update_eq_self]
  have hnode := h.node n (s.down n) r hsteps hroom haccounted (fun x hx => .inl (hrunning x hx))
  rwa [hself] at hnode

theorem Inv.command (n : String) (command : CommandType) (cached : AllCached) :
    (s.afterNode n ((s.nodes n).processCommand cached command)).Inv := by
  have haccounted := ProbeLocalScheduler.processCommand_accounted cached command (h.accounted n)
  have hwalk : ∀ id, _ := fun id => Node.walk_sim cached (h.room n) (s.view_shows id n)
  cases command with
  | capacityReleased =>
    exact h.local n _ (fun id => (hwalk id).1) (hwalk "").2 haccounted
      (fun x hx => by rwa [ProbeLocalScheduler.processCommand,walk_running] at hx)
  | depCompleted =>
    exact h.local n _ (fun id => (hwalk id).1) (hwalk "").2 haccounted
      (fun x hx => by rwa [ProbeLocalScheduler.processCommand,walk_running] at hx)
  | other =>
    refine h.local n _ (fun id => ?_) (h.room n) haccounted (fun x hx => hx)
    exact Node.after_unrelated (s.view_shows id n) rfl rfl rfl rfl rfl

lemma Inv.capacity (n : String) {t : ProbeLocalScheduler}
    (hq : t.queue = (s.nodes n).queue) (hp : t.pullPending = (s.nodes n).pullPending)
    (haccounted : t.Accounted) (hrunning : ∀ x ∈ t.running, x ∈ (s.nodes n).running) :
    (s.afterNode n (t,[])).Inv := by
  refine h.local n _ (fun id => ?_) (by rw [Node.Room,hq]; exact h.room n) haccounted hrunning
  exact Node.after_unrelated (s.view_shows id n) (by rw [hq]) (by rw [heldBy,hp,heldBy]) rfl rfl rfl

theorem Inv.finishTask (n : String) (i : ℕ) : (s.afterNode n ((s.nodes n).finishTask i,[])).Inv := by
  have haccounted := ProbeLocalScheduler.finishTask_accounted i (h.accounted n)
  rw [ProbeLocalScheduler.finishTask] at haccounted ⊢
  split at haccounted
  · exact h.capacity n rfl rfl haccounted (fun x hx => hx)
  · exact h.capacity n rfl rfl haccounted (fun x hx => List.mem_of_mem_eraseIdx hx)

theorem Inv.admitOther (n taskType : String) (r : ResourceRequirements) :
    (s.afterNode n ((s.nodes n).admitOther taskType r,[])).Inv := by
  have haccounted := ProbeLocalScheduler.admitOther_accounted taskType r (h.accounted n)
  rw [ProbeLocalScheduler.admitOther] at haccounted ⊢
  split at haccounted <;> exact h.capacity n rfl rfl haccounted (fun x hx => hx)

theorem Inv.releaseOther (n : String) (i : ℕ) : (s.afterNode n ((s.nodes n).releaseOther i,[])).Inv := by
  have haccounted := ProbeLocalScheduler.releaseOther_accounted i (h.accounted n)
  rw [ProbeLocalScheduler.releaseOther] at haccounted ⊢
  split at haccounted <;> exact h.capacity n rfl rfl haccounted (fun x hx => hx)

end NodeEvents

end System

namespace Conversation

/-- The gateway worked: it now waits for the node or not, has read up to `up`, and sent `new`. -/
def served (c : Conversation) (out : Bool) (up : List Up) (new : List Down) : Conversation :=
  { c with outstanding := out, up := up, down := c.down ++ new, sent := c.sent ++ new }

variable {c : Conversation} {up : List Up} {out : Bool} {new : List Down}

lemma served_same (hout : out = c.outstanding) (hup : up = c.up) (hnew : new = []) :
    ReflTransGen Step c (c.served out up new) := by
  subst hout hup hnew
  rw [served,List.append_nil,List.append_nil]

lemma served_grant (hc : c.outstanding = true) (hout : out = false) (hup : c.up = .pull :: up)
    (hnew : new = [.grant]) : ReflTransGen Step c (c.served out up new) := by
  subst hout hnew
  exact .single (.grant hc hup)

lemma served_close (hc : c.outstanding = true) (hout : out = false) (hup : up = c.up)
    (hnew : new = [.cancel]) : ReflTransGen Step c (c.served out up new) := by
  subst hout hup hnew
  exact .single (.close hc)

lemma served_revoke (hc : c.outstanding = false) (hout : out = false) (hup : c.up = .pull :: up)
    (hnew : new = [.cancel]) : ReflTransGen Step c (c.served out up new) := by
  subst hout hnew
  have hstep := Step.revoke hc hup
  rw [← hc]
  exact .single hstep

lemma served_hearDecline (hout : out = false) (hup : c.up = .decline :: up) (hnew : new = []) :
    ReflTransGen Step c (c.served out up new) := by
  subst hout hnew
  rw [served,List.append_nil,List.append_nil]
  exact .single (.hearDecline hup)

end Conversation

namespace System
section GatewayEvents
variable {s : System} {rest : List NodeFrame} {m n : String}

/-- A gateway event, by what it does to the gateway and to every conversation. -/
lemma Inv.gateway (h : s.Inv) (up : String → List NodeFrame) (r : ProbeScheduler × List Effect)
    (hsteps : ∀ id n, ReflTransGen Conversation.Step (s.view id n)
      ((s.view id n).served (waits id r.1 n) ((up n).filterMap (upOf id)) (sentTo id n r.2)))
    (hledger : Ledger s.scheduled r.1 (s.effects ++ r.2)) (hrounds : Rounds r.1) :
    (afterGateway { s with up := up } r).Inv := by
  refine h.of_steps rfl (fun id n => ?_) hledger hrounds h.room h.accounted h.running
  rw [view_afterGateway]
  exact hsteps id n

theorem Inv.sweep (h : s.Inv) (now : ℤ) :
    (s.afterGateway (s.gateway.sweepExpired (directory []) now)).Inv := by
  have hentries : ∀ x ∈ s.gateway.pending.entries, s.gateway.pending.lookup x.1 = some x.2 :=
    fun x hx => AList.mem_lookup_iff.mpr hx
  have hview := fun id n => sweep_view now id n s.gateway.pending.nodupKeys hentries h.rounds
  refine h.gateway s.up _ (fun id n => ?_) (ProbeScheduler.sweep_ledger _ now h.distinct
    s.gateway.pending.nodupKeys hentries h.ledger) (hview "" "").1
  obtain ⟨-,⟨hwaits,hsent⟩ | ⟨hout,hwaits,hsent⟩⟩ := hview id n
  · exact Conversation.served_same hwaits rfl hsent
  · exact Conversation.served_close hout hwaits rfl hsent

lemma view_up {frame : NodeFrame} (hup : s.up n = frame :: rest) (id : String) :
    (s.view id n).up = (upOf id frame).toList ++ rest.filterMap (upOf id) := by
  cases hf : upOf id frame <;> simp [view,hup,hf]

lemma view_up_ne (hm : m ≠ n) (rest : List NodeFrame) (id : String) :
    ((Function.update s.up m rest) n).filterMap (upOf id) = (s.view id n).up := by
  rw [Function.update_of_ne (Ne.symm hm)]
  rfl

theorem Inv.pull (h : s.Inv) {i : String} (hup : s.up m = .pull i :: rest) :
    (afterGateway { s with up := Function.update s.up m rest }
      (s.gateway.handleTaskPullFrame (directory []) i (connection m)).2).Inv := by
  obtain ⟨hrounds,hview⟩ := pull_view h.rounds i m
  refine h.gateway _ _ (fun id n => ?_)
    (ProbeScheduler.handleTaskPullFrame_ledger h.ledger h.distinct _ i _) hrounds
  obtain ⟨hwaits,hsent⟩ := hview id n
  by_cases hi : i = id
  swap
  · -- the pull is about another task
    refine Conversation.served_same (by simpa [view,hi] using hwaits) ?_ (by simpa [hi] using hsent)
    by_cases hm : m = n
    · subst hm
      simp [view_up hup,upOf,hi]
    · exact view_up_ne hm rest id
  subst hi
  by_cases hm : m = n
  · subst hm
    have hpull : (s.view i m).up = .pull :: ((Function.update s.up m rest) m).filterMap (upOf i) := by
      simp [view_up hup,upOf]
    by_cases hout : waits i s.gateway m = true
    · exact Conversation.served_grant hout (by simpa [hout] using hwaits) hpull
        (by simpa [hout] using hsent)
    · rw [Bool.not_eq_true] at hout
      exact Conversation.served_revoke hout (by simpa [hout] using hwaits) hpull
        (by simpa [hout] using hsent)
  -- another node's pull: it wins the round, or there is none
  by_cases hwinner : waits i s.gateway m = true
  · by_cases hout : waits i s.gateway n = true
    · exact Conversation.served_close hout (by simpa [hwinner] using hwaits) (view_up_ne hm rest i)
        (by simpa [hm,hout,hwinner] using hsent)
    · rw [Bool.not_eq_true] at hout
      exact Conversation.served_same (by simpa [view,hout] using hwaits) (view_up_ne hm rest i)
        (by simpa [hm,hout] using hsent)
  · exact Conversation.served_same (by simpa [view,hwinner] using hwaits) (view_up_ne hm rest i)
      (by simpa [hm,hwinner] using hsent)

theorem Inv.decline (h : s.Inv) {i reason : String} (hup : s.up m = .decline i reason :: rest) :
    (afterGateway { s with up := Function.update s.up m rest }
      (s.gateway.handleTaskDeclineFrame i reason (connection m)).2).Inv := by
  obtain ⟨hrounds,hview⟩ := decline_view h.rounds i reason m
  refine h.gateway _ _ (fun id n => ?_)
    (ProbeScheduler.handleTaskDeclineFrame_ledger h.ledger h.distinct i reason _) hrounds
  obtain ⟨hwaits,hsent⟩ := hview id n
  by_cases hm : m = n
  · subst hm
    by_cases hi : i = id
    · exact Conversation.served_hearDecline (by simpa [hi] using hwaits)
        (by simp [view_up hup,upOf,hi]) hsent
    · exact Conversation.served_same (by simpa [view,hi] using hwaits) (by simp [view_up hup,upOf,hi])
        hsent
  · exact Conversation.served_same (by simpa [view,hm] using hwaits) (view_up_ne hm rest id) hsent

lemma Inv.skip (h : s.Inv) {frame : NodeFrame}
    (hup : s.up m = frame :: rest) (hframe : ∀ id, upOf id frame = none) :
    (afterGateway { s with up := Function.update s.up m rest } (s.gateway,[])).Inv := by
  refine h.gateway _ _ (fun id n => ?_) (by simpa using h.ledger) h.rounds
  refine Conversation.served_same rfl ?_ rfl
  by_cases hm : m = n
  · subst hm
    simp [view_up hup,hframe]
  · exact view_up_ne hm rest id

theorem Inv.toGateway (h : s.Inv) {frame : NodeFrame} (hup : s.up m = frame :: rest) :
    (afterGateway { s with up := Function.update s.up m rest }
      (s.gateway.handleFrame (directory []) frame (connection m)).2).Inv := by
  cases frame with
  | pull i => exact h.pull hup
  | decline i reason => exact h.decline hup
  | malformed kind => exact h.skip hup (fun _ => rfl)
  | other typeId => exact h.skip hup (fun _ => rfl)

/-- A new task: only its own conversations change, with the nodes that are probed. -/
theorem Inv.schedule (h : s.Inv) {task : Task} {receiver : Receiver} {candidates : List String}
    (now : ℤ) (hc : candidates.Nodup) (hid : task.id ∉ s.scheduled.map Prod.fst)
    (hr : receiver ∉ s.scheduled.map Prod.snd) :
    Inv { s.afterGateway (s.gateway.schedule (directory candidates) now task receiver) with
      scheduled := s.scheduled ++ [(task.id,receiver)] } := by
  have hnew : s.gateway.pending.lookup task.id = none := by
    cases hround : s.gateway.pending.lookup task.id with
    | none => rfl
    | some round => exact absurd (List.mem_map_of_mem (h.ledger.owned _ _ hround).1) hid
  have hd : Distinct (s.scheduled ++ [(task.id,receiver)]) := by
    refine ⟨?_,?_⟩ <;> rw [List.map_append,List.map_singleton,← List.concat_eq_append]
    · exact List.Nodup.concat hid h.distinct.ids
    · exact List.Nodup.concat hr h.distinct.receivers
  obtain ⟨hrounds,sampled,hview⟩ := schedule_view hc now task receiver hnew h.rounds
  have hsame : ∀ id, task.id ≠ id → ∀ n,
      view (s.afterGateway (s.gateway.schedule (directory candidates) now task receiver)) id n =
        s.view id n := by
    intro id hne n
    obtain ⟨hwaits,hsent⟩ := hview id n
    rw [view_afterGateway,hwaits,hsent]
    simp [view,hne]
  refine ⟨ProbeScheduler.schedule_ledger h.ledger _ now task receiver hd hnew,hd,hrounds,h.room,
    fun id n => ?_,fun id hother n => ?_,h.accounted,h.running⟩
  · change (view (s.afterGateway _) id n).Legal
    by_cases hne : task.id = id
    · subst hne
      obtain ⟨hwaits,hsent⟩ := hview task.id n
      rw [view_afterGateway,hwaits,hsent,h.unprobed _ hid n]
      by_cases hn : n ∈ sampled
      · simpa [hn] using Conversation.Legal.probing
      · simpa [hn] using Conversation.Legal.unprobed
    · rw [hsame id hne n]
      exact h.legal id n
  · change view (s.afterGateway _) id n = {}
    simp only [List.map_append,List.map_singleton,List.mem_append,List.mem_singleton,not_or] at hother
    rw [hsame id (Ne.symm hother.2) n]
    exact h.unprobed id hother.1 n

end GatewayEvents

section Runs
variable {s t : System}

lemma Initial.inv (h : s.Initial) : s.Inv := by
  obtain ⟨hscheduled,heffects,hlog⟩ := h.history
  have hview : ∀ id n, s.view id n = {} := by
    intro id n
    obtain ⟨hqueue,hpull,-,-⟩ := h.idle n
    obtain ⟨hdown,hup⟩ := h.channels n
    simp [view,waits,h.pending,hdown,hup,hqueue,queuedIn,heldBy,hpull,heffects,hlog,answers,enqueued]
  refine ⟨?_,?_,fun id round hround => ?_,fun n => ?_,fun id n => ?_,fun id _ n => hview id n,
    fun n => ?_,fun n x hx => ?_⟩
  · rw [hscheduled,heffects]
    exact .start h.pending
  · rw [hscheduled]
    exact ⟨.nil,.nil⟩
  · simp [h.pending] at hround
  · simp [Node.Room,(h.idle n).1]
  · rw [hview]
    exact .unprobed
  · obtain ⟨-,hpull,hrunning,hothers⟩ := h.idle n
    obtain ⟨capabilities,hadmission⟩ := h.admission n
    have hscopes : (s.nodes n).scopes = [] := by
      simp [ProbeLocalScheduler.scopes,ProbeLocalScheduler.heldScopes,hpull,hrunning,hothers]
    rw [ProbeLocalScheduler.Accounted,hadmission,hscopes]
    exact .start capabilities
  · simp [(h.idle n).2.2.1] at hx

theorem Inv.step (h : s.Inv) {e : SystemEvent} (hstep : s.step e = some t) : t.Inv := by
  cases e with
  | schedule task receiver candidates now =>
    simp only [System.step] at hstep
    split at hstep
    · next hnew =>
      cases hstep
      exact h.schedule now hnew.1 hnew.2.1 hnew.2.2
    · cases hstep
  | sweep now =>
    cases hstep
    exact h.sweep now
  | toGateway n =>
    simp only [System.step] at hstep
    split at hstep
    · cases hstep
    · next hup =>
      cases hstep
      exact h.toGateway hup
  | toNode n cached =>
    simp only [System.step] at hstep
    split at hstep
    · cases hstep
    · next hdown =>
      cases hstep
      exact h.toNode cached hdown
  | command n command cached =>
    cases hstep
    exact h.command n command cached
  | finishTask n i =>
    cases hstep
    exact h.finishTask n i
  | admitOther n taskType r =>
    cases hstep
    exact h.admitOther n taskType r
  | releaseOther n i =>
    cases hstep
    exact h.releaseOther n i

theorem Inv.run (h : s.Inv) {events : List SystemEvent} (hrun : s.run events = some t) : t.Inv := by
  induction events generalizing s with
  | nil =>
    cases hrun
    exact h
  | cons e events ih =>
    rw [System.run,List.foldlM_cons] at hrun
    obtain ⟨u,hu,hrest⟩ := Option.bind_eq_some_iff.mp hrun
    exact ih (h.step hu) hrest

end Runs
end System
end Strij.Probe
