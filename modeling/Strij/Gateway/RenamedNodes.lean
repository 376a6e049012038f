import Strij.Gateway.Custody

/-! Probe rounds and the ids of nodes. A round remembers the nodes it probed by the ids they had; pulls,
declines and cancels go by the ids that nodes have now. -/
namespace Strij.Gateway
open Strij.Lib Strij.Wire

lemma ProbeScheduler.expire_subset_sweep {directory : NodeDirectory} {now : ℤ} {s : ProbeScheduler}
    {entries : List (Sigma (fun _ : String => PendingProbe))} {x : Sigma (fun _ : String => PendingProbe)}
    (hmem : x ∈ entries) (hlate : x.2.deadline < now) :
    expire directory x.1 x.2 ⊆ (sweep directory now entries s).2 := by
  induction entries generalizing s with
  | nil => cases hmem
  | cons y entries ih =>
    obtain ⟨k,other⟩ := y
    rw [sweep]
    rcases List.mem_cons.mp hmem with rfl | hmem
    · rw [if_neg (not_le.mpr hlate)]
      exact List.subset_append_left _ _
    · split
      · exact ih hmem
      · exact fun e he => List.mem_append_right _ (ih hmem he)

namespace Desk
variable {net : Network} {d : Desk} {task : Task} {nodeId : String} {i : ℕ}
  {effects : List Effect} {n : NodeRecord}

lemma perform_written (h : (d.perform net effects).hung = false) :
    (d.perform net effects).writes = d.writes ++ effects.filterMap (written net) := by
  induction effects generalizing d with
  | nil => simp [perform]
  | cons e effects ih =>
    by_cases hung : d.hung = true
    · rw [perform_of_hung hung,hung] at h
      cases h
    rw [perform,if_neg hung] at h ⊢
    rw [ih h,List.filterMap_cons]
    cases e with
    | write conn frame => simp [effect,write,written]
    | nullWrite nodeId frame => rfl
    | put id r nodeId => rfl
    | deliverError r message status =>
      obtain ⟨s,hung,heq⟩ := d.settle_eq (d.storage.call r (.deliverError message status))
      rw [effect,heq]
      rfl

lemma perform_running (h : ∀ e ∈ effects, ∀ r message status, e ≠ .deliverError r message status)
    (hd : d.hung = false) : (d.perform net effects).hung = false := by
  induction effects generalizing d with
  | nil => exact hd
  | cons e effects ih =>
    rw [perform,if_neg (by simp [hd])]
    refine ih (fun e he => h e (List.mem_cons_of_mem _ he)) ?_
    cases e with
    | deliverError r message status => exact absurd rfl (h _ List.mem_cons_self r message status)
    | _ => exact hd

lemma written_cancel (h : net.Sound) {l : Link} (hget : net.getNode nodeId = some n)
    (hlink : n.link = some l) (id : String) {nodeIds : List String} (hmem : nodeId ∈ nodeIds) :
    ⟨l.key,some n.key,l.isOpen,.cancel id⟩ ∈
      (ProbeScheduler.cancelNodes net.directory.answers id nodeIds).filterMap (written net) := by
  refine List.mem_filterMap.mpr ⟨_,List.mem_filterMap.mpr ⟨nodeId,hmem,?_⟩,written_view h hget hlink _⟩
  exact congrArg (Option.map (fun node : Node => node.write (.cancel id)) ∘ Option.map NodeRecord.view) hget

/-- The round of the task, where it is pending, has the task and lists the node id. -/
def Lists (d : Desk) (task : Task) (nodeId : String) : Prop :=
  ∀ routed ∈ d.schedulers, ∀ round, routed.scheduler.pending.lookup task.id = some round →
    round.task = task ∧ nodeId ∈ round.probedNodeIds

namespace Lists

variable (h : d.Lists task nodeId)
include h

lemma of_eq {d' : Desk} (hschedulers : d'.schedulers = d.schedulers) :
    d'.Lists task nodeId := fun routed hrouted => h routed (hschedulers ▸ hrouted)

lemma operate {op : GatewayScheduler → GatewayScheduler × List Effect}
    (hop : ∀ routed, d.schedulers[i]? = some routed →
      ∀ round', (op routed.scheduler).1.pending.lookup task.id = some round' →
        ∃ round, routed.scheduler.pending.lookup task.id = some round ∧ round'.task = round.task ∧
          (nodeId ∈ round.probedNodeIds → nodeId ∈ round'.probedNodeIds)) :
    (d.withScheduler net i op).Lists task nodeId := by
  rw [withScheduler]
  split
  · exact h
  next routed hrouted =>
  intro routed' hrouted' round' hround'
  rw [(perform_extends net _ _).schedulers] at hrouted'
  rcases List.mem_or_eq_of_mem_set hrouted' with hmem | rfl
  · exact h routed' hmem round' hround'
  · obtain ⟨round,hround,htask,hleft⟩ := hop routed hrouted round' hround'
    obtain ⟨hsame,hlisted⟩ := h routed (List.mem_of_getElem? hrouted) round hround
    exact ⟨htask.trans hsame,hleft hlisted⟩

lemma schedule {other : Task} (hid : other.id ≠ task.id) (now : ℤ) (r : Receiver) :
    (d.withScheduler net i (·.schedule net.directory now other r)).Lists task nodeId := by
  refine h.operate fun routed hrouted round' hround' => ?_
  have hout := routed.scheduler.scheduled net.directory now other r
  generalize routed.scheduler.schedule net.directory now other r = out at hout hround'
  cases hout with
  | refused hsame message status => exact ⟨round',hsame.pending ▸ hround',rfl,id⟩
  | pushed hsame hn => exact ⟨round',hsame.pending ▸ hround',rfl,id⟩
  | probed hs hne hn deadline =>
    rw [hs]
    exact ⟨round',(AList.lookup_insert_ne hid.symm).symm.trans hround',rfl,id⟩

lemma sweep (now : ℤ) : (d.withScheduler net i (·.sweepExpired net.directory now)).Lists task nodeId := by
  refine h.operate fun routed hrouted round' hround' => ⟨round',?_,rfl,id⟩
  cases hs : routed.scheduler with
  | roundRobin nextIndex => rwa [hs] at hround'
  | capabilityAware quotient => rwa [hs] at hround'
  | probe p =>
    rw [hs] at hround'
    exact ProbeScheduler.sweep_lookup hround'

lemma frame {frame : NodeFrame} {conn : Connection}
    (hframe : ∀ reason, frame = .decline task.id reason → conn.owner ≠ some nodeId)
    (howner : findFrameOwner d.schedulers (frameType frame) = some i) :
    (d.withScheduler net i (·.handleFrame net.directory frame conn)).Lists task nodeId := by
  refine h.operate fun routed hrouted round' hround' => ?_
  have hout := routed.scheduler.framed net.directory frame conn
    fun id hid => List.ne_nil_of_mem (mem_handledFrameTypes howner hrouted)
  generalize routed.scheduler.handleFrame net.directory frame conn = out at hout hround'
  cases hout with
  | ignored _ => exact ⟨round',hround',rfl,id⟩
  | revoked hs hpull _ => exact ⟨round',hround',rfl,id⟩
  | exhausted hs hdecline hround =>
    rw [hs]
    exact ⟨round',(lookup_erase_eq_some hround').2,rfl,id⟩
  | granted hs hpull hround hwinner hprobed =>
    rw [hs]
    exact ⟨round',(lookup_erase_eq_some hround').2,rfl,id⟩
  | @declined p hs k reason hdecline round hround =>
    rw [hs]
    by_cases hk : task.id = k
    · subst hk
      cases Option.some.inj ((AList.lookup_insert _).symm.trans hround')
      refine ⟨round,hround,rfl,fun hmem => ?_⟩
      have hother := hframe reason hdecline
      rw [ProbeScheduler.dropDecliner]
      split
      · next decliner hdecliner =>
        refine List.mem_filter.mpr ⟨hmem,decide_eq_true fun heq => hother ?_⟩
        rw [hdecliner,heq]
      · exact hmem
    · exact ⟨round',(AList.lookup_insert_ne hk).symm.trans hround',rfl,id⟩

end Lists

def Probes (d d' : Desk) (key : ℕ) (task : Task) : Prop :=
  ∃ w ∈ d'.writes.drop d.writes.length, w.node = some key ∧ w.frame = .probe task.probe

lemma lists_of_unprobed (h : ∀ routed ∈ d.schedulers, task.id ∉ routed.scheduler.pending) :
    d.Lists task nodeId := by
  intro routed hrouted round hround
  exact absurd (AList.lookup_isSome.mp (by rw [hround]; rfl)) (h routed hrouted)

lemma lists_scheduleAt (hsound : net.Sound) (hnone : ∀ routed ∈ d.schedulers, task.id ∉ routed.scheduler.pending)
    (hget : net.getNode nodeId = some n) {now : ℤ} {r : Receiver}
    (hprobes : d.Probes (d.withScheduler net i (·.schedule net.directory now task r)) n.key task) :
    (d.withScheduler net i (·.schedule net.directory now task r)).Lists task nodeId := by
  rw [withScheduler] at hprobes ⊢
  split
  · exact lists_of_unprobed hnone
  next routed hrouted =>
  rw [hrouted] at hprobes
  simp only at hprobes
  have hold := hnone routed (List.mem_of_getElem? hrouted)
  have hout := routed.scheduler.scheduled net.directory now task r
  generalize routed.scheduler.schedule net.directory now task r = out at hout hprobes ⊢
  have hext := perform_extends net { d with schedulers := d.schedulers.set i { routed with scheduler := out.1 } } out.2
  intro routed' hrouted' round hround
  rw [hext.schedulers] at hrouted'
  rcases List.mem_or_eq_of_mem_set hrouted' with hmem | rfl
  · exact absurd (AList.lookup_isSome.mp (by rw [hround]; rfl)) (hnone routed' hmem)
  cases hout with
  | refused hsame message status =>
    exact absurd (AList.lookup_isSome.mp (by rw [← hsame.pending,hround]; rfl)) hold
  | pushed hsame hn => exact absurd (AList.lookup_isSome.mp (by rw [← hsame.pending,hround]; rfl)) hold
  | @probed p hs sampled hne hn deadline =>
    cases Option.some.inj ((AList.lookup_insert _).symm.trans hround)
    refine ⟨rfl,?_⟩
    obtain ⟨more,hwrites,hmore⟩ := hext.writes
    obtain ⟨w,hw,hnode,-⟩ := hprobes
    rw [hwrites,List.drop_left] at hw
    obtain ⟨e,he,hwritten⟩ := hmore w hw
    obtain ⟨m,hm,rfl⟩ := List.mem_map.mp he
    obtain ⟨⟨k,hm'⟩,havailable⟩ := NodeDirectoryImpl.mem_getCandidates (hn m hm)
    obtain ⟨l,hl⟩ := Option.isSome_iff_exists.mp (hsound.linked k m hm' havailable)
    cases Option.some.inj ((written_view hsound hm' hl _).symm.trans hwritten)
    have hkey : m.key = n.key := Option.some.inj hnode
    have hid := hsound.distinct k nodeId m n hm' hget hkey
    rw [← hid,← hsound.named k m hm']
    exact List.mem_map_of_mem hm

end Desk

namespace EventLoop
variable {g g' : EventLoop} {e : LoopEvent} {task : Task} {nodeId : String}

lemma submission_of_step (htask : taskOf e = some task) (hstep : g.step e = some g') :
    g'.net = g.net ∧ ∃ d : Desk, d.schedulers = g.desk.schedulers ∧ d.writes = g.desk.writes ∧
      (g'.desk.schedulers = d.schedulers ∨
        ∃ i now r, g'.desk = d.withScheduler g.net i (·.schedule g.net.directory now task r)) := by
  have hrunning := running_of_step hstep
  cases e with
  | httpTask now t =>
    cases htask
    unfold step at hstep
    rw [if_neg (by simp [hrunning])] at hstep
    obtain rfl := Option.some.inj hstep
    refine ⟨rfl,{ g.desk with submitted := g.desk.submitted ++ [(task.id,g.client)] },rfl,rfl,?_⟩
    rw [Desk.schedule]
    split
    · obtain ⟨s,hung,heq⟩ := Desk.settle_eq { g.desk with submitted := g.desk.submitted ++ [(task.id,g.client)] } _
      exact .inl (by rw [heq])
    · next i howner => exact .inr ⟨i,now,g.client,rfl⟩
  | frame k now up =>
    cases up with
    | submission t =>
      cases htask
      unfold step at hstep
      rw [if_neg (by simp [hrunning])] at hstep
      simp only at hstep
      split at hstep
      · cases hstep
      next n hget =>
      split at hstep
      · next conn hlink =>
        obtain rfl := Option.some.inj hstep
        refine ⟨rfl,{ g.desk with
          storage := g.desk.storage.put task.id (.nodeConnection task.id conn) n.nodeId
          submitted := g.desk.submitted ++ [(task.id,.nodeConnection task.id conn)] },rfl,rfl,?_⟩
        rw [handleFrame,Desk.handleChildTaskSubmission]
        split
        · split
          · exact .inl rfl
          · next stored hstored =>
            obtain ⟨s,hung,heq⟩ := Desk.settle_eq { g.desk with
              storage := g.desk.storage.put task.id (.nodeConnection task.id conn) n.nodeId
              submitted := g.desk.submitted ++ [(task.id,.nodeConnection task.id conn)] } _
            exact .inl (by rw [heq])
        · next i howner => exact .inr ⟨i,now,.forwarder task.id,rfl⟩
      · cases hstep
    | _ => cases htask
  | _ => cases htask

lemma lists_of_step (hsound : g.net.Sound) (h : g.desk.Lists task nodeId) (hother : ∀ t ∈ taskOf e, t.id ≠ task.id)
    (hdecline : ∀ now reason, e ≠ .frame nodeId now (.scheduling (.decline task.id reason)))
    (hstep : g.step e = some g') : g'.desk.Lists task nodeId := by
  cases htask : taskOf e with
  | some other =>
    obtain ⟨-,d,hschedulers,-,hsame | ⟨i,now,r,heq⟩⟩ := submission_of_step htask hstep
    · exact h.of_eq (hsame.trans hschedulers)
    · rw [heq]
      exact (h.of_eq hschedulers).schedule (hother other htask) now r
  | none =>
  cases turn_of_step hsound hstep with
  | network hnet =>
    obtain ⟨s,hung,heq⟩ := g.desk.close_eq _
    rw [heq]
    exact h
  | rekeyed hreads now hrekeys => exact h
  | answered hanswer =>
    obtain ⟨s,hung,heq⟩ := g.desk.settle_eq _
    rw [heq]
    exact h
  | withdrawn id hclient => exact h
  | submitted now other => cases htask
  | child hreads now other => cases htask
  | @scheduling k n conn hreads now frame =>
    have hname := hsound.named k n hreads.node
    have hnoted : (g.desk.noteDecline n.key frame).Lists task nodeId :=
      h.of_eq (Desk.noteDecline_schedulers _ _ frame)
    rw [Desk.routeFrame]
    split
    · exact hnoted
    next i howner =>
    refine hnoted.frame (fun reason hframe heq => ?_) (by rw [Desk.noteDecline_schedulers]; exact howner)
    subst hframe
    have hk : k = nodeId := hname.symm.trans (Option.some.inj heq)
    exact hdecline now reason (by rw [hk])
  | swept i now => exact h.sweep now

lemma lists_of_submission (hsound : g.net.Sound) (htask : taskOf e = some task) (hunprobed : g.Unprobed task.id)
    (hstep : g.step e = some g') {n : NodeRecord} (hget : g.net.getNode nodeId = some n)
    (hprobes : g.desk.Probes g'.desk n.key task) : g'.desk.Lists task nodeId := by
  obtain ⟨-,d,hschedulers,hwrites,hsame | ⟨i,now,r,heq⟩⟩ := submission_of_step htask hstep
  · refine Desk.lists_of_unprobed fun routed hrouted => hunprobed routed ?_
    rw [← hschedulers,← hsame]
    exact hrouted
  · rw [Desk.Probes,← hwrites,heq] at hprobes
    rw [heq]
    exact Desk.lists_scheduleAt hsound (hschedulers ▸ hunprobed) hget hprobes

lemma lists_of_run {events : List LoopEvent} (hsound : g.net.Sound) (h : g.desk.Lists task nodeId)
    (hother : ∀ e ∈ events, ∀ t ∈ taskOf e, t.id ≠ task.id)
    (hdecline : ∀ now reason, .frame nodeId now (.scheduling (.decline task.id reason)) ∉ events)
    (hrun : runAll step g events = some g') : g'.net.Sound ∧ g'.desk.Lists task nodeId := by
  induction events generalizing g with
  | nil =>
    cases hrun
    exact ⟨hsound,h⟩
  | cons e events ih =>
    obtain ⟨m,hm,hrun⟩ := Option.bind_eq_some_iff.mp hrun
    have hnext := lists_of_step hsound h (hother e List.mem_cons_self)
      (fun now reason heq => hdecline now reason (heq ▸ List.mem_cons_self)) hm
    exact ih ((turn_of_step hsound hm).sound hsound) hnext (fun e he => hother e (List.mem_cons_of_mem _ he))
      (fun now reason hmem => hdecline now reason (List.mem_cons_of_mem _ hmem)) hrun

lemma findFrameOwner_decline {schedulers : List RoutedScheduler} :
    findFrameOwner schedulers 10 = findFrameOwner schedulers 8 := by
  rw [findFrameOwner,findFrameOwner]
  refine congrArg (schedulers.findIdx? ·) (funext fun routed => ?_)
  cases routed.scheduler <;> rfl

section Answers
variable {n : NodeRecord} {conn i : ℕ} {routed : RoutedScheduler} {p : ProbeScheduler} {round : PendingProbe}
  (hsound : g.net.Sound) (hrunning : g.desk.hung = false) (hrouted : g.desk.schedulers[i]? = some routed)
  (hp : routed.scheduler = .probe p) (hreads : Reads g.net nodeId n conn) {id : String}
  (hround : p.pending.lookup id = some round)

include hsound hrunning hrouted hp hreads hround

lemma step_decline (now : ℤ) (reason : String) (howner : findFrameOwner g.desk.schedulers 8 = some i) :
    ∃ g', g.step (.frame nodeId now (.scheduling (.decline id reason))) = some g' ∧
      ∀ routed' round', g'.desk.schedulers[i]? = some routed' →
        routed'.scheduler.pending.lookup id = some round' → nodeId ∉ round'.probedNodeIds := by
  have hid := hsound.named nodeId n hreads.node
  have hstep : g.step (.frame nodeId now (.scheduling (.decline id reason))) =
      some ⟨g.net,g.desk.routeFrame g.net (.decline id reason) n ⟨conn,some n.nodeId⟩⟩ := by
    simp [step,hrunning,hreads.node,hreads.link,handleFrame]
  refine ⟨_,hstep,fun routed' round' hrouted' hround' hmem => ?_⟩
  rw [Desk.routeFrame,frameType,findFrameOwner_decline,howner] at hrouted'
  simp only [Desk.noteDecline,Desk.withScheduler,hrouted,hp,GatewayScheduler.handleFrame,
    ProbeScheduler.handleFrame,ProbeScheduler.handleTaskDeclineFrame,hround,hid,ProbeScheduler.dropDecliner] at hrouted'
  rw [(Desk.perform_extends g.net _ _).schedulers,List.getElem?_set_self (List.getElem?_eq_some_iff.mp hrouted).1] at hrouted'
  cases hrouted'
  split at hround'
  · exact absurd hround' (by simp [GatewayScheduler.pending,ProbeScheduler.erase])
  · cases Option.some.inj ((AList.lookup_insert _).symm.trans hround')
    simp at hmem

lemma step_lost {other : String} {m : NodeRecord} {c : ℕ} (hother : Reads g.net other m c) (hne : other ≠ nodeId)
    (now : ℤ) (howner : findFrameOwner g.desk.schedulers 8 = some i) (hlisted : nodeId ∈ round.probedNodeIds)
    (hwinner : other ∈ round.probedNodeIds) :
    ∃ g', g.step (.frame other now (.scheduling (.pull id))) = some g' ∧
      ⟨conn,some n.key,true,.cancel id⟩ ∈ g'.desk.writes.drop g.desk.writes.length := by
  have hid := hsound.named other m hother.node
  have hstep : g.step (.frame other now (.scheduling (.pull id))) =
      some ⟨g.net,g.desk.routeFrame g.net (.pull id) m ⟨c,some m.nodeId⟩⟩ := by
    simp [step,hrunning,hother.node,hother.link,handleFrame]
  refine ⟨_,hstep,?_⟩
  rw [Desk.routeFrame,frameType,howner]
  simp only [Desk.noteDecline,Desk.withScheduler,hrouted,hp,GatewayScheduler.handleFrame,
    ProbeScheduler.handleFrame,ProbeScheduler.handleTaskPullFrame,hround,hid,hwinner,not_true_eq_false,if_false]
  rw [Desk.perform_written]
  · have hlost : nodeId ∈ round.probedNodeIds.filter (· ≠ other) :=
      List.mem_filter.mpr ⟨hlisted,decide_eq_true hne.symm⟩
    have hcancel := Desk.written_cancel hsound hreads.node hreads.link id hlost
    rw [List.drop_left,List.cons_append,List.filterMap_cons,Desk.written,List.filterMap_append]
    exact List.mem_cons_of_mem _ (List.mem_append_left _ hcancel)
  · refine Desk.perform_running (fun e he r message status heq => ?_) hrunning
    subst heq
    rcases List.mem_append.mp he with he | he
    · rcases List.mem_cons.mp he with he | he
      · cases he
      · obtain ⟨node,frame,hwrite⟩ := Desk.writes_cancelNodes _ _ _ _ he
        rw [Node.write] at hwrite
        split at hwrite <;> cases hwrite
    · cases List.mem_singleton.mp he

lemma step_overdue {now : ℤ} (hlisted : nodeId ∈ round.probedNodeIds) (hlate : round.deadline < now)
    (hstep : g.step (.sweep i now) = some g') (hdone : g'.desk.hung = false) :
    ⟨conn,some n.key,true,.cancel id⟩ ∈ g'.desk.writes.drop g.desk.writes.length := by
  have heq : g' = ⟨g.net,g.desk.withScheduler g.net i (·.sweepExpired g.net.directory now)⟩ := by
    simp only [step,hrunning,Bool.false_eq_true,if_false] at hstep
    exact (Option.some.inj hstep).symm
  subst heq
  simp only [Desk.withScheduler,hrouted,hp,GatewayScheduler.sweepExpired,ProbeScheduler.sweepExpired] at hdone ⊢
  rw [Desk.perform_written hdone,List.drop_left]
  have hexpire : ProbeScheduler.expire g.net.directory.answers id round ⊆
      (ProbeScheduler.sweep g.net.directory.answers now p.pending.entries p).2 :=
    ProbeScheduler.expire_subset_sweep (AList.mem_lookup_iff.mp hround) hlate
  have hcancel := Desk.written_cancel hsound hreads.node hreads.link id hlisted
  exact (List.filterMap_subset _ hexpire) (by
    rw [ProbeScheduler.expire,List.filterMap_append]
    exact List.mem_append_left _ hcancel)

end Answers

/-- A node is probed for a task and has, later in the run, the id under which it was probed, whatever it was
called in between. While the round is pending at the scheduler that gets the pulls, and the node has not declined
under that id: its pull gets the grant, its decline takes it out of the round, and it is sent a cancel if another
node wins or the round is overdue. -/
theorem rounds_survive_renaming (schedulers : List RoutedScheduler) (before after : List LoopEvent) (e : LoopEvent)
    (task : Task) {g₀ g₁ g : EventLoop} (hbefore : runAll step (start schedulers) before = some g₀)
    (htask : taskOf e = some task) (hunprobed : g₀.Unprobed task.id) (hstep : g₀.step e = some g₁)
    (nodeId : String) (n₀ : NodeRecord) (hget : g₀.net.getNode nodeId = some n₀)
    (hprobes : g₀.desk.Probes g₁.desk n₀.key task) (hafter : runAll step g₁ after = some g)
    (hother : ∀ e ∈ after, ∀ t ∈ taskOf e, t.id ≠ task.id)
    (hdecline : ∀ now reason, .frame nodeId now (.scheduling (.decline task.id reason)) ∉ after)
    (n : NodeRecord) (conn : ℕ) (hreads : Reads g.net nodeId n conn) (hsame : n.key = n₀.key)
    (i : ℕ) (routed : RoutedScheduler) (round : PendingProbe) (hrouted : g.desk.schedulers[i]? = some routed)
    (howner : findFrameOwner g.desk.schedulers 8 = some i)
    (hround : routed.scheduler.pending.lookup task.id = some round) (hrunning : g.desk.hung = false) :
    (∀ now, ∃ g' more, g.step (.frame nodeId now (.scheduling (.pull task.id))) = some g' ∧
      g'.desk.writes = g.desk.writes ++ ⟨conn,some n₀.key,true,.grant task⟩ :: more) ∧
    (∀ now reason, ∃ g', g.step (.frame nodeId now (.scheduling (.decline task.id reason))) = some g' ∧
      ∀ routed' round', g'.desk.schedulers[i]? = some routed' →
        routed'.scheduler.pending.lookup task.id = some round' → nodeId ∉ round'.probedNodeIds) ∧
    (∀ now other m c, Reads g.net other m c → other ≠ nodeId → other ∈ round.probedNodeIds →
      ∃ g', g.step (.frame other now (.scheduling (.pull task.id))) = some g' ∧
        ⟨conn,some n₀.key,true,.cancel task.id⟩ ∈ g'.desk.writes.drop g.desk.writes.length) ∧
    ∀ now g', round.deadline < now → g.step (.sweep i now) = some g' → g'.desk.hung = false →
      ⟨conn,some n₀.key,true,.cancel task.id⟩ ∈ g'.desk.writes.drop g.desk.writes.length := by
  have hsound₀ : g₀.net.Sound := runAll_invariant (I := fun g => g.net.Sound) (P := fun _ _ => True)
    (fun _ _ _ h _ hstep => (turn_of_step h hstep).sound h) .empty (.of_forall fun _ _ => trivial) hbefore
  have hlists := lists_of_submission hsound₀ htask hunprobed hstep hget hprobes
  obtain ⟨hsound,hlists⟩ := lists_of_run ((turn_of_step hsound₀ hstep).sound hsound₀) hlists hother hdecline hafter
  obtain ⟨rfl,hlisted⟩ := hlists routed (List.mem_of_getElem? hrouted) round hround
  rw [← hsame]
  cases hp : routed.scheduler with
  | roundRobin nextIndex =>
    rw [hp] at hround
    cases hround
  | capabilityAware quotient =>
    rw [hp] at hround
    cases hround
  | probe p =>
    rw [hp] at hround
    exact ⟨fun now => step_pull hsound hrunning hreads now hrouted howner hp hround hlisted,
      fun now reason => step_decline hsound hrunning hrouted hp hreads hround now reason howner,
      fun now other m c hwinner hne hmem =>
        step_lost hsound hrunning hrouted hp hreads hround hwinner hne now howner hlisted hmem,
      fun now g' hlate hsweep hdone => step_overdue hsound hrunning hrouted hp hreads hround hlisted hlate hsweep hdone⟩

def probeTwo : List RoutedScheduler := [⟨"",.probe ⟨2,1000,fun _ _ => 0,∅⟩⟩]

def advertise (nodeId advertised : String) : LoopEvent := .frame nodeId 1 (.advertisement ⟨advertised,["probe"],{}⟩)

/-- A node is probed before it has advertised; it is called differently for a while. -/
theorem rounds_survive_renaming_back : ∃ g₀ g₁ g, runAll step (start probeTwo) twoNodes = some g₀ ∧
    g₀.step (.httpTask 0 (bareTask "t" "x")) = some g₁ ∧
    runAll step g₁ [advertise "a" "n1",advertise "n1" "a"] = some g ∧
    (g₀.net.getNode "a").any (fun n => n.advertisement.isNone) = true ∧
    ∃ g' more conn key, g.step (.frame "a" 2 (.scheduling (.pull "t"))) = some g' ∧
      g'.desk.writes = g.desk.writes ++ ⟨conn,some key,true,.grant (bareTask "t" "x")⟩ :: more := by
  obtain ⟨g₀,g₁,g,n₀,n,conn,routed,round,hbefore,hunprobed,hstep,hget,hfirst,hprobes,hafter,hreads,hsame,hrouted,howner,
      hround,hrunning⟩ : ∃ g₀ g₁ g n₀ n conn routed round, runAll step (start probeTwo) twoNodes = some g₀ ∧
      g₀.Unprobed "t" ∧ g₀.step (.httpTask 0 (bareTask "t" "x")) = some g₁ ∧ g₀.net.getNode "a" = some n₀ ∧
      n₀.advertisement.isNone = true ∧ g₀.desk.Probes g₁.desk n₀.key (bareTask "t" "x") ∧
      runAll step g₁ [advertise "a" "n1",advertise "n1" "a"] = some g ∧ Reads g.net "a" n conn ∧ n.key = n₀.key ∧
      g.desk.schedulers[0]? = some routed ∧ findFrameOwner g.desk.schedulers 8 = some 0 ∧
      routed.scheduler.pending.lookup "t" = some round ∧ g.desk.hung = false :=
    ⟨_,_,_,_,_,_,_,_,rfl,by decide +kernel,rfl,rfl,rfl,⟨_,List.mem_cons_self,rfl,rfl⟩,rfl,⟨rfl,rfl⟩,rfl,rfl,
      by decide +kernel,rfl,rfl⟩
  obtain ⟨g',more,hpull,hwrites⟩ := (rounds_survive_renaming probeTwo twoNodes _ _ (bareTask "t" "x") hbefore rfl hunprobed
    hstep "a" n₀ hget hprobes hafter (by decide) (by simp [advertise]) n conn hreads hsame 0 routed round hrouted howner
    hround hrunning).1 2
  exact ⟨g₀,g₁,g,hbefore,hstep,hafter,by rw [hget]; exact hfirst,g',more,conn,n₀.key,hpull,hwrites⟩

/-- A node is probed before it has advertised, and gets its advertised id while the round is pending. Its pull
is answered by a cancel, its decline leaves its old id in the round, and neither the end of the round nor the
grant to another node brings it a cancel. -/
theorem renamed_node_lost : ∃ g₀ g₁ g n₀ n conn, runAll step (start probeTwo) twoNodes = some g₀ ∧
    g₀.Unprobed "t" ∧ g₀.step (.httpTask 0 (bareTask "t" "x")) = some g₁ ∧ g₀.net.getNode "a" = some n₀ ∧
    n₀.advertisement.isNone = true ∧ g₀.desk.Probes g₁.desk n₀.key (bareTask "t" "x") ∧
    runAll step g₁ [advertise "a" "n1"] = some g ∧ Reads g.net "n1" n conn ∧ n.key = n₀.key ∧
    findFrameOwner g.desk.schedulers 8 = some 0 ∧
    (∃ pulled, g.step (.frame "n1" 2 (.scheduling (.pull "t"))) = some pulled ∧
      pulled.desk.writes = g.desk.writes ++ [⟨conn,some n₀.key,true,.cancel "t"⟩]) ∧
    (∃ declined routed round, g.step (.frame "n1" 2 (.scheduling (.decline "t" "queue full"))) = some declined ∧
      declined.desk.schedulers[0]? = some routed ∧ routed.scheduler.pending.lookup "t" = some round ∧
      "a" ∈ round.probedNodeIds) ∧
    (∃ swept, g.step (.sweep 0 1001) = some swept ∧ swept.desk.schedulers.all (fun r => "t" ∉ r.scheduler.pending) ∧
      ∀ w ∈ swept.desk.writes.drop g.desk.writes.length, w.node ≠ some n₀.key) ∧
    ∃ won, g.step (.frame "b" 2 (.scheduling (.pull "t"))) = some won ∧
      won.desk.schedulers.all (fun r => "t" ∉ r.scheduler.pending) ∧
      ∀ w ∈ won.desk.writes.drop g.desk.writes.length, w.node ≠ some n₀.key := by
  exact ⟨_,_,_,_,_,_,rfl,by decide +kernel,rfl,rfl,rfl,⟨_,List.mem_cons_self,rfl,rfl⟩,rfl,⟨rfl,rfl⟩,rfl,by decide +kernel,
    ⟨_,rfl,rfl⟩,⟨_,_,_,rfl,rfl,rfl,by decide +kernel⟩,⟨_,rfl,by decide +kernel,by decide +kernel⟩,
    _,rfl,by decide +kernel,by decide +kernel⟩

end EventLoop
end Strij.Gateway
