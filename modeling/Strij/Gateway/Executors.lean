import Strij.Gateway.FrameOwners
import Strij.Gateway.Placement

/-! What becomes of the tasks that nodes execute when the nodes go away: children that a node submitted,
tasks placed before a node got its advertised id, and tasks pushed to a connection that has ended. -/
namespace Strij.Gateway
open Strij.Lib Strij.Wire

lemma Desk.written_view {net : Network} (h : net.Sound) {id : String} {n : NodeRecord} {l : Link}
    (hget : net.getNode id = some n) (hlink : n.link = some l) (frame : GatewayFrame) :
    written net (n.view.write frame) = some ⟨l.key,some n.key,l.isOpen,frame⟩ := by
  have howner := h.ownerOf hget hlink
  simp [NodeRecord.view,Node.write,hlink,written,howner,NodeRecord.isOpen]

namespace EventLoop
variable {g g' : EventLoop} {e : LoopEvent} {id : String} {r : Receiver}
  {config : List SchedulerConfig} {net : Network}

namespace Placed
variable {n : NodeRecord} {routed : RoutedScheduler} {task : Task}

variable (h : Placed g)
include h

lemma call (r : Receiver) (c : ReceiverCall) : Placed ⟨g.net,g.desk.settle (g.desk.storage.call r c)⟩ := by
  obtain ⟨s,hs,hprogress⟩ := h.calm.plain.progress_call r c
  rw [hs]
  exact h.advance (.of_storage h.calm hprogress)

lemma scheduler {i : ℕ} (hrouted : g.desk.schedulers[i]? = some routed)
    {s : GatewayScheduler} (hs : routed.scheduler.Shrinks s) :
    Placed ⟨g.net,{ g.desk with schedulers := g.desk.schedulers.set i { routed with scheduler := s } }⟩ :=
  h.advance ⟨.refl h.calm.plain,h.calm.running,rfl,rfl,fun _ hw => .inl hw,Desk.rounds_set hrouted hs⟩

lemma serves {nodeId : String} {l : Link} (hget : g.net.getNode nodeId = some n) (hlink : n.link = some l)
    (hstored : g.desk.storage.get id = some r) (hnode : g.desk.storage.nodeOfTask.lookup id = some nodeId)
    (hopen : (∀ key, r ≠ .client key) → l.isOpen = true) {w : Write} (hconn : w.conn = l.key)
    (haccepted : w.accepted = l.isOpen) :
    id ∈ g.desk.submitted.map Prod.fst ∧ ∀ q, (id,q) ∈ g.desk.submitted →
      (w.accepted = true → g.Held w.conn id q) ∧ ((∀ key, q ≠ .client key) → w.accepted = true) := by
  have hr := h.owners id r hstored
  refine ⟨List.mem_map_of_mem (f := Prod.fst) hr,fun q hq => ?_⟩
  cases h.same_receiver hr hq
  refine ⟨fun ha => .inr (.inr ⟨nodeId,n,hget,?_,hstored,hnode⟩),fun hq => haccepted.trans (hopen hq)⟩
  rw [hlink,hconn,← haccepted.symm.trans ha]

lemma submission {nodeId : String} {l : Link} (hget : g.net.getNode nodeId = some n) (hlink : n.link = some l)
    (hstored : g.desk.storage.get task.id = some r)
    (hnode : g.desk.storage.nodeOfTask.lookup task.id = some nodeId)
    (hopen : (∀ key, r ≠ .client key) → l.isOpen = true) :
    Placed ⟨g.net,g.desk.perform g.net [n.view.write (.submission task)]⟩ := by
  have hwrites : Desk.Writes [n.view.write (.submission task)] :=
    fun e he => ⟨n.view,_,List.mem_singleton.mp he⟩
  rw [Desk.perform_writes hwrites h.calm.running]
  refine h.write fun w hw k hk => ?_
  obtain ⟨e,he,hwritten⟩ := List.mem_filterMap.mp hw
  rw [List.mem_singleton.mp he,Desk.written_view h.sound hget hlink] at hwritten
  cases hwritten
  cases hk
  exact h.serves hget hlink hstored hnode hopen rfl rfl

lemma probes (sampled : List NodeRecord) (probe : TaskProbe) :
    Placed ⟨g.net,g.desk.perform g.net (sampled.map (fun n => n.view.write (.probe probe)))⟩ := by
  have hwrites : Desk.Writes (sampled.map (fun n => n.view.write (.probe probe))) := by
    intro e he
    obtain ⟨n,-,rfl⟩ := List.mem_map.mp he
    exact ⟨n.view,_,rfl⟩
  rw [Desk.perform_writes hwrites h.calm.running]
  refine h.write fun w hw k hk => ?_
  obtain ⟨e,he,hwritten⟩ := List.mem_filterMap.mp hw
  obtain ⟨n,-,rfl⟩ := List.mem_map.mp he
  rw [Desk.written_write hwritten] at hk
  cases hk

lemma scheduleClient {key : ℕ} (hr : (task.id,.client key) ∈ g.desk.submitted)
    (hfree : task.id ∉ g.desk.storage.receivers) (hpending : g.desk.NotPending task.id) (i : ℕ) (now : ℤ) :
    Placed ⟨g.net,g.desk.withScheduler g.net i (·.schedule g.net.directory now task (.client key))⟩ := by
  rw [Desk.withScheduler]
  split
  · exact h
  next routed hrouted =>
  have hout := routed.scheduler.scheduled g.net.directory now task (.client key)
  generalize routed.scheduler.schedule g.net.directory now task (.client key) = out at hout ⊢
  cases hout with
  | refused hsame message status =>
    refine h.advance (.performed h.calm hrouted hsame.shrinks (by simp) ?_)
    intro e he
    cases List.mem_singleton.mp he
    rintro _ ⟨⟩
  | @pushed s' hsame n hn =>
    obtain ⟨⟨nodeId,hget⟩,havailable⟩ := NodeDirectoryImpl.mem_getCandidates hn
    obtain ⟨l,hl⟩ := Option.isSome_iff_exists.mp (h.sound.linked nodeId n hget havailable)
    have hid := h.sound.named nodeId n hget
    have hput := (h.scheduler hrouted hsame.shrinks).put hr rfl hfree (hpending.set hrouted hsame.shrinks)
      n.nodeId
    obtain ⟨hstored,hnode⟩ : (g.desk.storage.put task.id (.client key) n.nodeId).get task.id =
        some (.client key) ∧ _ := h.calm.plain.put_new hfree
    rw [pushTask,Desk.perform,if_neg (by simp [h.calm.running])]
    exact hput.submission hget hl hstored (hid ▸ hnode) (fun hne => absurd rfl (hne key))
  | @probed p hs sampled hne hn deadline =>
    refine (h.assign hrouted hs hpending ⟨rfl,?_,.inl ⟨rfl,hr,hfree⟩⟩).probes sampled task.probe
    exact List.mem_map_of_mem (f := Prod.fst) hr

lemma scheduleChild {nodeId : String} {conn : ℕ}
    (hreads : Reads g.net nodeId n conn) (hstored : g.desk.storage.get task.id = some r)
    (hnode : g.desk.storage.nodeOfTask.lookup task.id = some nodeId) (hpending : g.desk.NotPending task.id)
    {i : ℕ} (hhome : ∀ routed ∈ g.desk.schedulers[i]?,
      ∀ m ∈ g.net.directory.getCandidates routed.scheduler.protocol, m.nodeId = nodeId) (now : ℤ) :
    Placed ⟨g.net,g.desk.withScheduler g.net i
      (·.schedule g.net.directory now task (.forwarder task.id))⟩ := by
  have hmem : task.id ∈ g.desk.storage.receivers := mem_iff_lookup.mpr ⟨r,hstored⟩
  rw [Desk.withScheduler]
  split
  · exact h
  next routed hrouted =>
  have hout := routed.scheduler.scheduled g.net.directory now task (.forwarder task.id)
  generalize routed.scheduler.schedule g.net.directory now task (.forwarder task.id) = out at hout ⊢
  cases hout with
  | refused hsame message status =>
    refine h.advance (.performed h.calm hrouted hsame.shrinks (by simp) ?_)
    intro e he
    cases List.mem_singleton.mp he
    rintro _ ⟨⟩
  | @pushed s' hsame m hm =>
    obtain ⟨⟨k,hget⟩,-⟩ := NodeDirectoryImpl.mem_getCandidates hm
    have hk : k = nodeId := (h.sound.named k m hget).symm.trans (hhome routed hrouted m hm)
    subst hk
    cases Option.some.inj (hreads.node.symm.trans hget)
    rw [pushTask,Desk.perform,if_neg (by simp [h.calm.running]),Desk.effect,h.calm.plain.put_of_mem hmem]
    exact (h.scheduler hrouted hsame.shrinks).submission hget hreads.link hstored hnode (fun _ => rfl)
  | @probed p hs sampled hne hn deadline =>
    refine (h.assign hrouted hs hpending ⟨rfl,?_,.inr ⟨rfl,fun k hk m hm => ?_⟩⟩).probes sampled task.probe
    · exact List.mem_map_of_mem (f := Prod.fst) (h.owners task.id r hstored)
    · obtain ⟨m,hmem,rfl⟩ := List.mem_map.mp hm
      exact (hhome routed hrouted m (hn m hmem)).trans (Option.some.inj (hnode.symm.trans hk))

lemma unused (hfresh : id ∉ g.desk.submitted.map Prod.fst) :
    id ∉ g.desk.storage.receivers ∧ g.desk.NotPending id := by
  constructor
  · intro hmem
    obtain ⟨q,hq⟩ := mem_iff_lookup.mp hmem
    exact hfresh (List.mem_map_of_mem (f := Prod.fst) (h.owners id q hq))
  · intro i routed hrouted
    cases hround : routed.scheduler.pending.lookup id with
    | none => rfl
    | some round => exact absurd (h.rounds i routed hrouted id round hround).submitted hfresh

lemma submitClient (hfresh : task.id ∉ g.desk.submitted.map Prod.fst) (now : ℤ)
    (key : ℕ) : Placed ⟨g.net,Desk.schedule g.net
      { g.desk with submitted := g.desk.submitted ++ [(task.id,.client key)] } now task (.client key)⟩ := by
  obtain ⟨hfree,hpending⟩ := h.unused hfresh
  have hnoted := h.note hfresh (.client key)
  rw [Desk.schedule]
  split
  · exact hnoted.call (.client key) _
  · exact hnoted.scheduleClient (List.mem_append_right _ (List.mem_singleton_self _)) hfree hpending _ now

lemma submitChild (hfresh : task.id ∉ g.desk.submitted.map Prod.fst)
    {nodeId : String} {conn : ℕ} (hreads : Reads g.net nodeId n conn)
    (hhome : ∀ i ∈ findSchedulerFor g.desk.schedulers task, ∀ routed ∈ g.desk.schedulers[i]?,
      ∀ m ∈ g.net.directory.getCandidates routed.scheduler.protocol, m.nodeId = nodeId) (now : ℤ) :
    Placed ⟨g.net,g.desk.handleChildTaskSubmission g.net now task n conn⟩ := by
  obtain rfl := h.sound.named nodeId n hreads.node
  obtain ⟨hfree,hpending⟩ := h.unused hfresh
  have hput := (h.note hfresh (.nodeConnection task.id conn)).put
    (List.mem_append_right _ (List.mem_singleton_self _)) rfl hfree hpending n.nodeId
  obtain ⟨hstored,hnode⟩ : (g.desk.storage.put task.id (.nodeConnection task.id conn) n.nodeId).get task.id =
      some (.nodeConnection task.id conn) ∧ _ := h.calm.plain.put_new hfree
  rw [Desk.handleChildTaskSubmission]
  split
  · simp only [hstored]
    rw [hput.calm.plain.call hstored]
    exact hput.advance (.of_storage hput.calm (.resolve hput.calm.plain hstored (.deliverError _ _)))
  · next i howner => exact hput.scheduleChild hreads hstored hnode hpending (hhome i howner) now

lemma grant {conn : ℕ} (hreads : Reads g.net n.nodeId n conn) {i : ℕ}
    (hrouted : g.desk.schedulers[i]? = some routed) {p : ProbeScheduler}
    (hp : routed.scheduler = .probe p) {round : PendingProbe} (hround : p.pending.lookup id = some round)
    (hprobed : n.nodeId ∈ round.probedNodeIds)
    (hchild : round.receiver.isForwarder = true → id ∈ g.desk.storage.receivers) (losers : List String) :
    Placed ⟨g.net,{ g.desk with schedulers := g.desk.schedulers.set i { routed with
      scheduler := .probe (p.erase id) } }.perform g.net
        (Effect.write ⟨conn,some n.nodeId⟩ (.grant round.task) ::
          ProbeScheduler.cancelNodes g.net.directory.answers id losers ++
            [Effect.put id round.receiver n.nodeId])⟩ := by
  have hlookup : routed.scheduler.pending.lookup id = some round := by
    rw [hp]
    exact hround
  obtain ⟨htask,-,hreceiver⟩ := h.rounds i routed hrouted id round hlookup
  have hnext := h.scheduler hrouted (hp ▸ GatewayScheduler.shrinks_erase p id)
  -- no other scheduler has a round for the task
  have hpending : Desk.NotPending { g.desk with schedulers := g.desk.schedulers.set i { routed with
      scheduler := .probe (p.erase id) } } id := by
    intro j routed' hj
    rw [List.getElem?_set] at hj
    split at hj
    · split at hj
      · cases hj
        exact AList.lookup_erase _ _
      · cases hj
    · next hne =>
      cases hother : routed'.scheduler.pending.lookup id with
      | none => rfl
      | some other => exact absurd (h.single i j routed routed' hrouted hj id round other hlookup hother) hne
  obtain ⟨q,hplaced,hstored,hnode⟩ : ∃ q, Placed ⟨g.net,{ g.desk with
        schedulers := g.desk.schedulers.set i { routed with scheduler := .probe (p.erase id) }
        storage := g.desk.storage.put id round.receiver n.nodeId }⟩ ∧
      (g.desk.storage.put id round.receiver n.nodeId).get id = some q ∧
      (g.desk.storage.put id round.receiver n.nodeId).nodeOfTask.lookup id = some n.nodeId := by
    rcases hreceiver with ⟨hr,hmem,hfree⟩ | ⟨hr,hnodes⟩
    · exact ⟨round.receiver,hnext.put hmem hr hfree hpending n.nodeId,h.calm.plain.put_new hfree⟩
    · have hmem : id ∈ g.desk.storage.receivers := hchild (by rw [hr]; rfl)
      obtain ⟨q,hq⟩ := mem_iff_lookup.mp hmem
      obtain ⟨k,hk⟩ := h.calm.plain.nodeOfTask_of_get hq
      rw [h.calm.plain.put_of_mem hmem]
      exact ⟨q,hnext,hq,(hnodes k hk n.nodeId hprobed) ▸ hk⟩
  have hview : Effect.write ⟨conn,some n.nodeId⟩ (.grant round.task) = n.view.write (.grant round.task) := by
    simp [NodeRecord.view,Node.write,hreads.link]
  have hwrites : Desk.Writes (.write ⟨conn,some n.nodeId⟩ (.grant round.task) ::
      ProbeScheduler.cancelNodes g.net.directory.answers id losers) :=
    List.forall_mem_cons.mpr ⟨⟨n.view,_,hview⟩,Desk.writes_cancelNodes _ _ _⟩
  rw [Desk.perform_append,Desk.perform_writes hwrites hnext.calm.running,Desk.perform,
    if_neg (by simp [h.calm.running])]
  refine hplaced.write fun w hw k hk => ?_
  obtain ⟨e,he,hwritten⟩ := List.mem_filterMap.mp hw
  rcases List.mem_cons.mp he with rfl | he
  · rw [hview,Desk.written_view h.sound hreads.node hreads.link] at hwritten
    cases hwritten
    obtain rfl : id = k := htask.symm.trans (Option.some.inj hk)
    exact hplaced.serves hreads.node hreads.link hstored hnode (fun _ => rfl) rfl rfl
  · rw [Desk.written_cancelNodes he hwritten] at hk
    cases hk

lemma routeFrame {nodeId : String} {conn : ℕ}
    (hreads : Reads g.net nodeId n conn) {now : ℤ} {frame : NodeFrame}
    (hcond : g.ChildStored (.frame nodeId now (.scheduling frame))) :
    Placed ⟨g.net,g.desk.routeFrame g.net frame n ⟨conn,some n.nodeId⟩⟩ := by
  obtain rfl := h.sound.named nodeId n hreads.node
  have hnoted : Placed ⟨g.net,g.desk.noteDecline n.key frame⟩ := by
    refine h.advance ?_
    cases frame <;> exact ⟨.refl h.calm.plain,h.calm.running,rfl,rfl,fun _ hw => .inl hw,
      fun _ routed hi => ⟨routed,hi,GatewayScheduler.SameRounds.shrinks ⟨rfl,rfl⟩⟩⟩
  rw [Desk.routeFrame]
  split
  · exact hnoted
  next i howner =>
  rw [Desk.withScheduler]
  split
  · exact hnoted
  next routed hrouted =>
  have hrouted' := hrouted
  rw [Desk.noteDecline_schedulers] at hrouted'
  have hout := routed.scheduler.framed g.net.directory frame ⟨conn,some n.nodeId⟩
    fun id hid => List.ne_nil_of_mem (mem_handledFrameTypes howner hrouted')
  generalize routed.scheduler.handleFrame g.net.directory frame ⟨conn,some n.nodeId⟩ = out at hout ⊢
  have hrest (hput : ∀ id r n, .put id r n ∉ out.2)
      (hquiet : ∀ e ∈ out.2, ∀ w, Desk.written g.net e = some w → placedBy w.frame = none) :
      Placed ⟨g.net,_⟩ := hnoted.advance (.performed hnoted.calm hrouted hout.shrinks hput hquiet)
  cases hout with
  | ignored _ => exact hrest (by simp) (by simp)
  | revoked hs hframe _ => exact hrest (by simp) (by simp [Desk.written,placedBy])
  | declined hs hframe hround => exact hrest (by simp) (by simp)
  | exhausted hs hframe hround => exact hrest (by simp) (by simp [Desk.written])
  | @granted p hs id hframe round hround winner hwinner hprobed =>
    subst hframe
    cases hwinner
    have hgranted : g.grantedRound (.frame n.nodeId now (.scheduling (.pull id))) = some (id,round) :=
      grantedRound_eq howner hrouted' (by rw [hs]; exact hround) hprobed now
    exact h.grant hreads hrouted hs hround hprobed (hcond (id,round) hgranted) _

lemma sweep (i : ℕ) (now : ℤ) :
    Placed ⟨g.net,g.desk.withScheduler g.net i (·.sweepExpired g.net.directory now)⟩ := by
  rw [Desk.withScheduler]
  split
  · exact h
  next routed hrouted =>
  refine h.advance (.performed h.calm hrouted (GatewayScheduler.sweepExpired_shrinks _)
    Desk.put_notMem_sweep fun e he w hw => ?_)
  obtain ⟨id,hcancel⟩ := Desk.written_sweep he hw
  rw [hcancel]
  rfl

omit h

lemma start {schedulers : List RoutedScheduler} (h : ∀ routed ∈ schedulers, routed.scheduler.pending = ∅) :
    Placed (start schedulers) := by
  have hnone (i : ℕ) (routed : RoutedScheduler) (hrouted : schedulers[i]? = some routed) (id : String)
      (round : PendingProbe) (hround : routed.scheduler.pending.lookup id = some round) : False := by
    rw [h routed (List.mem_of_getElem? hrouted),AList.lookup_empty] at hround
    cases hround
  exact ⟨.empty,⟨.empty,rfl⟩,List.nodup_nil,fun _ _ hget => (by cases hget),by simp [EventLoop.start],
    fun i routed hi id round hround => (hnone i routed hi id round hround).elim,
    fun i _ routed _ hi _ id round _ hround _ => (hnone i routed hi id round hround).elim,
    by simp [EventLoop.start],by simp [EventLoop.start]⟩

end Placed

def childOf : LoopEvent → Option (String × Task)
  | .frame nodeId _ (.submission task) => some (nodeId,task)
  | _ => none

/-- Every node that the scheduler of a child may choose is the one that submits it. -/
def ChildHome (g : EventLoop) (e : LoopEvent) : Prop :=
  ∀ x ∈ childOf e, ∀ i ∈ findSchedulerFor g.desk.schedulers x.2, ∀ routed ∈ g.desk.schedulers[i]?,
    ∀ n ∈ g.net.directory.getCandidates routed.scheduler.protocol, n.nodeId = x.1

/-- Task ids are not used twice, children stay with their nodes and are stored when they are won, and a
node gets another id only while nothing is stored under the old one. -/
structure Regular (g : EventLoop) (e : LoopEvent) : Prop where
  fresh : g.Fresh e
  stored : g.ChildStored e
  home : g.ChildHome e
  named : ∀ nodeId ∈ g.renamed e, g.desk.storage.tasksOf nodeId = []

instance (e : LoopEvent) : Decidable (g.ChildHome e) :=
  inferInstanceAs (Decidable (∀ x ∈ childOf e, _))

instance (e : LoopEvent) : Decidable (g.Regular e) :=
  decidable_of_iff (g.Fresh e ∧ g.ChildStored e ∧ g.ChildHome e ∧
      ∀ nodeId ∈ g.renamed e, g.desk.storage.tasksOf nodeId = [])
    ⟨fun h => ⟨h.1,h.2.1,h.2.2.1,h.2.2.2⟩,fun h => ⟨h.fresh,h.stored,h.home,h.named⟩⟩

lemma placed_of_step (h : Placed g) (hcond : g.Regular e) (hstep : g.step e = some g') : Placed g' := by
  cases turn_of_step h.sound hstep with
  | network hnet => exact h.network hnet
  | rekeyed hreads now hrekeys =>
    refine h.rekey hreads hrekeys fun id hid => ?_
    have hempty := hcond.named _ (hreads.renamed hrekeys now)
    exact List.ne_nil_of_mem (ResultReceiverStorage.mem_tasksOf.mpr hid) hempty
  | answered hanswer =>
    obtain ⟨s,rfl,hprogress⟩ := hanswer h.calm.plain
    exact h.advance (.of_storage h.calm hprogress)
  | withdrawn id hclient =>
    obtain ⟨key,hkey⟩ := hclient
    exact h.withdraw hkey
  | submitted now task => exact h.submitClient (hcond.fresh task rfl) now _
  | child hreads now task => exact h.submitChild (hcond.fresh task rfl) hreads (hcond.home _ rfl) now
  | scheduling hreads now frame => exact h.routeFrame hreads hcond.stored
  | swept i now => exact h.sweep i now

lemma pending_of_built {schedulers : List RoutedScheduler}
    (h : buildSchedulerRouter config = .ok schedulers) :
    ∀ routed ∈ schedulers, routed.scheduler.pending = ∅ := by
  rw [buildSchedulerRouter] at h
  split at h
  · cases h
  · exact (built h).2

lemma placed_of_run {schedulers : List RoutedScheduler}
    (hbuild : buildSchedulerRouter config = .ok schedulers) {events : List LoopEvent}
    (hcond : Throughout step Regular (start schedulers) events)
    (hrun : runAll step (start schedulers) events = some g) : Placed g :=
  runAll_invariant (fun _ _ _ hg hcond hstep => placed_of_step hg hcond hstep)
    (.start (pending_of_built hbuild)) hcond hrun

/-- In regular runs the receiver of a placed child is resolved, or the connection that the child was
written to is open and the storage has the child under the node it belongs to. -/
theorem children_survive_executor_loss (config : List SchedulerConfig) (schedulers : List RoutedScheduler)
    (hbuild : buildSchedulerRouter config = .ok schedulers) (events : List LoopEvent)
    (hcond : Throughout step Regular (start schedulers) events)
    (hrun : runAll step (start schedulers) events = some g) :
    ∀ w ∈ g.desk.writes, ∀ (id : String) (conn : ℕ), placedBy w.frame = some id →
      (id,.nodeConnection id conn) ∈ g.desk.submitted →
      g.desk.storage.Resolved (.nodeConnection id conn) ∨ ∃ nodeId n, g.net.getNode nodeId = some n ∧
        n.link = some ⟨w.conn,true⟩ ∧ g.desk.storage.nodeOfTask.lookup id = some nodeId := by
  intro w hw id conn hid hchild
  have h := placed_of_run hbuild hcond hrun
  obtain ⟨hheld,haccepted⟩ := h.placed w hw id _ hid hchild
  rcases hheld (haccepted nofun) with hresolved | hwithdrawn | ⟨nodeId,n,hget,hlink,-,hnode⟩
  · exact .inl hresolved
  · obtain ⟨key,hkey⟩ := h.clients id hwithdrawn
    cases h.same_receiver hchild hkey
  · exact .inr ⟨nodeId,n,hget,hlink,hnode⟩

def pushConfig : List SchedulerConfig := [⟨"",.roundRobin⟩]

def pushOnly : List RoutedScheduler := [⟨"",.roundRobin 0⟩]

def oneNode : List LoopEvent := [.reconcile [⟨"a","10.0.0.1:1"⟩],.connect "a" true]

/-- A node gets its own child to execute, and goes away. -/
def ownChild : List LoopEvent := oneNode ++ [.frame "a" 0 (.submission (bareTask "t" "x")),.endOfStream "a",
  .tick]

theorem children_survive_executor_loss_ownChild : Throughout step Regular (start pushOnly) ownChild ∧
    ∃ g, runAll step (start pushOnly) ownChild = some g ∧
      ∀ w ∈ g.desk.writes, ∀ (id : String) (conn : ℕ), placedBy w.frame = some id →
        (id,.nodeConnection id conn) ∈ g.desk.submitted →
        g.desk.storage.Resolved (.nodeConnection id conn) ∨ ∃ nodeId n, g.net.getNode nodeId = some n ∧
          n.link = some ⟨w.conn,true⟩ ∧ g.desk.storage.nodeOfTask.lookup id = some nodeId := by
  have hcond : Throughout step Regular (start pushOnly) ownChild := by decide +kernel
  have hruns : (runAll step (start pushOnly) ownChild).isSome = true := by decide +kernel
  obtain ⟨g,hrun⟩ := Option.isSome_iff_exists.mp hruns
  exact ⟨hcond,g,hrun,children_survive_executor_loss pushConfig pushOnly rfl ownChild hcond hrun⟩

def Closed (g : EventLoop) (conn : ℕ) : Prop :=
  ∀ nodeId n, g.net.getNode nodeId = some n → n.link ≠ some ⟨conn,true⟩

/-- A task was accepted by a connection that is closed, and its receiver never got a call. -/
structure Stranded (g : EventLoop) (id : String) (r : Receiver) : Prop where
  submitted : (id,r) ∈ g.desk.submitted
  client : id ∉ g.desk.withdrawn
  unresolved : ¬g.desk.storage.Resolved r
  placed : ∃ w ∈ g.desk.writes, w.accepted = true ∧ placedBy w.frame = some id ∧ g.Closed w.conn

def strands (g : EventLoop) (id : String) (r : Receiver) : Bool :=
  (id,r) ∈ g.desk.submitted && id ∉ g.desk.withdrawn && g.desk.storage.calls.isEmpty &&
    g.desk.writes.any (fun w => w.accepted && placedBy w.frame = some id &&
      g.net.directory.ordered.all (fun n => n.link ≠ some ⟨w.conn,true⟩))

lemma stranded_of_strands (h : g.strands id r = true) : g.Stranded id r := by
  simp only [strands,Bool.and_eq_true,decide_eq_true_eq,List.isEmpty_iff,List.any_eq_true] at h
  obtain ⟨⟨⟨hsubmitted,hclient⟩,hcalls⟩,w,hw,⟨haccepted,hid⟩,hnodes⟩ := h
  refine ⟨hsubmitted,hclient,?_,w,hw,haccepted,hid,fun nodeId n hget => ?_⟩
  · rintro ⟨c,hmem,-⟩
    rw [hcalls] at hmem
    cases hmem
  · have hn := List.all_eq_true.mp hnodes n (NodeDirectoryImpl.mem_ordered.mpr ⟨nodeId,hget⟩)
    simpa using hn

/-- A node's child is executed by the other node, which goes away. -/
def childElsewhere : List LoopEvent := twoNodes ++ [.frame "b" 0 (.submission (bareTask "t" "x")),
  .endOfStream "a",.tick]

/-- The storage has the child under the node that submitted it, and nothing resolves it. -/
theorem child_stranded : ∃ g, runAll step (start pushOnly) childElsewhere = some g ∧
    g.Stranded "t" (.nodeConnection "t" 3) ∧ g.desk.storage.nodeOfTask.lookup "t" = some "b" := by
  have hrun : (runAll step (start pushOnly) childElsewhere).any (fun g =>
      g.strands "t" (.nodeConnection "t" 3) &&
        (g.desk.storage.nodeOfTask.lookup "t" = some "b" : Bool)) = true := by decide +kernel
  obtain ⟨g,hg,hall⟩ := (Option.any_eq_true _ _).mp hrun
  simp only [Bool.and_eq_true,decide_eq_true_eq] at hall
  exact ⟨g,hg,stranded_of_strands hall.1,hall.2⟩

/-- In regular runs, once a connection is closed the receivers of all tasks it accepted are resolved, but
for those of clients that went away. -/
theorem closed_connections_resolve (config : List SchedulerConfig) (schedulers : List RoutedScheduler)
    (hbuild : buildSchedulerRouter config = .ok schedulers) (events : List LoopEvent)
    (hcond : Throughout step Regular (start schedulers) events)
    (hrun : runAll step (start schedulers) events = some g) :
    ∀ w ∈ g.desk.writes, w.accepted = true → g.Closed w.conn → ∀ id r, placedBy w.frame = some id →
      (id,r) ∈ g.desk.submitted → id ∉ g.desk.withdrawn → g.desk.storage.Resolved r := by
  intro w hw ha hclosed id r hid hr hclient
  rcases ((placed_of_run hbuild hcond hrun).placed w hw id r hid hr).1 ha with hresolved | hwithdrawn |
    ⟨nodeId,n,hget,hlink,-⟩
  · exact hresolved
  · exact absurd hwithdrawn hclient
  · exact absurd hlink (hclosed nodeId n hget)

/-- A node advertises its id, gets a task, and goes away. -/
def renamedFirst : List LoopEvent := oneNode ++ [.frame "a" 0 (.advertisement ⟨"node-1",["push"],{}⟩),
  .httpTask 1 (bareTask "t" "x"),.endOfStream "node-1",.tick]

theorem closed_connections_resolve_renamedFirst : Throughout step Regular (start pushOnly) renamedFirst ∧
    ∃ g, runAll step (start pushOnly) renamedFirst = some g ∧
      ∀ w ∈ g.desk.writes, w.accepted = true → g.Closed w.conn → ∀ id r, placedBy w.frame = some id →
        (id,r) ∈ g.desk.submitted → id ∉ g.desk.withdrawn → g.desk.storage.Resolved r := by
  have hcond : Throughout step Regular (start pushOnly) renamedFirst := by decide +kernel
  have hruns : (runAll step (start pushOnly) renamedFirst).isSome = true := by decide +kernel
  obtain ⟨g,hrun⟩ := Option.isSome_iff_exists.mp hruns
  exact ⟨hcond,g,hrun,closed_connections_resolve pushConfig pushOnly rfl renamedFirst hcond hrun⟩

/-- A node gets a task, advertises another id, and goes away. -/
def renamedLater : List LoopEvent := oneNode ++ [.httpTask 0 (bareTask "t" "x"),
  .frame "a" 1 (.advertisement ⟨"node-1",["push"],{}⟩),.endOfStream "node-1",.tick]

/-- The task stays stored under the id that the node had before, and nothing resolves it. -/
theorem renamed_stranded : ∃ g, runAll step (start pushOnly) renamedLater = some g ∧
    g.Stranded "t" (.client 0) ∧ g.desk.storage.nodeOfTask.lookup "t" = some "a" := by
  have hrun : (runAll step (start pushOnly) renamedLater).any (fun g => g.strands "t" (.client 0) &&
      (g.desk.storage.nodeOfTask.lookup "t" = some "a" : Bool)) = true := by decide +kernel
  obtain ⟨g,hg,hall⟩ := (Option.any_eq_true _ _).mp hrun
  simp only [Bool.and_eq_true,decide_eq_true_eq] at hall
  exact ⟨g,hg,stranded_of_strands hall.1,hall.2⟩

/-- Tasks come in only while no connection waits for its deletion. -/
def Drained (g : EventLoop) (e : LoopEvent) : Prop := ∀ task ∈ taskOf e, g.net.commands = []

instance (e : LoopEvent) : Decidable (g.Drained e) :=
  inferInstanceAs (Decidable (∀ task ∈ taskOf e, _))

lemma open_of_available (h : net.Sound) (hcommands : net.commands = []) {nodeId : String}
    {n : NodeRecord} (hget : net.getNode nodeId = some n) (havailable : n.isAvailable = true) :
    ∃ k, n.link = some ⟨k,true⟩ := by
  obtain ⟨⟨k,isOpen⟩,hl⟩ := Option.isSome_iff_exists.mp (h.linked nodeId n hget havailable)
  cases isOpen with
  | true => exact ⟨k,hl⟩
  | false =>
    have hwaiting := h.ended nodeId n _ hget hl rfl
    rw [hcommands] at hwaiting
    cases hwaiting

def Delivered (d : Desk) : Prop := ∀ w ∈ d.writes, ∀ task, w.frame = .submission task → w.accepted = true

lemma delivered_schedule (hsound : net.Sound) (hcommands : net.commands = [])
    (s : GatewayScheduler) (now : ℤ) (task : Task) (r : Receiver) :
    ∀ e ∈ (s.schedule net.directory now task r).2, ∀ w, Desk.written net e = some w →
      ∀ task, w.frame = .submission task → w.accepted = true := by
  have hout := s.scheduled net.directory now task r
  generalize s.schedule net.directory now task r = out at hout ⊢
  intro e he w hw task' hframe
  cases hout with
  | refused hsame message status =>
    cases List.mem_singleton.mp he
    cases hw
  | @pushed s' hsame n hn =>
    rcases List.mem_cons.mp he with rfl | he
    · cases hw
    · cases List.mem_singleton.mp he
      obtain ⟨⟨nodeId,hget⟩,havailable⟩ := NodeDirectoryImpl.mem_getCandidates hn
      obtain ⟨k,hlink⟩ := open_of_available hsound hcommands hget havailable
      rw [Desk.written_view hsound hget hlink] at hw
      cases hw
      rfl
  | probed hs hne hn deadline =>
    obtain ⟨n,-,rfl⟩ := List.mem_map.mp he
    rw [Desk.written_write hw] at hframe
    cases hframe

lemma delivered_of_step (h : Delivered g.desk) (hsound : g.net.Sound) (hcond : g.Drained e)
    (hstep : g.step e = some g') : Delivered g'.desk := by
  cases turn_of_step hsound hstep with
  | @network _ _ closed hnet =>
    obtain ⟨s,hung,heq⟩ := g.desk.close_eq closed
    rw [heq]
    exact h
  | rekeyed hreads now hrekeys => exact h
  | @answered _ out hanswer =>
    obtain ⟨s,hung,heq⟩ := g.desk.settle_eq out
    rw [heq]
    exact h
  | withdrawn id hclient => exact h
  | submitted now task =>
    rw [Desk.schedule]
    split
    · exact h
    · exact Desk.withScheduler_writes h fun routed _ =>
        delivered_schedule hsound (hcond task rfl) routed.scheduler now task _
  | child hreads now task =>
    rw [Desk.handleChildTaskSubmission]
    split
    · split
      · exact h
      · next stored hget =>
        obtain ⟨s,hung,heq⟩ := Desk.settle_eq _ _
        rw [heq]
        exact h
    · exact Desk.withScheduler_writes h fun routed _ =>
        delivered_schedule hsound (hcond task rfl) routed.scheduler now task _
  | @scheduling nodeId n conn hreads now frame =>
    have hnoted : Delivered (g.desk.noteDecline n.key frame) := by cases frame <;> exact h
    rw [Desk.routeFrame]
    split
    · exact hnoted
    next i howner =>
    refine Desk.withScheduler_writes hnoted fun routed hrouted e he w hw task hframe => ?_
    rw [Desk.noteDecline_schedulers] at hrouted
    have hout := routed.scheduler.framed g.net.directory frame ⟨conn,some n.nodeId⟩
      fun id hid => List.ne_nil_of_mem (mem_handledFrameTypes howner hrouted)
    rcases Desk.written_framed hout he hw with ⟨id,hcancel⟩ | ⟨granted,hgrant⟩
    · rw [hcancel] at hframe
      cases hframe
    · rw [hgrant] at hframe
      cases hframe
  | swept i now =>
    refine Desk.withScheduler_writes h fun routed _ e he w hw task hframe => ?_
    obtain ⟨id,hcancel⟩ := Desk.written_sweep he hw
    rw [hcancel] at hframe
    cases hframe

/-- A task comes in after the deletion of a connection that has ended. -/
def pushedLater : List LoopEvent := twoNodes ++ [.endOfStream "a",.tick,.httpTask 0 (bareTask "t" "x")]

/-- A task comes in between the end of a stream and the deletion of the connection. -/
def pushedTooEarly : List LoopEvent := oneNode ++ [.endOfStream "a",.httpTask 0 (bareTask "t" "x")]

end EventLoop
end Strij.Gateway
