import Strij.Gateway.Executors

/-! Who holds a receiver. A receiver is held by the storage or by a pending probe round, under the id of its
task; only held receivers are called. -/
namespace Strij.Gateway
open Strij.Lib Strij.Wire

namespace ResultReceiverStorage
variable {extra : Receiver → Prop} {s s' s'' : ResultReceiverStorage} {r : Receiver} {c : ReceiverCall}

/-- Nothing is stored anew, and the receivers called were stored or are among the `extra` ones. -/
structure Draws (extra : Receiver → Prop) (s s' : ResultReceiverStorage) : Prop where
  held : ∀ id r, s'.get id = some r → s.get id = some r
  called : ∀ r, r.isForwarder = false →
    callsTo s'.calls r = callsTo s.calls r ∨ (∃ id, s.get id = some r) ∨ extra r

namespace Draws
variable {answer : FrameStatus}

lemma refl : Draws extra s s := ⟨fun _ _ h => h,fun _ _ => .inl rfl⟩

variable (h : Draws extra s s')
include h

lemma trans (h' : Draws extra s' s'') : Draws extra s s'' where
  held id r hget := h.held id r (h'.held id r hget)
  called r hr := by
    rcases h'.called r hr with heq | ⟨id,hid⟩ | hextra
    · rw [heq]
      exact h.called r hr
    · exact .inr (.inl ⟨id,h.held id r hid⟩)
    · exact .inr (.inr hextra)

lemma erase (id : String) : Draws extra s (s'.erase id) :=
  h.trans ⟨fun _ _ hget => (lookup_erase_eq_some hget).2,fun _ _ => .inl rfl⟩

lemma eraseIf (b : Bool) (id : String) : Draws extra s (s'.eraseIf b id) := by
  cases b with
  | false => exact h
  | true => exact h.erase id

lemma absorb (hextra : ∀ r, extra r → ∃ id, s.get id = some r) (other : Receiver → Prop) :
    Draws other s s' where
  held := h.held
  called r hr := by
    rcases h.called r hr with heq | hget | hr
    · exact .inl heq
    · exact .inr (.inl hget)
    · exact .inr (.inl (hextra r hr))

omit h

lemma record : Draws (· = r) s (s.record r c) where
  held _ _ hget := hget
  called q _ := by
    by_cases hq : r = q
    · exact .inr (.inr hq.symm)
    · exact .inl (by simp [ResultReceiverStorage.record,callsTo_cons_ne hq])

lemma callWithin {fuel : ℕ} (h : ResultReceiverStorage.callWithin fuel s r c = some s') :
    Draws (· = r) s s' := by
  induction fuel generalizing r s' with
  | zero =>
    cases r with
    | forwarder id => cases h
    | client key =>
      cases h
      exact record
    | nodeConnection taskId conn =>
      cases h
      exact record
  | succ fuel ih =>
    cases r with
    | client key =>
      cases h
      exact record
    | nodeConnection taskId conn =>
      cases h
      exact record
    | forwarder id =>
      rw [ResultReceiverStorage.callWithin] at h
      split at h
      · cases h
        exact refl.eraseIf _ _
      · next receiver hget =>
        obtain ⟨t,ht,rfl⟩ := Option.map_eq_some_iff.mp h
        refine Draws.eraseIf ((ih ht).absorb ?_ _) _ _
        rintro _ rfl
        exact ⟨id,hget⟩

lemma call (h : s.call r c = some s') : Draws (· = r) s s' := callWithin h

lemma callStored {id : String} (hget : s.get id = some r) (h : s.call r c = some s') (other : Receiver → Prop) :
    Draws other s s' :=
  (call h).absorb (by rintro _ rfl; exact ⟨id,hget⟩) other

lemma rejected {rejected : TaskRejected}
    (h : s.handleTaskRejectedFrame rejected = some (answer,s')) : Draws extra s s' := by
  rw [handleTaskRejectedFrame] at h
  split at h
  · cases h
    exact refl
  · next receiver hget =>
    obtain ⟨t,ht,heq⟩ := Option.map_eq_some_iff.mp h
    cases heq
    exact (callStored hget ht _).erase _

lemma result {result : TaskResult}
    (h : s.handleTaskResultFrame result = some (answer,s')) : Draws extra s s' := by
  rw [handleTaskResultFrame] at h
  split at h
  · cases h
    exact refl
  · next receiver hget =>
    split at h
    · obtain ⟨t,ht,heq⟩ := Option.map_eq_some_iff.mp h
      cases heq
      exact (callStored hget ht _).erase _
    · obtain ⟨t,ht,heq⟩ := Option.map_eq_some_iff.mp h
      cases heq
      exact (callStored hget ht _).eraseIf _ _

lemma disconnectTasks {ids : List String} (h : ResultReceiverStorage.disconnectTasks ids s = some s') :
    Draws extra s s' := by
  induction ids generalizing s with
  | nil =>
    cases h
    exact refl
  | cons id ids ih =>
    rw [ResultReceiverStorage.disconnectTasks] at h
    split at h
    · exact (refl.erase id).trans (ih h)
    · next receiver hget =>
      obtain ⟨t,ht,h⟩ := Option.bind_eq_some_iff.mp h
      exact ((callStored hget ht _).erase id).trans (ih h)

end Draws
end ResultReceiverStorage

namespace Desk
variable {net : Network} {fresh : String → Receiver → Prop} {d d' d'' : Desk} {effects : List Effect}
  {n : NodeRecord} {now : ℤ} {task : Task}

/-- The receiver is stored, or waits in a probe round, under the id. -/
def Holds (d : Desk) (id : String) (r : Receiver) : Prop :=
  d.storage.get id = some r ∨
    ∃ routed ∈ d.schedulers, ∃ round, routed.scheduler.pending.lookup id = some round ∧ round.receiver = r

/-- Receivers are handed on under their ids, but for `fresh` ones, and only those held or fresh are
called. -/
structure Carries (fresh : String → Receiver → Prop) (d d' : Desk) : Prop where
  held : ∀ id r, d'.Holds id r → d.Holds id r ∨ fresh id r
  called : ∀ r, r.isForwarder = false →
    callsTo d'.storage.calls r = callsTo d.storage.calls r ∨ ∃ id, d.Holds id r ∨ fresh id r

namespace Carries
variable {routed : RoutedScheduler} {out : Option ResultReceiverStorage} {directory : NodeDirectoryImpl} {conn : Connection} {receiver : Receiver}
  {s : GatewayScheduler} {n : NodeRecord} {id : String} {now : ℤ}

lemma refl (d : Desk) : Carries fresh d d := ⟨fun _ _ h => .inl h,fun _ _ => .inl rfl⟩

variable (h : Carries fresh d d')
include h

lemma trans (h' : Carries fresh d' d'') : Carries fresh d d'' where
  held id r hr := by
    rcases h'.held id r hr with hr | hr
    · exact h.held id r hr
    · exact .inr hr
  called r hr := by
    rcases h'.called r hr with heq | ⟨id,hid | hid⟩
    · rw [heq]
      exact h.called r hr
    · exact .inr ⟨id,h.held id r hid⟩
    · exact .inr ⟨id,.inr hid⟩

lemma settle {extra : Receiver → Prop}
    (hout : ∀ s, out = some s → ResultReceiverStorage.Draws extra d'.storage s)
    (hextra : ∀ r, extra r → ∃ id, d.Holds id r ∨ fresh id r) : Carries fresh d (d'.settle out) := by
  cases out with
  | none => exact ⟨h.held,h.called⟩
  | some s =>
    have hdraws := hout s rfl
    refine ⟨fun id r hr => ?_,fun r hr => ?_⟩
    · rcases hr with hget | hpending
      · exact h.held id r (.inl (hdraws.held id r hget))
      · exact h.held id r (.inr hpending)
    · rcases hdraws.called r hr with heq | ⟨id,hget⟩ | hr
      · change callsTo s.calls r = _ ∨ _
        rw [heq]
        exact h.called r hr
      · exact .inr ⟨id,h.held id r (.inl hget)⟩
      · exact .inr (hextra r hr)

lemma settleStored (hout : ∀ s, out = some s → ResultReceiverStorage.Draws (fun _ => False) d'.storage s) :
    Carries fresh d (d'.settle out) :=
  h.settle hout (fun _ h => h.elim)

lemma erase (id : String) : Carries fresh d { d' with storage := d'.storage.erase id } := by
  refine ⟨fun k r hr => h.held k r (hr.imp_left fun hget => ?_),h.called⟩
  exact (lookup_erase_eq_some hget).2

lemma close (ids : List String) : Carries fresh d (d'.close ids) := by
  induction ids generalizing d' with
  | nil => exact h
  | cons id ids ih =>
    rw [Desk.close]
    split
    · exact h
    · exact ih (h.settleStored fun s hs => ResultReceiverStorage.Draws.disconnectTasks hs)

def Covers (fresh : String → Receiver → Prop) (d : Desk) : Effect → Prop
  | .put id r _ => d.Holds id r ∨ fresh id r
  | .deliverError r _ _ => ∃ id, d.Holds id r ∨ fresh id r
  | _ => True

omit h in
lemma covers_write (n : Node) (frame : GatewayFrame) : Covers fresh d (n.write frame) := by
  rw [Node.write]
  split <;> trivial

omit h in
lemma covers_writes (h : Writes effects) : ∀ e ∈ effects, Covers fresh d e := by
  intro e he
  obtain ⟨n,frame,rfl⟩ := h e he
  exact covers_write n frame

lemma put {nodeId : String} {r : Receiver} (hr : d.Holds id r ∨ fresh id r) :
    Carries fresh d { d' with storage := d'.storage.put id r nodeId } := by
  refine ⟨fun k q hk => ?_,h.called⟩
  rcases hk with hget | hpending
  · rcases lookup_emplace_eq_some hget with hget | ⟨-,heq⟩
    · exact h.held k q (.inl hget)
    · cases heq
      exact hr
  · exact h.held k q (.inr hpending)

lemma effect {e : Effect} (he : Covers fresh d e) : Carries fresh d (d'.effect net e) := by
  cases e with
  | write conn frame => exact ⟨h.held,h.called⟩
  | nullWrite nodeId frame => exact ⟨h.held,h.called⟩
  | put id r nodeId => exact h.put he
  | deliverError r message status =>
    refine h.settle (fun s hs => ResultReceiverStorage.Draws.call hs) ?_
    rintro _ rfl
    exact he

lemma perform (heffects : ∀ e ∈ effects, Covers fresh d e) : Carries fresh d (d'.perform net effects) := by
  induction effects generalizing d' with
  | nil => exact h
  | cons e effects ih =>
    obtain ⟨he,hrest⟩ := List.forall_mem_cons.mp heffects
    rw [Desk.perform]
    split
    · exact h
    · exact ih (h.effect he) hrest

omit h

lemma setScheduler {i : ℕ} (hrouted : d.schedulers[i]? = some routed)
    (hrounds : ∀ id round, s.pending.lookup id = some round →
      (∃ old, routed.scheduler.pending.lookup id = some old ∧ old.receiver = round.receiver) ∨
        fresh id round.receiver) :
    Carries fresh d { d with schedulers := d.schedulers.set i { routed with scheduler := s } } := by
  refine ⟨fun id r hr => ?_,fun r _ => .inl rfl⟩
  rcases hr with hget | ⟨other,hmem,round,hround,rfl⟩
  · exact .inl (.inl hget)
  · rcases List.mem_or_eq_of_mem_set hmem with hmem | rfl
    · exact .inl (.inr ⟨other,hmem,round,hround,rfl⟩)
    · rcases hrounds id round hround with ⟨old,hold,heq⟩ | hfresh
      · exact .inl (.inr ⟨routed,List.mem_of_getElem? hrouted,old,hold,heq⟩)
      · exact .inr hfresh

lemma withScheduler {i : ℕ} {op : GatewayScheduler → GatewayScheduler × List Effect}
    (hop : ∀ routed, d.schedulers[i]? = some routed →
      (∀ id round, (op routed.scheduler).1.pending.lookup id = some round →
        (∃ old, routed.scheduler.pending.lookup id = some old ∧ old.receiver = round.receiver) ∨
          fresh id round.receiver) ∧ ∀ e ∈ (op routed.scheduler).2, Covers fresh d e) :
    Carries fresh d (d.withScheduler net i op) := by
  rw [Desk.withScheduler]
  split
  · exact refl d
  · next routed hrouted =>
    obtain ⟨hrounds,heffects⟩ := hop routed hrouted
    exact (setScheduler hrouted hrounds).perform heffects

lemma scheduled {task : Task}
    {out : GatewayScheduler × List Effect} (h : GatewayScheduler.Scheduled directory task receiver s out)
    (hfresh : fresh task.id receiver) : (∀ id round, out.1.pending.lookup id = some round →
      (∃ old, s.pending.lookup id = some old ∧ old.receiver = round.receiver) ∨ fresh id round.receiver) ∧
    ∀ e ∈ out.2, Covers fresh d e := by
  cases h with
  | refused hsame message status =>
    refine ⟨fun id round hround => .inl ⟨round,hsame.pending ▸ hround,rfl⟩,fun e he => ?_⟩
    cases List.mem_singleton.mp he
    exact ⟨task.id,.inr hfresh⟩
  | @pushed s' hsame n hn =>
    refine ⟨fun id round hround => .inl ⟨round,hsame.pending ▸ hround,rfl⟩,fun e he => ?_⟩
    rcases List.mem_cons.mp he with rfl | he
    · exact .inr hfresh
    · cases List.mem_singleton.mp he
      exact covers_write n.view _
  | @probed p hs sampled hne hn deadline =>
    subst hs
    refine ⟨fun id round hround => ?_,fun e he => ?_⟩
    · by_cases hid : id = task.id
      · subst hid
        cases Option.some.inj ((AList.lookup_insert _).symm.trans hround)
        exact .inr hfresh
      · exact .inl ⟨round,(AList.lookup_insert_ne hid).symm.trans hround,rfl⟩
    · obtain ⟨n,-,rfl⟩ := List.mem_map.mp he
      exact covers_write n.view _

lemma holds_round {i : ℕ} {round : PendingProbe}
    (hrouted : d.schedulers[i]? = some routed) (hround : routed.scheduler.pending.lookup id = some round) :
    d.Holds id round.receiver :=
  .inr ⟨routed,List.mem_of_getElem? hrouted,round,hround,rfl⟩

lemma shrinks_rounds {s' : GatewayScheduler} (h : GatewayScheduler.Shrinks s s') (id : String)
    (round : PendingProbe) (hround : s'.pending.lookup id = some round) :
    (∃ old, s.pending.lookup id = some old ∧ old.receiver = round.receiver) ∨ fresh id round.receiver := by
  obtain ⟨old,hold,-,hreceiver,-⟩ := h.2 id round hround
  exact .inl ⟨old,hold,hreceiver.symm⟩

lemma framed {frame : NodeFrame} {i : ℕ} {out : GatewayScheduler × List Effect}
    (hrouted : d.schedulers[i]? = some routed)
    (h : GatewayScheduler.Framed directory frame conn routed.scheduler out) :
    ∀ e ∈ out.2, Covers fresh d e := by
  have hprobe {p : ProbeScheduler} {id : String} {round : PendingProbe} (hs : routed.scheduler = .probe p)
      (hround : p.pending.lookup id = some round) : d.Holds id round.receiver := by
    refine holds_round hrouted ?_
    rw [hs]
    exact hround
  intro e he
  cases h with
  | ignored _ => cases he
  | revoked hs hframe _ =>
    cases List.mem_singleton.mp he
    trivial
  | declined hs hframe hround => cases he
  | exhausted hs hframe hround =>
    cases List.mem_singleton.mp he
    exact ⟨_,.inl (hprobe hs hround)⟩
  | granted hs hframe hround hwinner hprobed =>
    rcases List.mem_append.mp he with he | he
    · rcases List.mem_cons.mp he with rfl | he
      · trivial
      · exact covers_writes (writes_cancelNodes _ _ _) e he
    · cases List.mem_singleton.mp he
      exact .inl (hprobe hs hround)

lemma swept {i : ℕ} (hrouted : d.schedulers[i]? = some routed) :
    ∀ e ∈ (routed.scheduler.sweepExpired directory now).2, Covers fresh d e := by
  intro e he
  obtain ⟨id,round,hround,-,hexpire⟩ := GatewayScheduler.mem_sweepExpired he
  rcases List.mem_append.mp hexpire with he | he
  · exact covers_writes (writes_cancelNodes _ _ _) e he
  · cases List.mem_singleton.mp he
    exact ⟨id,.inl (holds_round hrouted hround)⟩

lemma schedule {task : Task} (hfresh : fresh task.id receiver) :
    Carries fresh d (d.schedule net now task receiver) := by
  rw [Desk.schedule]
  split
  · refine (refl d).settle (fun s hs => ResultReceiverStorage.Draws.call hs) ?_
    rintro _ rfl
    exact ⟨task.id,.inr hfresh⟩
  · exact withScheduler fun routed hrouted =>
      scheduled (routed.scheduler.scheduled net.directory now task receiver) hfresh

lemma child {task : Task} {conn : ℕ}
    (hfresh : fresh task.id (.nodeConnection task.id conn)) (hforwarder : fresh task.id (.forwarder task.id)) :
    Carries fresh d (d.handleChildTaskSubmission net now task n conn) := by
  have hstored : Carries fresh d { d with
      storage := d.storage.put task.id (.nodeConnection task.id conn) n.nodeId
      submitted := d.submitted ++ [(task.id,.nodeConnection task.id conn)] } := by
    have hput : Carries fresh d { d with
        storage := d.storage.put task.id (.nodeConnection task.id conn) n.nodeId } :=
      (refl d).put (.inr hfresh)
    exact ⟨hput.held,hput.called⟩
  rw [handleChildTaskSubmission]
  split
  · split
    · exact hstored.erase task.id
    · next stored hget =>
      refine hstored.settleStored fun s hs => ?_
      obtain ⟨t,ht,rfl⟩ := Option.map_eq_some_iff.mp hs
      exact (ResultReceiverStorage.Draws.callStored hget ht _).erase _
  · exact hstored.trans (withScheduler fun routed hrouted =>
      scheduled (routed.scheduler.scheduled net.directory now task _) hforwarder)

lemma noteDecline (key : ℕ) (frame : NodeFrame) : Carries fresh d (d.noteDecline key frame) := by
  cases frame with
  | decline id reason => exact ⟨fun _ _ h => .inl h,fun _ _ => .inl rfl⟩
  | _ => exact refl d

lemma routeFrame {frame : NodeFrame} : Carries fresh d (d.routeFrame net frame n conn) := by
  rw [Desk.routeFrame]
  split
  · exact noteDecline n.key frame
  · next i howner =>
    refine (noteDecline n.key frame).trans (withScheduler fun routed hrouted => ?_)
    have hframed := routed.scheduler.framed net.directory frame conn fun id hid => by
      rw [noteDecline_schedulers] at hrouted
      exact List.ne_nil_of_mem (mem_handledFrameTypes howner hrouted)
    exact ⟨shrinks_rounds hframed.shrinks,framed hrouted hframed⟩

lemma sweep {i : ℕ} : Carries fresh d (d.withScheduler net i (·.sweepExpired net.directory now)) :=
  withScheduler fun routed hrouted =>
    ⟨shrinks_rounds (routed.scheduler.sweepExpired_shrinks),swept hrouted⟩

end Carries

lemma settle_submitted {out : Option ResultReceiverStorage} : (d.settle out).submitted = d.submitted := by
  cases out <;> rfl

lemma withScheduler_submitted {i : ℕ} {op : GatewayScheduler → GatewayScheduler × List Effect} :
    (d.withScheduler net i op).submitted = d.submitted := by
  rw [withScheduler]
  split
  · rfl
  · exact (perform_extends net _ _).submitted

lemma schedule_submitted {receiver : Receiver} :
    (d.schedule net now task receiver).submitted = d.submitted := by
  rw [schedule]
  split
  · exact settle_submitted
  · exact withScheduler_submitted

lemma child_submitted {conn : ℕ} : (d.handleChildTaskSubmission net now task n conn).submitted =
      d.submitted ++ [(task.id,.nodeConnection task.id conn)] := by
  rw [handleChildTaskSubmission]
  split
  · split
    · rfl
    · exact settle_submitted
  · exact withScheduler_submitted

lemma routeFrame_submitted {frame : NodeFrame} {conn : Connection} :
    (d.routeFrame net frame n conn).submitted = d.submitted := by
  have hnoted : (d.noteDecline n.key frame).submitted = d.submitted := by
    cases frame <;> rfl
  rw [routeFrame]
  split
  · exact hnoted
  · exact withScheduler_submitted.trans hnoted

end Desk

namespace EventLoop
variable {g g' : EventLoop} {e : LoopEvent} {k : ℕ}

/-- What came in with the event, at most one client; receivers are handed on, but for what came in. -/
structure Brings (g : EventLoop) (more : List (String × Receiver)) (g' : EventLoop) : Prop where
  submitted : g'.desk.submitted = g.desk.submitted ++ more
  client : ∀ id k, (id,.client k) ∈ more → more = [(id,g.client)]
  carries : g.desk.Carries (fun id r => (r matches .client _) → (id,r) ∈ more) g'.desk

namespace Brings

lemma nothing {d : Desk} {net : Network} (hsubmitted : d.submitted = g.desk.submitted)
    (hcarries : ∀ {fresh}, g.desk.Carries fresh d) : g.Brings [] ⟨net,d⟩ :=
  ⟨hsubmitted.trans (List.append_nil _).symm,fun _ _ h => (nomatch h),hcarries⟩

lemma closed (net : Network) (ids : List String) : g.Brings [] ⟨net,g.desk.close ids⟩ := by
  obtain ⟨s,hung,heq⟩ := g.desk.close_eq ids
  exact nothing (by rw [heq]) ((Desk.Carries.refl _).close ids)

lemma settled (net : Network) {out : Option ResultReceiverStorage}
    (hout : ∀ s, out = some s → ResultReceiverStorage.Draws (fun _ => False) g.desk.storage s) :
    g.Brings [] ⟨net,g.desk.settle out⟩ := by
  exact nothing Desk.settle_submitted ((Desk.Carries.refl _).settleStored hout)

end Brings

lemma brings_handleFrame (n : NodeRecord) (conn : ℕ) (now : ℤ) (frame : UpFrame) :
    ∃ more, g.Brings more (g.handleFrame n conn now frame) := by
  cases frame with
  | advertisement a => exact ⟨[],.nothing rfl (.refl _)⟩
  | nodeState state => exact ⟨[],.nothing rfl (.refl _)⟩
  | rejected rejected =>
    refine ⟨[],.settled g.net fun s hs => ?_⟩
    obtain ⟨⟨answer,t⟩,ht,rfl⟩ := Option.map_eq_some_iff.mp hs
    exact .rejected ht
  | result result =>
    refine ⟨[],.settled g.net fun s hs => ?_⟩
    obtain ⟨⟨answer,t⟩,ht,rfl⟩ := Option.map_eq_some_iff.mp hs
    exact .result ht
  | submission task =>
    refine ⟨[(task.id,.nodeConnection task.id conn)],Desk.child_submitted,fun id k h => ?_,.child ?_ ?_⟩
    · cases List.mem_singleton.mp h
    · nofun
    · nofun
  | scheduling frame => exact ⟨[],.nothing Desk.routeFrame_submitted .routeFrame⟩
  | ignored => exact ⟨[],.nothing rfl (.refl _)⟩

lemma brings_of_step (h : g.step e = some g') : ∃ more, g.Brings more g' := by
  cases happened_of_step h with
  | network _ => exact ⟨[],.closed _ _⟩
  | @framed nodeId n conn _ now frame => exact brings_handleFrame n conn now frame
  | withdrawn id _ =>
    have herase {fresh : String → Receiver → Prop} : g.desk.Carries fresh { g.desk with
        storage := g.desk.storage.erase id } := (Desk.Carries.refl g.desk).erase id
    exact ⟨[],.nothing rfl ⟨herase.held,herase.called⟩⟩
  | submitted now task =>
    refine ⟨[(task.id,g.client)],Desk.schedule_submitted,fun id k h => ?_,?_⟩
    · cases List.mem_singleton.mp h
      rfl
    · have hnoted : g.desk.Carries (fun id r => (r matches .client _) → (id,r) ∈ [(task.id,g.client)])
          { g.desk with submitted := g.desk.submitted ++ [(task.id,g.client)] } :=
        ⟨fun _ _ h => .inl h,fun _ _ => .inl rfl⟩
      exact hnoted.trans (.schedule fun _ => List.mem_singleton_self _)
  | swept i now => exact ⟨[],.nothing Desk.withScheduler_submitted .sweep⟩

/-- A client's receiver is held under the id of its task only. -/
structure Kept (g : EventLoop) : Prop where
  keys : ∀ id k, (id,.client k) ∈ g.desk.submitted → g.desk.submitted[k]? = some (id,.client k)
  held : ∀ id k, g.desk.Holds id (.client k) → (id,.client k) ∈ g.desk.submitted

lemma Kept.of_step (h : g.Kept) (hstep : g.step e = some g') : g'.Kept := by
  obtain ⟨more,hmore⟩ := brings_of_step hstep
  refine ⟨fun id k hk => ?_,fun id k hk => ?_⟩
  · rw [hmore.submitted] at hk ⊢
    rcases List.mem_append.mp hk with hk | hk
    · have hget := h.keys id k hk
      rw [List.getElem?_append_left (List.getElem?_eq_some_iff.mp hget).1]
      exact hget
    · obtain rfl := hmore.client id k hk
      cases List.mem_singleton.mp hk
      exact List.getElem?_concat_length
  · rw [hmore.submitted]
    rcases hmore.carries.held id _ hk with hk | hk
    · exact List.mem_append_left _ (h.held id k hk)
    · exact List.mem_append_right _ (hk rfl)

/-- A client's receiver that came in and that nobody holds. -/
structure Gone (k : ℕ) (g : EventLoop) : Prop where
  known : k < g.desk.submitted.length
  unheld : ∀ id, ¬ g.desk.Holds id (.client k)

lemma Gone.of_step (h : g.Gone k) (hstep : g.step e = some g') : g'.Gone k ∧
    callsTo g'.desk.storage.calls (.client k) = callsTo g.desk.storage.calls (.client k) := by
  obtain ⟨more,hmore⟩ := brings_of_step hstep
  have hfresh : ∀ id, (id,.client k) ∉ more := by
    intro id hid
    rw [hmore.client id k hid] at hid
    cases List.mem_singleton.mp hid
    exact absurd h.known (lt_irrefl _)
  refine ⟨⟨?_,fun id hid => ?_⟩,?_⟩
  · rw [hmore.submitted,List.length_append]
    exact Nat.lt_add_right _ h.known
  · rcases hmore.carries.held id _ hid with hid | hid
    · exact h.unheld id hid
    · exact hfresh id (hid rfl)
  · rcases hmore.carries.called (.client k) rfl with heq | ⟨id,hid | hid⟩
    · exact heq
    · exact absurd hid (h.unheld id)
    · exact absurd (hid rfl) (hfresh id)

lemma Gone.of_run {events : List LoopEvent} (h : g.Gone k) (hrun : runAll step g events = some g') :
    callsTo g'.desk.storage.calls (.client k) = callsTo g.desk.storage.calls (.client k) := by
  induction events generalizing g with
  | nil =>
    cases hrun
    rfl
  | cons e events ih =>
    obtain ⟨t,ht,hrun⟩ := Option.bind_eq_some_iff.mp hrun
    obtain ⟨hgone,hcalls⟩ := h.of_step ht
    exact (ih hgone hrun).trans hcalls

lemma kept_start {schedulers : List RoutedScheduler} (h : ∀ routed ∈ schedulers, routed.scheduler.pending = ∅) :
    (start schedulers).Kept := by
  refine ⟨fun id k hk => (nomatch hk),fun id k hk => ?_⟩
  rcases hk with hget | ⟨routed,hrouted,round,hround,-⟩
  · cases hget
  · rw [h routed hrouted] at hround
    cases hround

def Unprobed (g : EventLoop) (id : String) : Prop := ∀ routed ∈ g.desk.schedulers, id ∉ routed.scheduler.pending

instance (id : String) : Decidable (g.Unprobed id) :=
  inferInstanceAs (Decidable (∀ routed ∈ g.desk.schedulers, id ∉ routed.scheduler.pending))

lemma Kept.gone {id : String} (h : g.Kept) (hk : (id,.client k) ∈ g.desk.submitted)
    (hunprobed : g.Unprobed id) (hstep : g.step (.clientClosed id) = some g') : g'.Gone k ∧
      g'.desk.storage.calls = g.desk.storage.calls := by
  have hkept := h.of_step hstep
  have hrunning := running_of_step hstep
  unfold step at hstep
  rw [if_neg (by simp [hrunning]),Option.ite_none_right_eq_some] at hstep
  obtain ⟨-,⟨⟩⟩ := hstep
  refine ⟨⟨(List.getElem?_eq_some_iff.mp (h.keys id k hk)).1,fun other hother => ?_⟩,rfl⟩
  have hsame := (hkept.keys other k (hkept.held other k hother)).symm.trans (hkept.keys id k hk)
  cases hsame
  rcases hother with hget | ⟨routed,hrouted,round,hround,-⟩
  · rw [ResultReceiverStorage.notifyClientDisconnected,ResultReceiverStorage.get_erase_self] at hget
    cases hget
  · exact hunprobed routed hrouted (AList.lookup_isSome.mp (by rw [hround]; rfl))

/-- After the client of a task has gone away while no probe round of the task was pending, its receiver
gets no call, whatever follows. -/
theorem dropped_client_uncalled (config : List SchedulerConfig) (schedulers : List RoutedScheduler)
    (hbuild : buildSchedulerRouter config = .ok schedulers) (before after : List LoopEvent) (id : String)
    {dropped : EventLoop} (hbefore : runAll step (start schedulers) before = some g)
    (hunprobed : g.Unprobed id) (hdrop : g.step (.clientClosed id) = some dropped)
    (hafter : runAll step dropped after = some g') : ∀ k, (id,.client k) ∈ g.desk.submitted →
      callsTo g'.desk.storage.calls (.client k) = callsTo g.desk.storage.calls (.client k) := by
  intro k hk
  have hkept : g.Kept := runAll_invariant (P := fun _ _ => True)
    (fun _ _ _ h _ hstep => h.of_step hstep) (kept_start (pending_of_built hbuild)) (.of_forall fun _ _ => trivial) hbefore
  obtain ⟨hgone,hcalls⟩ := hkept.gone hk hunprobed hdrop
  rw [hgone.of_run hafter,hcalls]

/-- A pushed task whose client goes away before the result comes and the node goes away. -/
def pushedTask : List LoopEvent := oneNode ++ [.httpTask 0 (bareTask "t" "x")]

def afterDrop : List LoopEvent := [.frame "a" 1 (.result ⟨"t","ok",none,none⟩),.endOfStream "a",.tick]

theorem dropped_client_uncalled_pushed : ∃ g dropped g',
    runAll step (start pushOnly) pushedTask = some g ∧ g.Unprobed "t" ∧ ("t",.client 0) ∈ g.desk.submitted ∧
    g.step (.clientClosed "t") = some dropped ∧ runAll step dropped afterDrop = some g' ∧
    ∀ k, ("t",.client k) ∈ g.desk.submitted →
      callsTo g'.desk.storage.calls (.client k) = callsTo g.desk.storage.calls (.client k) := by
  obtain ⟨g,dropped,g',hg,hunprobed,hsubmitted,hdrop,hafter⟩ : ∃ g dropped g',
      runAll step (start pushOnly) pushedTask = some g ∧ g.Unprobed "t" ∧
      ("t",.client 0) ∈ g.desk.submitted ∧ g.step (.clientClosed "t") = some dropped ∧
      runAll step dropped afterDrop = some g' :=
    ⟨_,_,_,rfl,by decide +kernel,by decide +kernel,rfl,rfl⟩
  exact ⟨g,dropped,g',hg,hunprobed,hsubmitted,hdrop,hafter,
    dropped_client_uncalled pushConfig pushOnly rfl pushedTask afterDrop "t" hg hunprobed hdrop hafter⟩

def droppedProbe : List LoopEvent := twoNodes ++ [.httpTask 0 (bareTask "t" "x"),.clientClosed "t"]

/-- The round keeps the receiver of the client that went away: the sweep calls it, and so does a node that
pulls the task and answers. -/
theorem dropped_client_called : ∃ g swept answered, runAll step (start oneProbe) droppedProbe = some g ∧
    "t" ∈ g.desk.withdrawn ∧ ("t",.client 0) ∈ g.desk.submitted ∧
    callsTo g.desk.storage.calls (.client 0) = [] ∧ runAll step g [.sweep 0 1001] = some swept ∧
    callsTo swept.desk.storage.calls (.client 0) ≠ [] ∧
    runAll step g [.frame "b" 1 (.scheduling (.pull "t")),.frame "b" 2 (.result ⟨"t","ok",none,none⟩)] =
      some answered ∧ callsTo answered.desk.storage.calls (.client 0) ≠ [] := by
  exact ⟨_,_,_,rfl,by decide +kernel,by decide +kernel,by decide +kernel,rfl,by decide +kernel,rfl,
    by decide +kernel⟩

end EventLoop
end Strij.Gateway
