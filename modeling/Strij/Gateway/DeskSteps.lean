import Strij.Gateway.ReceiverResolution
import Strij.Gateway.SchedulerOutcomes

/-! What the steps of the event loop do to the storage while no forwarder is stored, and what carrying
out a list of effects does to the desk. -/
namespace Strij.Gateway
open Strij.Lib Strij.Wire

namespace ResultReceiverStorage
variable {s s' s'' : ResultReceiverStorage} {id : String} {r : Receiver}

def Resolved (s : ResultReceiverStorage) (r : Receiver) : Prop := ∃ c, (r,c) ∈ s.calls ∧ c.terminal = true

structure Progress (s s' : ResultReceiverStorage) : Prop where
  plain : s'.Plain
  calls : ∀ x ∈ s.calls, x ∈ s'.calls
  old : ∀ id r, s'.get id = some r →
    s.get id = some r ∧ s'.nodeOfTask.lookup id = s.nodeOfTask.lookup id
  kept : ∀ id r, s.get id = some r → s'.get id = some r ∨ s'.Resolved r

lemma Resolved.of_progress (h : s.Resolved r) (hp : Progress s s') : s'.Resolved r := by
  obtain ⟨c,hmem,hterminal⟩ := h
  exact ⟨c,hp.calls _ hmem,hterminal⟩

namespace Progress

lemma refl (h : s.Plain) : Progress s s :=
  ⟨h,fun _ hx => hx,fun _ _ hget => ⟨hget,rfl⟩,fun _ _ hget => .inl hget⟩

lemma trans (h : Progress s s') (h' : Progress s' s'') : Progress s s'' where
  plain := h'.plain
  calls x hx := h'.calls x (h.calls x hx)
  old id r hget := by
    obtain ⟨hget',hnode'⟩ := h'.old id r hget
    obtain ⟨hget,hnode⟩ := h.old id r hget'
    exact ⟨hget,hnode'.trans hnode⟩
  kept id r hget := by
    rcases h.kept id r hget with hget | hresolved
    · exact h'.kept id r hget
    · exact .inr (hresolved.of_progress h')

lemma record (h : s.Plain) (r : Receiver) (c : ReceiverCall) : Progress s (s.record r c) :=
  ⟨⟨h.keys,h.endpoint⟩,fun _ hx => List.mem_append_left _ hx,fun _ _ hget => ⟨hget,rfl⟩,
    fun _ _ hget => .inl hget⟩

lemma erase (h : s.Plain) (hr : ∀ r, s.get id = some r → s.Resolved r) : Progress s (s.erase id) where
  plain := h.erase id
  calls _ hx := hx
  old k r hget := by
    obtain ⟨hk,hget⟩ := lookup_erase_eq_some hget
    exact ⟨hget,AList.lookup_erase_ne hk⟩
  kept k r hget := by
    by_cases hk : k = id
    · subst hk
      obtain ⟨c,hmem,hterminal⟩ := hr r hget
      exact .inr ⟨c,hmem,hterminal⟩
    · exact .inl ((get_erase_ne hk).trans hget)

lemma resolve (h : s.Plain) (hget : s.get id = some r) (c : ReceiverCall) :
    Progress s ((s.record r c).eraseIf c.terminal id) := by
  have hcalled := record h r c
  cases hterminal : c.terminal with
  | false => exact hcalled
  | true =>
    refine hcalled.trans (erase hcalled.plain fun q hq => ?_)
    cases Option.some.inj (hget.symm.trans hq)
    exact ⟨c,List.mem_append_right _ (List.mem_singleton_self _),hterminal⟩

end Progress

variable (h : s.Plain)
include h

lemma Plain.progress_call (r : Receiver) (c : ReceiverCall) : ∃ s', s.call r c = some s' ∧ Progress s s' := by
  cases r with
  | client key => exact ⟨_,rfl,.record h _ c⟩
  | nodeConnection taskId conn => exact ⟨_,rfl,.record h _ c⟩
  | forwarder taskId =>
    cases hget : s.get taskId with
    | none =>
      refine ⟨s.eraseIf c.terminal taskId,?_,?_⟩
      · rw [ResultReceiverStorage.call,callWithin,hget]
      · cases c.terminal with
        | false => exact .refl h
        | true => exact .erase h (by simp [hget])
    | some q =>
      refine ⟨(s.record q c).eraseIf c.terminal taskId,?_,.resolve h hget c⟩
      have hcall : callWithin s.receivers.entries.length s q c = some (s.record q c) := by
        have hq := h.endpoint taskId q hget
        cases q with
        | client key => simp [callWithin]
        | nodeConnection taskId conn => simp [callWithin]
        | forwarder taskId => cases hq
      rw [ResultReceiverStorage.call,callWithin,hget]
      simp only [hcall,Option.map_some]

lemma Plain.progress_rejected (rejected : TaskRejected) :
    ∃ s', (s.handleTaskRejectedFrame rejected).map Prod.snd = some s' ∧ Progress s s' := by
  rw [handleTaskRejectedFrame]
  split
  · exact ⟨s,rfl,.refl h⟩
  · next r hget =>
    rw [h.call hget]
    exact ⟨_,rfl,.resolve h hget (.deliverError rejected.reason .capacityRefused)⟩

lemma Plain.progress_result (result : TaskResult) :
    ∃ s', (s.handleTaskResultFrame result).map Prod.snd = some s' ∧ Progress s s' := by
  rw [handleTaskResultFrame]
  split
  · exact ⟨s,rfl,.refl h⟩
  · next r hget =>
    rw [h.call hget,h.call hget]
    split
    · exact ⟨_,rfl,.resolve h hget (.deliverError result.body (result.status.getD .ok))⟩
    · exact ⟨_,rfl,.resolve h hget (.deliver result.body result.final)⟩

lemma Plain.progress_disconnectTasks (ids : List String) :
    ∃ s', disconnectTasks ids s = some s' ∧ Progress s s' ∧
      ∀ id ∈ ids, ∀ r, s.get id = some r → s'.Resolved r := by
  induction ids generalizing s with
  | nil => exact ⟨s,rfl,.refl h,nofun⟩
  | cons id ids ih =>
    -- one turn of the loop ends in a storage where this receiver is resolved
    obtain ⟨t,hturn,hprogress,hresolved⟩ : ∃ t, disconnectTasks (id :: ids) s = disconnectTasks ids t ∧
        Progress s t ∧ ∀ r, s.get id = some r → t.Resolved r := by
      rw [disconnectTasks]
      split
      · next hget => exact ⟨_,rfl,.erase h (by simp [hget]),by simp [hget]⟩
      · next r hget =>
        rw [h.call hget]
        refine ⟨_,rfl,.resolve h hget (.deliverError "node disconnected" .capacityRefused),fun q hq => ?_⟩
        cases Option.some.inj (hget.symm.trans hq)
        exact ⟨_,List.mem_append_right _ (List.mem_singleton_self _),rfl⟩
    obtain ⟨s',hrun,hlater,hrest⟩ := ih hprogress.plain
    refine ⟨s',hturn.trans hrun,hprogress.trans hlater,fun k hk r hget => ?_⟩
    rcases List.mem_cons.mp hk with rfl | hk
    · exact (hresolved r hget).of_progress hlater
    · rcases hprogress.kept k r hget with hget | hr
      · exact hrest k hk r hget
      · exact hr.of_progress hlater

lemma Plain.progress_nodeDisconnected (nodeId : String) :
    ∃ s', s.notifyNodeDisconnected nodeId = some s' ∧ Progress s s' ∧
      ∀ id r, s.get id = some r → s.nodeOfTask.lookup id = some nodeId → s'.Resolved r := by
  obtain ⟨s',hrun,hprogress,hresolved⟩ := h.progress_disconnectTasks (s.tasksOf nodeId)
  exact ⟨s',hrun,hprogress,fun id r hget hnode => hresolved id (mem_tasksOf.mpr hnode) r hget⟩

end ResultReceiverStorage

namespace Desk
variable {net : Network} {d d' : Desk} {effects : List Effect}
  {directory : NodeDirectoryImpl} {w : Write} {e : Effect} {id : String}

def written (net : Network) : Effect → Option Write
  | .write conn frame =>
    some ⟨conn.key,(net.ownerOf conn).map (·.key),(net.ownerOf conn).any NodeRecord.isOpen,frame⟩
  | _ => none

def nullTarget : Effect → Option String
  | .nullWrite nodeId _ => some nodeId
  | _ => none

lemma written_write {n : Node} {frame : GatewayFrame} (h : written net (n.write frame) = some w) :
    w.frame = frame := by
  rw [Node.write] at h
  split at h
  · cases h
    rfl
  · cases h

def Writes (effects : List Effect) : Prop :=
  ∀ e ∈ effects, ∃ (n : Node) (frame : GatewayFrame), e = n.write frame

lemma writes_cancelNodes (directory : NodeDirectory) (id : String) (nodeIds : List String) :
    Writes (ProbeScheduler.cancelNodes directory id nodeIds) := by
  intro e he
  obtain ⟨n,-,hn⟩ := List.mem_filterMap.mp he
  obtain ⟨node,-,rfl⟩ := Option.map_eq_some_iff.mp hn
  exact ⟨node,_,rfl⟩

lemma put_ne_write {nodeId : String} {r : Receiver} (n : Node) (frame : GatewayFrame) :
    .put id r nodeId ≠ n.write frame := by
  rw [Node.write]
  split <;> exact nofun

lemma written_cancelNodes {directory : NodeDirectory} {nodeIds : List String}
    (he : e ∈ ProbeScheduler.cancelNodes directory id nodeIds) (hw : written net e = some w) :
    w.frame = .cancel id := by
  obtain ⟨k,-,hn⟩ := List.mem_filterMap.mp he
  obtain ⟨node,-,rfl⟩ := Option.map_eq_some_iff.mp hn
  exact written_write hw

lemma written_framed {frame : NodeFrame} {conn : Connection}
    {s : GatewayScheduler} {out : GatewayScheduler × List Effect}
    (h : GatewayScheduler.Framed directory frame conn s out) (he : e ∈ out.2)
    (hw : written net e = some w) : (∃ id, w.frame = .cancel id) ∨ ∃ task, w.frame = .grant task := by
  cases h with
  | ignored _ => cases he
  | revoked hs hframe _ =>
    cases List.mem_singleton.mp he
    cases hw
    exact .inl ⟨_,rfl⟩
  | declined hs hframe hround => cases he
  | exhausted hs hframe hround =>
    cases List.mem_singleton.mp he
    cases hw
  | granted hs hframe hround hwinner hprobed =>
    rcases List.mem_append.mp he with he | he
    · rcases List.mem_cons.mp he with rfl | he
      · cases hw
        exact .inr ⟨_,rfl⟩
      · exact .inl ⟨_,written_cancelNodes he hw⟩
    · cases List.mem_singleton.mp he
      cases hw

lemma written_sweep {s : GatewayScheduler} {now : ℤ}
    (he : e ∈ (s.sweepExpired directory now).2) (hw : written net e = some w) :
    ∃ id, w.frame = .cancel id := by
  obtain ⟨id,round,-,-,hexpire⟩ := GatewayScheduler.mem_sweepExpired he
  rcases List.mem_append.mp hexpire with he | he
  · exact ⟨id,written_cancelNodes he hw⟩
  · cases List.mem_singleton.mp he
    cases hw

lemma put_notMem_sweep {s : GatewayScheduler} {now : ℤ} (id : String)
    (r : Receiver) (nodeId : String) : .put id r nodeId ∉ (s.sweepExpired directory now).2 := by
  intro he
  obtain ⟨k,round,-,-,hexpire⟩ := GatewayScheduler.mem_sweepExpired he
  rcases List.mem_append.mp hexpire with hcancel | herror
  · obtain ⟨m,frame,hwrite⟩ := writes_cancelNodes _ _ _ _ hcancel
    exact put_ne_write m frame hwrite
  · cases List.mem_singleton.mp herror

lemma perform_of_hung (h : d.hung = true) : d.perform net effects = d := by
  cases effects with
  | nil => rfl
  | cons e effects => rw [perform,if_pos h]

lemma perform_append (a b : List Effect) : d.perform net (a ++ b) = (d.perform net a).perform net b := by
  induction a generalizing d with
  | nil => rfl
  | cons e a ih =>
    by_cases h : d.hung = true
    · rw [perform_of_hung h,perform_of_hung h,perform_of_hung h]
    · rw [List.cons_append,perform,perform,if_neg h,if_neg h,ih]

lemma perform_writes (h : Writes effects) (hd : d.hung = false) : d.perform net effects = { d with
    writes := d.writes ++ effects.filterMap (written net)
    nullWrites := d.nullWrites ++ effects.filterMap nullTarget } := by
  induction effects generalizing d with
  | nil => simp [perform]
  | cons e effects ih =>
    obtain ⟨hhead,htail⟩ := List.forall_mem_cons.mp h
    obtain ⟨n,frame,rfl⟩ := hhead
    rw [perform,if_neg (by simp [hd])]
    cases hconn : n.connection with
    | none =>
      simp only [Node.write,hconn]
      rw [ih htail (by simpa [effect] using hd)]
      simp [effect,written,nullTarget,List.filterMap_cons]
    | some conn =>
      simp only [Node.write,hconn]
      rw [ih htail (by simpa [effect,write] using hd)]
      simp [effect,write,written,nullTarget,List.filterMap_cons]

structure Extends (net : Network) (effects : List Effect) (d d' : Desk) : Prop where
  writes : ∃ more, d'.writes = d.writes ++ more ∧ ∀ w ∈ more, ∃ e ∈ effects, written net e = some w
  nulls : ∀ id ∈ d'.nullWrites, id ∈ d.nullWrites ∨ ∃ e ∈ effects, nullTarget e = some id
  schedulers : d'.schedulers = d.schedulers
  submitted : d'.submitted = d.submitted
  withdrawn : d'.withdrawn = d.withdrawn
  declined : d'.declined = d.declined

namespace Extends

lemma of_eq (hwrites : d'.writes = d.writes) (hnulls : d'.nullWrites = d.nullWrites)
    (hschedulers : d'.schedulers = d.schedulers) (hsubmitted : d'.submitted = d.submitted)
    (hwithdrawn : d'.withdrawn = d.withdrawn) (hdeclined : d'.declined = d.declined) :
    Extends net effects d d' :=
  ⟨⟨[],by rw [hwrites,List.append_nil],by simp⟩,fun _ hid => .inl (hnulls ▸ hid),hschedulers,hsubmitted,
    hwithdrawn,hdeclined⟩

lemma refl (d : Desk) : Extends net effects d d := .of_eq rfl rfl rfl rfl rfl rfl

lemma settle (d : Desk) (out : Option ResultReceiverStorage) : Extends net effects d (d.settle out) := by
  cases out <;> exact .of_eq rfl rfl rfl rfl rfl rfl

lemma cons {d'' : Desk} {e : Effect} (h : Extends net [e] d d') (h' : Extends net effects d' d'') :
    Extends net (e :: effects) d d'' where
  writes := by
    obtain ⟨more,heq,hmore⟩ := h.writes
    obtain ⟨more',heq',hmore'⟩ := h'.writes
    refine ⟨more ++ more',by rw [heq',heq,List.append_assoc],fun w hw => ?_⟩
    rcases List.mem_append.mp hw with hw | hw
    · obtain ⟨e',he',hwritten⟩ := hmore w hw
      exact ⟨e,List.mem_cons_self,List.mem_singleton.mp he' ▸ hwritten⟩
    · obtain ⟨e',he',hwritten⟩ := hmore' w hw
      exact ⟨e',List.mem_cons_of_mem _ he',hwritten⟩
  nulls id hid := by
    rcases h'.nulls id hid with hid | ⟨e',he',hnull⟩
    · rcases h.nulls id hid with hid | ⟨e',he',hnull⟩
      · exact .inl hid
      · exact .inr ⟨e,List.mem_cons_self,List.mem_singleton.mp he' ▸ hnull⟩
    · exact .inr ⟨e',List.mem_cons_of_mem _ he',hnull⟩
  schedulers := h'.schedulers.trans h.schedulers
  submitted := h'.submitted.trans h.submitted
  withdrawn := h'.withdrawn.trans h.withdrawn
  declined := h'.declined.trans h.declined

end Extends

lemma effect_extends (d : Desk) (e : Effect) : Extends net [e] d (d.effect net e) := by
  cases e with
  | write conn frame =>
    exact ⟨⟨_,rfl,fun w hw => ⟨_,List.mem_singleton_self _,congrArg some (List.mem_singleton.mp hw).symm⟩⟩,
      fun _ hid => .inl hid,rfl,rfl,rfl,rfl⟩
  | nullWrite nodeId frame =>
    refine ⟨⟨[],(List.append_nil _).symm,by simp⟩,fun id hid => ?_,rfl,rfl,rfl,rfl⟩
    rcases List.mem_append.mp hid with hid | hid
    · exact .inl hid
    · exact .inr ⟨_,List.mem_singleton_self _,congrArg some (List.mem_singleton.mp hid).symm⟩
  | put id r nodeId => exact .of_eq rfl rfl rfl rfl rfl rfl
  | deliverError r message status => exact .settle d _

lemma perform_extends (net : Network) (d : Desk) (effects : List Effect) :
    Extends net effects d (d.perform net effects) := by
  induction effects generalizing d with
  | nil => exact .refl d
  | cons e effects ih =>
    rw [perform]
    split
    · exact .refl d
    · exact (effect_extends d e).cons (ih _)

lemma withScheduler_writes {Q : Write → Prop} {i : ℕ} {op : GatewayScheduler → GatewayScheduler × List Effect}
    (h : ∀ w ∈ d.writes, Q w) (hop : ∀ routed, d.schedulers[i]? = some routed →
      ∀ e ∈ (op routed.scheduler).2, ∀ w, written net e = some w → Q w) :
    ∀ w ∈ (d.withScheduler net i op).writes, Q w := by
  intro w hw
  rw [withScheduler] at hw
  split at hw
  · exact h w hw
  next routed hrouted =>
  obtain ⟨more,heq,hmore⟩ := (perform_extends net { d with
    schedulers := d.schedulers.set i { routed with scheduler := (op routed.scheduler).1 } } _).writes
  rw [heq] at hw
  rcases List.mem_append.mp hw with hw | hw
  · exact h w hw
  · obtain ⟨e,he,hwritten⟩ := hmore w hw
    exact hop routed hrouted e he w hwritten

lemma close_eq (d : Desk) (ids : List String) :
    ∃ s hung, d.close ids = { d with storage := s, hung := hung } := by
  induction ids generalizing d with
  | nil => exact ⟨d.storage,d.hung,rfl⟩
  | cons id ids ih =>
    rw [close]
    split
    · exact ⟨d.storage,d.hung,rfl⟩
    · obtain ⟨s,hung,heq⟩ := ih (d.settle (d.storage.notifyNodeDisconnected id))
      refine ⟨s,hung,heq.trans ?_⟩
      cases d.storage.notifyNodeDisconnected id <;> rfl

lemma settle_eq (d : Desk) (out : Option ResultReceiverStorage) :
    ∃ s hung, d.settle out = { d with storage := s, hung := hung } := by
  cases out with
  | none => exact ⟨d.storage,true,rfl⟩
  | some s => exact ⟨s,d.hung,rfl⟩

end Desk
end Strij.Gateway
