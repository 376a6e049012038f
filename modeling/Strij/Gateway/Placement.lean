import Strij.Gateway.ProbedNodes

/-! Where the receivers of placed tasks are: stored under the id that the node has, so that the close callback
of its connection finds them. -/
namespace Strij.Gateway
open Strij.Lib Strij.Wire

namespace ResultReceiverStorage
variable {s s' : ResultReceiverStorage} {id k : String} {r q : Receiver} {nodeId : String}

lemma get_put (h : s.get k = some q) : (s.put id r nodeId).get k = some q := by
  by_cases hk : k = id
  · subst hk
    have hmem : k ∈ s.receivers := mem_iff_lookup.mpr ⟨q,h⟩
    exact (congrArg (AList.lookup k) (emplace_of_mem hmem)).trans h
  · exact (lookup_emplace_ne hk).trans h

lemma nodeOfTask_put {m : String} (h : s.nodeOfTask.lookup k = some m) :
    (s.put id r nodeId).nodeOfTask.lookup k = some m := by
  by_cases hk : k = id
  · subst hk
    have hmem : k ∈ s.nodeOfTask := mem_iff_lookup.mpr ⟨m,h⟩
    exact (congrArg (AList.lookup k) (emplace_of_mem hmem)).trans h
  · exact (lookup_emplace_ne hk).trans h

lemma Plain.put_of_mem (h : s.Plain) (hid : id ∈ s.receivers) : s.put id r nodeId = s := by
  rw [ResultReceiverStorage.put,emplace_of_mem hid,emplace_of_mem ((h.keys id).mp hid)]

lemma Plain.put_new (h : s.Plain) (hid : id ∉ s.receivers) :
    (s.put id r nodeId).get id = some r ∧ (s.put id r nodeId).nodeOfTask.lookup id = some nodeId :=
  ⟨lookup_emplace_self hid,lookup_emplace_self fun hmem => hid ((h.keys id).mpr hmem)⟩

lemma Plain.nodeOfTask_of_get (h : s.Plain) (hget : s.get id = some r) :
    ∃ nodeId, s.nodeOfTask.lookup id = some nodeId :=
  mem_iff_lookup.mp ((h.keys id).mp (mem_iff_lookup.mpr ⟨r,hget⟩))

lemma Plain.get_of_nodeOfTask (h : s.Plain) (hnode : s.nodeOfTask.lookup id = some nodeId) :
    ∃ r, s.get id = some r :=
  mem_iff_lookup.mp ((h.keys id).mpr (mem_iff_lookup.mpr ⟨nodeId,hnode⟩))

end ResultReceiverStorage

namespace Desk
variable {net : Network} {d d' : Desk} {effects : List Effect}
  {s : GatewayScheduler} {routed : RoutedScheduler}
open ResultReceiverStorage (Progress)

lemma Calm.close_progress (h : d.Calm) (ids : List String) :
    Progress d.storage (d.close ids).storage ∧ ∀ nodeId ∈ ids, ∀ id r, d.storage.get id = some r →
      d.storage.nodeOfTask.lookup id = some nodeId → (d.close ids).storage.Resolved r := by
  induction ids generalizing d with
  | nil => exact ⟨.refl h.plain,by simp⟩
  | cons k ids ih =>
    obtain ⟨s,hs,hfirst,hresolved⟩ := h.plain.progress_nodeDisconnected k
    rw [Desk.close,if_neg (by simp [h.running]),hs]
    obtain ⟨hrest,hlater⟩ := ih (h.settle hfirst.plain)
    refine ⟨hfirst.trans hrest,fun nodeId hmem id r hget hnode => ?_⟩
    rcases List.mem_cons.mp hmem with rfl | hmem
    · exact (hresolved id r hget hnode).of_progress hrest
    rcases hfirst.kept id r hget with hget' | hr
    · exact hlater nodeId hmem id r hget' ((hfirst.old id r hget').2.trans hnode)
    · exact hr.of_progress hrest

lemma Calm.perform_progress (h : d.Calm) (hput : ∀ id r n, .put id r n ∉ effects) :
    Progress d.storage (d.perform net effects).storage := by
  induction effects generalizing d with
  | nil => exact .refl h.plain
  | cons e effects ih =>
    rw [Desk.perform,if_neg (by simp [h.running])]
    have hrest (id : String) (r : Receiver) (n : String) : .put id r n ∉ effects :=
      fun hmem => hput id r n (List.mem_cons_of_mem _ hmem)
    cases e with
    | write conn frame =>
      have hcalm : (d.effect net (.write conn frame)).Calm := ⟨h.plain,h.running⟩
      exact ih hcalm hrest
    | nullWrite nodeId frame =>
      have hcalm : (d.effect net (.nullWrite nodeId frame)).Calm := ⟨h.plain,h.running⟩
      exact ih hcalm hrest
    | put id r nodeId => exact absurd List.mem_cons_self (hput id r nodeId)
    | deliverError r message status =>
      obtain ⟨s,hs,hprogress⟩ := h.plain.progress_call r (.deliverError message status)
      rw [Desk.effect,hs]
      exact hprogress.trans (ih (h.settle hprogress.plain) hrest)

lemma rounds_set {i : ℕ} (hrouted : d.schedulers[i]? = some routed)
    (hs : routed.scheduler.Shrinks s) (j : ℕ) (routed' : RoutedScheduler)
    (hj : (d.schedulers.set i { routed with scheduler := s })[j]? = some routed') :
    ∃ routed, d.schedulers[j]? = some routed ∧ routed.scheduler.Shrinks routed'.scheduler := by
  rw [List.getElem?_set] at hj
  split at hj
  · next heq =>
    subst heq
    split at hj
    · cases hj
      exact ⟨routed,hrouted,hs⟩
    · cases hj
  · exact ⟨routed',hj,GatewayScheduler.SameRounds.shrinks ⟨rfl,rfl⟩⟩

def NotPending (d : Desk) (id : String) : Prop :=
  ∀ (i : ℕ) routed, d.schedulers[i]? = some routed → routed.scheduler.pending.lookup id = none

lemma NotPending.set {id : String} (h : d.NotPending id) {i : ℕ}
    (hrouted : d.schedulers[i]? = some routed) (hs : routed.scheduler.Shrinks s) :
    NotPending { d with schedulers := d.schedulers.set i { routed with scheduler := s } } id := by
  intro j routed' hj
  obtain ⟨old,hold,-,hshrinks⟩ := rounds_set hrouted hs j routed' hj
  cases hround : routed'.scheduler.pending.lookup id with
  | none => rfl
  | some round =>
    obtain ⟨round',hround',-⟩ := hshrinks id round hround
    rw [h j old hold] at hround'
    cases hround'

structure Advances (d d' : Desk) : Prop where
  storage : Progress d.storage d'.storage
  running : d'.hung = false
  submitted : d'.submitted = d.submitted
  withdrawn : d'.withdrawn = d.withdrawn
  writes : ∀ w ∈ d'.writes, w ∈ d.writes ∨ placedBy w.frame = none
  rounds : ∀ (i : ℕ) routed', d'.schedulers[i]? = some routed' →
    ∃ routed, d.schedulers[i]? = some routed ∧ routed.scheduler.Shrinks routed'.scheduler

namespace Advances

lemma of_storage (h : d.Calm) {s : ResultReceiverStorage} (hs : Progress d.storage s) :
    Advances d { d with storage := s } :=
  ⟨hs,h.running,rfl,rfl,fun _ hw => .inl hw,fun _ routed hrouted =>
    ⟨routed,hrouted,GatewayScheduler.SameRounds.shrinks ⟨rfl,rfl⟩⟩⟩

lemma performed (h : d.Calm) {i : ℕ} {routed : RoutedScheduler} (hrouted : d.schedulers[i]? = some routed)
    {s : GatewayScheduler} (hs : routed.scheduler.Shrinks s) (hput : ∀ id r n, .put id r n ∉ effects)
    (hquiet : ∀ e ∈ effects, ∀ w, written net e = some w → placedBy w.frame = none) :
    Advances d ({ d with schedulers := d.schedulers.set i { routed with scheduler := s } }.perform
      net effects) := by
  have hext := perform_extends net
    { d with schedulers := d.schedulers.set i { routed with scheduler := s } } effects
  have hcalm := h.schedulers (d.schedulers.set i { routed with scheduler := s })
  refine ⟨hcalm.perform_progress hput,(hcalm.perform hput).running,hext.submitted,hext.withdrawn,
    fun w hw => ?_,fun j routed' hj => ?_⟩
  · obtain ⟨more,heq,hmore⟩ := hext.writes
    rw [heq] at hw
    refine (List.mem_append.mp hw).imp_right fun hw => ?_
    obtain ⟨e,he,hwritten⟩ := hmore w hw
    exact hquiet e he w hwritten
  · rw [hext.schedulers] at hj
    exact rounds_set hrouted hs j routed' hj

end Advances

end Desk

namespace EventLoop
variable {g g' : EventLoop} {e : LoopEvent} {net : Network} {d : Desk} {id : String} {r : Receiver}
open ResultReceiverStorage (Progress)

/-- The receiver is resolved, its client went away, or it is stored under the node that has the
connection, which is open. -/
def Held (g : EventLoop) (conn : ℕ) (id : String) (r : Receiver) : Prop :=
  g.desk.storage.Resolved r ∨ id ∈ g.desk.withdrawn ∨ ∃ nodeId n, g.net.getNode nodeId = some n ∧
    n.link = some ⟨conn,true⟩ ∧ g.desk.storage.get id = some r ∧
    g.desk.storage.nodeOfTask.lookup id = some nodeId

/-- A pending round is that of a client's task, which is not stored, or that of a child, which was probed
only at the node it is stored under. -/
structure RoundOf (d : Desk) (id : String) (round : PendingProbe) : Prop where
  task : round.task.id = id
  submitted : id ∈ d.submitted.map Prod.fst
  receiver : (round.receiver.isForwarder = false ∧ (id,round.receiver) ∈ d.submitted ∧
      id ∉ d.storage.receivers) ∨
    round.receiver = .forwarder id ∧ ∀ nodeId, d.storage.nodeOfTask.lookup id = some nodeId →
      ∀ m ∈ round.probedNodeIds, m = nodeId

lemma RoundOf.progress {d' : Desk} {round round' : PendingProbe} (h : RoundOf d id round)
    (hs : Progress d.storage d'.storage) (hsubmitted : d'.submitted = d.submitted)
    (htask : round'.task = round.task) (hreceiver : round'.receiver = round.receiver)
    (hsub : round'.probedNodeIds ⊆ round.probedNodeIds) : RoundOf d' id round' := by
  refine ⟨htask ▸ h.task,hsubmitted ▸ h.submitted,?_⟩
  rw [hreceiver,hsubmitted]
  rcases h.receiver with ⟨hr,hmem,hfree⟩ | ⟨hr,hnodes⟩
  · refine .inl ⟨hr,hmem,fun hstored => hfree ?_⟩
    obtain ⟨q,hq⟩ := mem_iff_lookup.mp hstored
    exact mem_iff_lookup.mpr ⟨q,(hs.old id q hq).1⟩
  · refine .inr ⟨hr,fun nodeId hnode m hm => ?_⟩
    obtain ⟨q,hq⟩ := hs.plain.get_of_nodeOfTask hnode
    exact hnodes nodeId ((hs.old id q hq).2.symm.trans hnode) m (hsub hm)

structure Placed (g : EventLoop) : Prop where
  sound : g.net.Sound
  calm : g.desk.Calm
  nodup : (g.desk.submitted.map Prod.fst).Nodup
  owners : ∀ id r, g.desk.storage.get id = some r → (id,r) ∈ g.desk.submitted
  clients : ∀ id ∈ g.desk.withdrawn, ∃ key, (id,.client key) ∈ g.desk.submitted
  rounds : ∀ (i : ℕ) routed, g.desk.schedulers[i]? = some routed → ∀ id round,
    routed.scheduler.pending.lookup id = some round → RoundOf g.desk id round
  single : ∀ (i j : ℕ) routed routed', g.desk.schedulers[i]? = some routed →
    g.desk.schedulers[j]? = some routed' → ∀ id round round', routed.scheduler.pending.lookup id = some round →
      routed'.scheduler.pending.lookup id = some round' → i = j
  ids : ∀ w ∈ g.desk.writes, ∀ id, placedBy w.frame = some id → id ∈ g.desk.submitted.map Prod.fst
  /-- Only a client's task may be written to a connection that does not accept it. -/
  placed : ∀ w ∈ g.desk.writes, ∀ id r, placedBy w.frame = some id → (id,r) ∈ g.desk.submitted →
    (w.accepted = true → g.Held w.conn id r) ∧ ((∀ key, r ≠ .client key) → w.accepted = true)

namespace Placed
variable {conn : ℕ}

variable (h : Placed g)
include h

lemma same_receiver {q : Receiver} (hr : (id,r) ∈ g.desk.submitted)
    (hq : (id,q) ∈ g.desk.submitted) : r = q :=
  congrArg Prod.snd (List.inj_on_of_nodup_map h.nodup hr hq rfl)

omit h in
lemma held_progress (h : g.Held conn id r) (hs : Progress g.desk.storage d.storage)
    (hw : d.withdrawn = g.desk.withdrawn) : Held ⟨g.net,d⟩ conn id r := by
  rcases h with hresolved | hwithdrawn | ⟨nodeId,n,hget,hlink,hstored,hnode⟩
  · exact .inl (hresolved.of_progress hs)
  · exact .inr (.inl (hw ▸ hwithdrawn))
  · rcases hs.kept id r hstored with hstored' | hresolved
    · exact .inr (.inr ⟨nodeId,n,hget,hlink,hstored',(hs.old id r hstored').2.trans hnode⟩)
    · exact .inl hresolved

lemma advance (hd : Desk.Advances g.desk d) : Placed ⟨g.net,d⟩ := by
  constructor
  case sound => exact h.sound
  case calm => exact ⟨hd.storage.plain,hd.running⟩
  case nodup => exact hd.submitted ▸ h.nodup
  case owners => exact fun id r hget => hd.submitted ▸ h.owners id r (hd.storage.old id r hget).1
  case clients => exact fun id hid => hd.submitted ▸ h.clients id (hd.withdrawn ▸ hid)
  case rounds =>
    intro i routed hrouted id round hround
    obtain ⟨routed',hrouted',-,hshrinks⟩ := hd.rounds i routed hrouted
    obtain ⟨round',hround',htask,hreceiver,hsub⟩ := hshrinks id round hround
    exact (h.rounds i routed' hrouted' id round' hround').progress hd.storage hd.submitted htask hreceiver hsub
  case single =>
    intro i j routed routed' hi hj id round round' hround hround'
    obtain ⟨old,hold,-,hshrinks⟩ := hd.rounds i routed hi
    obtain ⟨old',hold',-,hshrinks'⟩ := hd.rounds j routed' hj
    obtain ⟨p,hp,-⟩ := hshrinks id round hround
    obtain ⟨p',hp',-⟩ := hshrinks' id round' hround'
    exact h.single i j old old' hold hold' id p p' hp hp'
  case ids =>
    intro w hw id hid
    rcases hd.writes w hw with hw | hnone
    · exact hd.submitted ▸ h.ids w hw id hid
    · rw [hnone] at hid
      cases hid
  case placed =>
    intro w hw id r hid hr
    rcases hd.writes w hw with hw | hnone
    · obtain ⟨hheld,haccepted⟩ := h.placed w hw id r hid (hd.submitted ▸ hr)
      exact ⟨fun ha => held_progress (hheld ha) hd.storage hd.withdrawn,haccepted⟩
    · rw [hnone] at hid
      cases hid

lemma network {closed : List String} (hnet : g.net.Evolves net closed) :
    Placed ⟨net,g.desk.close closed⟩ := by
  obtain ⟨hprogress,hresolved⟩ := h.calm.close_progress closed
  obtain ⟨s,hung,heq⟩ := g.desk.close_eq closed
  have hcalm := h.calm.close closed
  rw [heq] at hprogress hresolved hcalm ⊢
  have hdesk := h.advance (d := { g.desk with storage := s, hung := hung })
    ⟨hprogress,hcalm.running,rfl,rfl,fun _ hw => .inl hw,
      fun _ routed hi => ⟨routed,hi,GatewayScheduler.SameRounds.shrinks ⟨rfl,rfl⟩⟩⟩
  refine ⟨hnet.sound,hdesk.calm,hdesk.nodup,hdesk.owners,hdesk.clients,hdesk.rounds,hdesk.single,hdesk.ids,
    fun w hw id r hid hr => ⟨fun ha => ?_,(h.placed w hw id r hid hr).2⟩⟩
  rcases (h.placed w hw id r hid hr).1 ha with hr | hw | ⟨nodeId,n,hget,hlink,hstored,hnode⟩
  · exact .inl (hr.of_progress hprogress)
  · exact .inr (.inl hw)
  -- the connection closed with this change, or it is still the node's
  rcases hnet.keeps nodeId n w.conn hget hlink with hclosed | ⟨n',hget',hlink'⟩
  · exact .inl (hresolved nodeId hclosed id r hstored hnode)
  rcases hprogress.kept id r hstored with hstored' | hr
  · exact .inr (.inr ⟨nodeId,n',hget',hlink',hstored',(hprogress.old id r hstored').2.trans hnode⟩)
  · exact .inl hr

lemma rekey {nodeId : String} {n : NodeRecord}
    (hreads : Reads g.net nodeId n conn) {a : Advertisement} (hrekeys : g.net.Rekeys n a)
    (hfree : ∀ id, g.desk.storage.nodeOfTask.lookup id ≠ some nodeId) :
    Placed ⟨g.net.advertise n a,g.desk⟩ := by
  refine ⟨h.sound.advertise hreads.node hrekeys,h.calm,h.nodup,h.owners,h.clients,h.rounds,h.single,h.ids,
    fun w hw id r hid hr => ⟨fun ha => ?_,(h.placed w hw id r hid hr).2⟩⟩
  rcases (h.placed w hw id r hid hr).1 ha with hr | hw | ⟨k,m,hget,hlink,hstored,hnode⟩
  · exact .inl hr
  · exact .inr (.inl hw)
  refine .inr (.inr ⟨k,m,?_,hlink,hstored,hnode⟩)
  have hk : k ≠ a.nodeId := by
    rintro rfl
    exact hrekeys.2 (mem_iff_lookup.mpr ⟨m,hget⟩)
  have hk' : k ≠ n.nodeId := by
    rintro rfl
    exact hfree id (h.sound.named nodeId n hreads.node ▸ hnode)
  rw [Network.getNode_advertise hrekeys,if_neg hk,if_neg hk']
  exact hget

lemma withdraw {key : ℕ} (hclient : (id,.client key) ∈ g.desk.submitted) : Placed ⟨g.net,{ g.desk with
      storage := g.desk.storage.erase id, withdrawn := g.desk.withdrawn ++ [id] }⟩ := by
  refine ⟨h.sound,⟨h.calm.plain.erase id,h.calm.running⟩,h.nodup,fun k r hget => ?_,fun k hk => ?_,
    fun i routed hrouted k round hround => ?_,h.single,h.ids,
    fun w hw k r hid hr => ⟨fun ha => ?_,(h.placed w hw k r hid hr).2⟩⟩
  · exact h.owners k r (lookup_erase_eq_some hget).2
  · rcases List.mem_append.mp hk with hk | hk
    · exact h.clients k hk
    · cases List.mem_singleton.mp hk
      exact ⟨key,hclient⟩
  · obtain ⟨htask,hsubmitted,hreceiver⟩ := h.rounds i routed hrouted k round hround
    refine ⟨htask,hsubmitted,?_⟩
    rcases hreceiver with ⟨hr,hmem,hfree⟩ | ⟨hr,hnodes⟩
    · exact .inl ⟨hr,hmem,fun hstored => hfree (AList.mem_erase.mp hstored).2⟩
    · exact .inr ⟨hr,fun nodeId hnode => hnodes nodeId (lookup_erase_eq_some hnode).2⟩
  · by_cases hk : k = id
    · subst hk
      exact .inr (.inl (List.mem_append_right _ (List.mem_singleton_self _)))
    rcases (h.placed w hw k r hid hr).1 ha with hr | hw | ⟨nodeId,n,hget,hlink,hstored,hnode⟩
    · exact .inl hr
    · exact .inr (.inl (List.mem_append_left _ hw))
    · exact .inr (.inr ⟨nodeId,n,hget,hlink,(ResultReceiverStorage.get_erase_ne hk).trans hstored,
        (AList.lookup_erase_ne hk).trans hnode⟩)

lemma note (hfresh : id ∉ g.desk.submitted.map Prod.fst) (r : Receiver) :
    Placed ⟨g.net,{ g.desk with submitted := g.desk.submitted ++ [(id,r)] }⟩ := by
  have hmono {k : String} (hk : k ∈ g.desk.submitted.map Prod.fst) :
      k ∈ (g.desk.submitted ++ [(id,r)]).map Prod.fst := by
    rw [List.map_append]
    exact List.mem_append_left _ hk
  refine ⟨h.sound,⟨h.calm.plain,h.calm.running⟩,?_,fun k q hget => List.mem_append_left _ (h.owners k q hget),fun k hk => ?_,
    fun i routed hrouted k round hround => ?_,h.single,fun w hw k hk => hmono (h.ids w hw k hk),
    fun w hw k q hid hq => ?_⟩
  · rw [List.map_append,List.map_singleton,← List.concat_eq_append,List.nodup_concat]
    exact ⟨hfresh,h.nodup⟩
  · obtain ⟨key,hkey⟩ := h.clients k hk
    exact ⟨key,List.mem_append_left _ hkey⟩
  · obtain ⟨htask,hsubmitted,hreceiver⟩ := h.rounds i routed hrouted k round hround
    exact ⟨htask,hmono hsubmitted,hreceiver.imp_left fun ⟨hr,hmem,hfree⟩ =>
      ⟨hr,List.mem_append_left _ hmem,hfree⟩⟩
  · rcases List.mem_append.mp hq with hq | hq
    · exact h.placed w hw k q hid hq
    · cases List.mem_singleton.mp hq
      exact absurd (h.ids w hw id hid) hfresh

lemma put (hr : (id,r) ∈ g.desk.submitted) (hplain : r.isForwarder = false)
    (hfree : id ∉ g.desk.storage.receivers) (hpending : g.desk.NotPending id) (nodeId : String) :
    Placed ⟨g.net,{ g.desk with storage := g.desk.storage.put id r nodeId }⟩ := by
  refine ⟨h.sound,⟨h.calm.plain.put (.inl hplain) nodeId,h.calm.running⟩,h.nodup,fun k q hget => ?_,h.clients,
    fun i routed hrouted k round hround => ?_,h.single,h.ids,
    fun w hw k q hid hq => ⟨fun ha => ?_,(h.placed w hw k q hid hq).2⟩⟩
  · rcases lookup_emplace_eq_some hget with hget | ⟨-,heq⟩
    · exact h.owners k q hget
    · cases heq
      exact hr
  · have hk : k ≠ id := by
      rintro rfl
      rw [hpending i routed hrouted] at hround
      cases hround
    obtain ⟨htask,hsubmitted,hreceiver⟩ := h.rounds i routed hrouted k round hround
    refine ⟨htask,hsubmitted,?_⟩
    rcases hreceiver with ⟨hr,hmem,hfree⟩ | ⟨hr,hnodes⟩
    · exact .inl ⟨hr,hmem,fun hstored => (mem_emplace.mp hstored).elim hk hfree⟩
    · exact .inr ⟨hr,fun m hm => hnodes m ((lookup_emplace_ne hk).symm.trans hm)⟩
  · rcases (h.placed w hw k q hid hq).1 ha with hr | hw | ⟨m,n,hget,hlink,hstored,hnode⟩
    · exact .inl hr
    · exact .inr (.inl hw)
    · exact .inr (.inr ⟨m,n,hget,hlink,ResultReceiverStorage.get_put hstored,
        ResultReceiverStorage.nodeOfTask_put hnode⟩)

lemma write {more : List Write} {nulls : List String}
    (hmore : ∀ w ∈ more, ∀ id, placedBy w.frame = some id → id ∈ g.desk.submitted.map Prod.fst ∧
      ∀ r, (id,r) ∈ g.desk.submitted →
        (w.accepted = true → g.Held w.conn id r) ∧ ((∀ key, r ≠ .client key) → w.accepted = true)) :
    Placed ⟨g.net,{ g.desk with writes := g.desk.writes ++ more, nullWrites := nulls }⟩ := by
  refine ⟨h.sound,⟨h.calm.plain,h.calm.running⟩,h.nodup,h.owners,h.clients,
    fun i routed hrouted k round hround => ?_,h.single,fun w hw k hk => ?_,fun w hw k q hk hq => ?_⟩
  · obtain ⟨htask,hsubmitted,hreceiver⟩ := h.rounds i routed hrouted k round hround
    exact ⟨htask,hsubmitted,hreceiver⟩
  · rcases List.mem_append.mp hw with hw | hw
    · exact h.ids w hw k hk
    · exact (hmore w hw k hk).1
  · rcases List.mem_append.mp hw with hw | hw
    · exact h.placed w hw k q hk hq
    · exact (hmore w hw k hk).2 q hq

lemma assign {i : ℕ} {routed : RoutedScheduler} (hrouted : g.desk.schedulers[i]? = some routed)
    {p : ProbeScheduler} (hp : routed.scheduler = .probe p)
    (hpending : g.desk.NotPending id) {round : PendingProbe} (hround : RoundOf g.desk id round) :
    Placed ⟨g.net,{ g.desk with schedulers := g.desk.schedulers.set i { routed with
      scheduler := .probe (p.assign id round) } }⟩ := by
  have hold {j : ℕ} {routed' : RoutedScheduler} (hj : (g.desk.schedulers.set i { routed with
        scheduler := .probe (p.assign id round) })[j]? = some routed') {k : String} {round' : PendingProbe}
      (hround' : routed'.scheduler.pending.lookup k = some round') :
      k = id ∧ j = i ∧ round' = round ∨ k ≠ id ∧ ∃ routed, g.desk.schedulers[j]? = some routed ∧
        routed.scheduler.pending.lookup k = some round' := by
    rw [List.getElem?_set] at hj
    split at hj
    · next heq =>
      subst heq
      split at hj
      · cases hj
        by_cases hk : k = id
        · subst hk
          exact .inl ⟨rfl,rfl,(Option.some.inj ((AList.lookup_insert _).symm.trans hround')).symm⟩
        · refine .inr ⟨hk,routed,hrouted,?_⟩
          rw [hp]
          exact (AList.lookup_insert_ne hk).symm.trans hround'
      · cases hj
    · refine .inr ⟨?_,routed',hj,hround'⟩
      rintro rfl
      rw [hpending j routed' hj] at hround'
      cases hround'
  refine ⟨h.sound,⟨h.calm.plain,h.calm.running⟩,h.nodup,h.owners,h.clients,
    fun j routed' hj k round' hround' => ?_,
    fun j j' routed' routed'' hj hj' k round' round'' hround' hround'' => ?_,h.ids,h.placed⟩
  · rcases hold hj hround' with ⟨rfl,-,rfl⟩ | ⟨-,routed,hj,hround'⟩
    · exact ⟨hround.task,hround.submitted,hround.receiver⟩
    · obtain ⟨htask,hsubmitted,hreceiver⟩ := h.rounds j routed hj k round' hround'
      exact ⟨htask,hsubmitted,hreceiver⟩
  · rcases hold hj hround' with ⟨hk,rfl,-⟩ | ⟨hk,old,hold₁,hround'⟩ <;>
      rcases hold hj' hround'' with ⟨hk',rfl,-⟩ | ⟨hk',old',hold₂,hround''⟩
    · rfl
    · exact absurd hk hk'
    · exact absurd hk' hk
    · exact h.single j j' old old' hold₁ hold₂ k round' round'' hround' hround''

end Placed
end EventLoop
end Strij.Gateway
