import Strij.Gateway.ResultReceiverStorage
import Strij.Lib.OneShot

/-! Runs of the receiver storage: receivers put under fresh ids, and frames and disconnects in any
order. Every receiver is answered at most once, and nothing reaches it after that. -/
namespace Strij.Gateway
open Strij.Lib Strij.Wire

namespace ResultReceiverStorage
variable {s s' : ResultReceiverStorage} {id k : String} {r : Receiver} {c : ReceiverCall}

lemma call_of_endpoint (h : r.isForwarder = false) (c : ReceiverCall) : s.call r c = some (s.record r c) := by
  cases r with
  | client key => rfl
  | nodeConnection taskId conn => rfl
  | forwarder taskId => cases h

lemma mem_tasksOf {nodeId : String} : id ∈ s.tasksOf nodeId ↔ s.nodeOfTask.lookup id = some nodeId := by
  rw [tasksOf,List.mem_map]
  constructor
  · rintro ⟨⟨i,n⟩,hmem,rfl⟩
    obtain ⟨hentry,hn⟩ := List.mem_filter.mp hmem
    cases of_decide_eq_true hn
    exact AList.mem_lookup_iff.mpr hentry
  · intro h
    exact ⟨⟨id,nodeId⟩,List.mem_filter.mpr ⟨AList.mem_lookup_iff.mp h,by simp⟩,rfl⟩

lemma tasksOf_nodup (nodeId : String) : (s.tasksOf nodeId).Nodup :=
  (List.filter_sublist.map Sigma.fst).nodup s.nodeOfTask.nodupKeys

@[simp] lemma get_erase_self : (s.erase id).get id = none := AList.lookup_erase _ _

lemma get_erase_ne (h : k ≠ id) : (s.erase id).get k = s.get k := AList.lookup_erase_ne h

/-- The tables have the same keys, and only clients and node connections are stored. -/
structure Plain (s : ResultReceiverStorage) : Prop where
  keys : ∀ id, id ∈ s.receivers ↔ id ∈ s.nodeOfTask
  endpoint : ∀ id r, s.get id = some r → r.isForwarder = false

namespace Plain

lemma empty : Plain {} := ⟨fun _ => Iff.rfl,fun _ _ h => nomatch h⟩

lemma erase (h : s.Plain) (id : String) : (s.erase id).Plain where
  keys k := by
    change k ∈ s.receivers.erase id ↔ k ∈ s.nodeOfTask.erase id
    rw [AList.mem_erase,AList.mem_erase,h.keys]
  endpoint k r hk := h.endpoint k r (lookup_erase_eq_some hk).2

lemma put (h : s.Plain) (hr : r.isForwarder = false ∨ id ∈ s.receivers) (nodeId : String) :
    (s.put id r nodeId).Plain where
  keys k := by simp [ResultReceiverStorage.put,h.keys]
  endpoint k q hk := by
    rcases lookup_emplace_eq_some hk with hk | ⟨hid,heq⟩
    · exact h.endpoint k q hk
    · cases heq
      exact hr.resolve_right hid

lemma call (h : s.Plain) (hget : s.get id = some r) (c : ReceiverCall) :
    s.call r c = some (s.record r c) := call_of_endpoint (h.endpoint id r hget) c

end Plain

/-- What holds between any two events: each receiver is stored once, and the stored ones are
unanswered. -/
structure Consistent (s : ResultReceiverStorage) : Prop extends Plain s where
  distinct : ∀ id k r, s.get id = some r → s.get k = some r → id = k
  orderly : Orderly ReceiverCall.terminal (fun r => ∃ id, s.get id = some r) s.calls

namespace Consistent

lemma empty : Consistent {} where
  toPlain := .empty
  distinct _ _ _ h := nomatch h
  orderly := .empty

variable (h : s.Consistent)
include h

lemma erase (id : String) : (s.erase id).Consistent where
  toPlain := h.toPlain.erase id
  distinct i k r hi hk := h.distinct i k r (lookup_erase_eq_some hi).2 (lookup_erase_eq_some hk).2
  orderly := h.orderly.mono fun _ ⟨k,hk⟩ => ⟨k,(lookup_erase_eq_some hk).2⟩

lemma put (hr : r.isForwarder = false)
    (hnew : ∀ k, s.get k ≠ some r) (hcalls : callsTo s.calls r = []) (nodeId : String) :
    (s.put id r nodeId).Consistent where
  toPlain := h.toPlain.put (.inl hr) nodeId
  distinct i k q hi hk := by
    rcases lookup_emplace_eq_some hi with hi | ⟨-,heq⟩ <;>
      rcases lookup_emplace_eq_some hk with hk | ⟨-,heq'⟩
    · exact h.distinct i k q hi hk
    · cases heq'
      exact absurd hi (hnew i)
    · cases heq
      exact absurd hk (hnew k)
    · cases heq
      cases heq'
      rfl
  orderly := (h.orderly.add hcalls).mono fun q ⟨k,hk⟩ => by
    rcases lookup_emplace_eq_some hk with hk | ⟨-,heq⟩
    · exact .inl ⟨k,hk⟩
    · cases heq
      exact .inr rfl

lemma resolve (hget : s.get id = some r) (c : ReceiverCall) :
    ((s.record r c).eraseIf c.terminal id).Consistent := by
  have horderly := h.orderly.call ⟨id,hget⟩ c
  cases hterminal : c.terminal with
  | false =>
    exact ⟨⟨h.keys,h.endpoint⟩,h.distinct,horderly.mono fun q hq => ⟨hq,fun _ => hterminal⟩⟩
  | true =>
    obtain ⟨⟨hkeys,hendpoint⟩,hdistinct,-⟩ := h.erase id
    refine ⟨⟨hkeys,hendpoint⟩,hdistinct,horderly.mono fun q ⟨k,hk⟩ => ?_⟩
    obtain ⟨hne,hq⟩ := lookup_erase_eq_some hk
    exact ⟨⟨k,hq⟩,fun heq => absurd (h.distinct k id r (heq ▸ hq) hget) hne⟩

lemma rejected (rejected : TaskRejected) :
    ∃ answer s', s.handleTaskRejectedFrame rejected = some (answer,s') ∧ s'.Consistent := by
  rw [handleTaskRejectedFrame]
  split
  · exact ⟨_,s,rfl,h⟩
  · next r hget =>
    rw [h.toPlain.call hget]
    exact ⟨_,_,rfl,h.resolve hget (.deliverError rejected.reason .capacityRefused)⟩

lemma failed_result {result : TaskResult} (hget : s.get result.id = some r)
    (hfailed : result.isOk = false) : s.handleTaskResultFrame result =
      some (.ok,(s.record r (.deliverError result.body (result.status.getD .ok))).erase result.id) := by
  rw [handleTaskResultFrame,hget]
  simp [hfailed,h.toPlain.call hget]

lemma result (result : TaskResult) :
    ∃ answer s', s.handleTaskResultFrame result = some (answer,s') ∧ s'.Consistent := by
  cases hget : s.get result.id with
  | none =>
    rw [handleTaskResultFrame,hget]
    exact ⟨_,s,rfl,h⟩
  | some r =>
    cases hok : result.isOk with
    | false =>
      exact ⟨_,_,h.failed_result hget hok,
        h.resolve hget (.deliverError result.body (result.status.getD .ok))⟩
    | true =>
      rw [handleTaskResultFrame,hget]
      simp only [hok,Bool.not_true,Bool.false_eq_true,if_false,h.toPlain.call hget]
      exact ⟨_,_,rfl,h.resolve hget (.deliver result.body result.final)⟩

end Consistent

def nodeDisconnected : ReceiverCall := .deliverError "node disconnected" .capacityRefused

lemma Consistent.disconnectTasks (h : s.Consistent) {ids : List String} (hids : ids.Nodup) :
    ∃ s', ResultReceiverStorage.disconnectTasks ids s = some s' ∧ s'.Consistent ∧
      s'.calls = s.calls ++ (ids.filterMap s.get).map (fun r => (r,nodeDisconnected)) ∧
      ∀ k, s'.get k = if k ∈ ids then none else s.get k := by
  induction ids generalizing s with
  | nil => exact ⟨s,rfl,h,by simp,by simp⟩
  | cons id ids ih =>
    obtain ⟨hid,hids⟩ := List.nodup_cons.mp hids
    -- the later ids are looked up in a storage without the first one, where they still are
    have hlater (t : ResultReceiverStorage) (ht : ∀ k, t.get k = s.get k) :
        ids.filterMap (t.erase id).get = ids.filterMap s.get := by
      refine List.filterMap_congr fun k hk => ?_
      have hne : k ≠ id := fun heq => hid (heq ▸ hk)
      rw [get_erase_ne hne,ht]
    have hgone (t : ResultReceiverStorage) (ht : ∀ k, t.get k = s.get k) (k : String) :
        (if k ∈ ids then none else (t.erase id).get k) = if k ∈ id :: ids then none else s.get k := by
      by_cases hk : k = id
      · subst hk
        simp
      · simp [hk,get_erase_ne hk,ht]
    rw [ResultReceiverStorage.disconnectTasks]
    split
    · next hget =>
      obtain ⟨s',hrun,hs',hcalls,hlookup⟩ := ih (h.erase id) hids
      refine ⟨s',hrun,hs',?_,fun k => (hlookup k).trans (hgone s (fun _ => rfl) k)⟩
      rw [hcalls,hlater s (fun _ => rfl),List.filterMap_cons_none hget]
      rfl
    · next r hget =>
      rw [h.toPlain.call hget]
      obtain ⟨s',hrun,hs',hcalls,hlookup⟩ := ih (h.resolve hget nodeDisconnected) hids
      refine ⟨s',hrun,hs',?_,fun k => (hlookup k).trans (hgone (s.record r _) (fun _ => rfl) k)⟩
      rw [hcalls,List.filterMap_cons_some hget,List.map_cons]
      change s.calls ++ _ ++ List.map _ (ids.filterMap ((s.record r _).erase id).get) = _
      rw [hlater (s.record r _) (fun _ => rfl),List.append_assoc]
      rfl

lemma Consistent.nodeDisconnected (h : s.Consistent) (nodeId : String) :
    ∃ s', s.notifyNodeDisconnected nodeId = some s' ∧ s'.Consistent ∧
      s'.calls = s.calls ++ ((s.tasksOf nodeId).filterMap s.get).map
        (fun r => (r,ResultReceiverStorage.nodeDisconnected)) ∧
      ∀ k, s'.get k = if s.nodeOfTask.lookup k = some nodeId then none else s.get k := by
  obtain ⟨s',hrun,hs',hcalls,hlookup⟩ := h.disconnectTasks (s.tasksOf_nodup nodeId)
  refine ⟨s',hrun,hs',hcalls,fun k => (hlookup k).trans ?_⟩
  simp only [mem_tasksOf]

end ResultReceiverStorage

/-- What happens to the storage; `malformed` is a result or rejection frame that does not parse. -/
inductive StorageEvent
  | put (id : String) (receiver : Receiver) (nodeId : String)
  | result (result : TaskResult)
  | rejected (rejected : TaskRejected)
  | malformed
  | nodeDisconnected (nodeId : String)
  | clientDisconnected (id : String)

namespace ResultReceiverStorage
variable {s s' : ResultReceiverStorage} {later : List (String × Receiver)} {r : Receiver}

def step (s : ResultReceiverStorage) : StorageEvent → Option ResultReceiverStorage
  | .put id receiver nodeId => some (s.put id receiver nodeId)
  | .result result => (s.handleTaskResultFrame result).map Prod.snd
  | .rejected rejected => (s.handleTaskRejectedFrame rejected).map Prod.snd
  | .malformed => some s
  | .nodeDisconnected nodeId => s.notifyNodeDisconnected nodeId
  | .clientDisconnected id => some (s.notifyClientDisconnected id)

def run (s : ResultReceiverStorage) : List StorageEvent → Option ResultReceiverStorage
  | [] => some s
  | e :: events => (s.step e).bind (run · events)

def putsOf : List StorageEvent → List (String × Receiver)
  | [] => []
  | .put id receiver _ :: events => (id,receiver) :: putsOf events
  | _ :: events => putsOf events

/-- Every id and every receiver is put once, and the receivers are clients and node connections. -/
structure FreshPuts (events : List StorageEvent) : Prop where
  ids : ((putsOf events).map Prod.fst).Nodup
  receivers : ((putsOf events).map Prod.snd).Nodup
  endpoints : ∀ x ∈ putsOf events, x.2.isForwarder = false

/-- Nothing is known yet about what is still to be put. -/
structure Awaits (s : ResultReceiverStorage) (later : List (String × Receiver)) : Prop where
  ids : ∀ x ∈ later, s.get x.1 = none
  receivers : ∀ x ∈ later, ∀ k, s.get k ≠ some x.2
  calls : ∀ x ∈ later, callsTo s.calls x.2 = []

lemma Awaits.of_step (h : s.Awaits later) (hget : ∀ k r, s'.get k = some r → s.get k = some r)
    (hcalls : ∀ r, callsTo s'.calls r = callsTo s.calls r ∨ ∃ k, s.get k = some r) : s'.Awaits later where
  ids x hx := by
    cases hk : s'.get x.1 with
    | none => rfl
    | some r => exact absurd (hget _ _ hk) (by simp [h.ids x hx])
  receivers x hx k hk := h.receivers x hx k (hget k _ hk)
  calls x hx := by
    rcases hcalls x.2 with hcalls | ⟨k,hk⟩
    · rw [hcalls,h.calls x hx]
    · exact absurd hk (h.receivers x hx k)

lemma get_of_eraseIf {b : Bool} {id k : String} (h : (s.eraseIf b id).get k = some r) : s.get k = some r := by
  cases b with
  | false => exact h
  | true => exact (lookup_erase_eq_some h).2

lemma calls_eraseIf (b : Bool) (id : String) : (s.eraseIf b id).calls = s.calls := by
  cases b <;> rfl

lemma Awaits.resolve (h : s.Awaits later) {id : String}
    (hget : s.get id = some r) (c : ReceiverCall) (b : Bool) :
    ((s.record r c).eraseIf b id).Awaits later := by
  refine h.of_step (fun k q hk => (get_of_eraseIf hk :)) fun q => ?_
  rw [calls_eraseIf]
  by_cases hq : r = q
  · exact .inr ⟨id,hq ▸ hget⟩
  · exact .inl (by simp [record,callsTo_cons_ne hq])

/-- Every event but a put keeps the storage consistent and stores nothing new. -/
lemma Consistent.step (h : s.Consistent) {e : StorageEvent}
    (hlater : s.Awaits (putsOf [e] ++ later)) (hids : ((putsOf [e] ++ later).map Prod.fst).Nodup)
    (hreceivers : ((putsOf [e] ++ later).map Prod.snd).Nodup)
    (hendpoint : ∀ x ∈ putsOf [e],x.2.isForwarder = false) :
    ∃ s', s.step e = some s' ∧ s'.Consistent ∧ s'.Awaits later := by
  cases e with
  | put id receiver nodeId =>
    have hmem : (id,receiver) ∈ putsOf [.put id receiver nodeId] ++ later := by simp [putsOf]
    refine ⟨_,rfl,h.put (hendpoint _ (by simp [putsOf])) (hlater.receivers _ hmem)
      (hlater.calls _ hmem) nodeId,?_⟩
    have hold (x) (hx : x ∈ later) := List.mem_append_right (putsOf [.put id receiver nodeId]) hx
    have hid (x) (hx : x ∈ later) : x.1 ≠ id := by
      rintro rfl
      exact (List.nodup_cons.mp hids).1 (List.mem_map.mpr ⟨x,hx,rfl⟩)
    have hreceiver (x) (hx : x ∈ later) : x.2 ≠ receiver := by
      rintro rfl
      exact (List.nodup_cons.mp hreceivers).1 (List.mem_map.mpr ⟨x,hx,rfl⟩)
    refine ⟨fun x hx => ?_,fun x hx k hk => ?_,fun x hx => hlater.calls x (hold x hx)⟩
    · exact (lookup_emplace_ne (hid x hx)).trans (hlater.ids x (hold x hx))
    · rcases lookup_emplace_eq_some hk with hk | ⟨-,heq⟩
      · exact hlater.receivers x (hold x hx) k hk
      · exact hreceiver x hx (eq_of_heq (Sigma.mk.inj heq).2)
  | result result =>
    obtain ⟨answer,s',hrun,hs'⟩ := h.result result
    refine ⟨s',by simp [ResultReceiverStorage.step,hrun],hs',?_⟩
    rw [handleTaskResultFrame] at hrun
    split at hrun
    · cases hrun
      exact hlater
    · next r hget =>
      rw [h.toPlain.call hget,h.toPlain.call hget] at hrun
      split at hrun <;> cases hrun
      · exact hlater.resolve hget _ true
      · exact hlater.resolve hget _ _
  | rejected rejected =>
    obtain ⟨answer,s',hrun,hs'⟩ := h.rejected rejected
    refine ⟨s',by simp [ResultReceiverStorage.step,hrun],hs',?_⟩
    rw [handleTaskRejectedFrame] at hrun
    split at hrun
    · cases hrun
      exact hlater
    · next r hget =>
      rw [h.toPlain.call hget] at hrun
      cases hrun
      exact hlater.resolve hget _ true
  | malformed => exact ⟨s,rfl,h,hlater⟩
  | nodeDisconnected nodeId =>
    obtain ⟨s',hrun,hs',hcalls,hlookup⟩ := h.nodeDisconnected nodeId
    refine ⟨s',hrun,hs',hlater.of_step (fun k r hk => ?_) fun r => ?_⟩
    · rw [hlookup] at hk
      split at hk
      · cases hk
      · exact hk
    · by_cases hr : r ∈ (s.tasksOf nodeId).filterMap s.get
      · obtain ⟨k,-,hk⟩ := List.mem_filterMap.mp hr
        exact .inr ⟨k,hk⟩
      · left
        have hnone : callsTo (((s.tasksOf nodeId).filterMap s.get).map
            (fun q => (q,ResultReceiverStorage.nodeDisconnected))) r = [] := by
          refine List.eq_nil_iff_forall_not_mem.mpr fun c hc => hr ?_
          obtain ⟨q,hq,heq⟩ := List.mem_map.mp (mem_callsTo.mp hc)
          cases heq
          exact hq
        rw [hcalls,callsTo_append,hnone,List.append_nil]
  | clientDisconnected id =>
    exact ⟨_,rfl,h.erase id,hlater.of_step (fun k r hk => (lookup_erase_eq_some hk).2)
      fun r => .inl rfl⟩

lemma putsOf_cons (e : StorageEvent) (events : List StorageEvent) :
    putsOf (e :: events) = putsOf [e] ++ putsOf events := by
  cases e <;> rfl

lemma Consistent.run {events : List StorageEvent} (h : s.Consistent) (hfresh : FreshPuts events)
    (hlater : s.Awaits (putsOf events)) : ∃ s', s.run events = some s' ∧ s'.Consistent := by
  induction events generalizing s with
  | nil => exact ⟨s,rfl,h⟩
  | cons e events ih =>
    obtain ⟨hids,hreceivers,hendpoints⟩ := hfresh
    rw [putsOf_cons] at hids hreceivers hendpoints hlater
    obtain ⟨t,hstep,ht,hrest⟩ := h.step hlater hids hreceivers
      (fun x hx => hendpoints x (List.mem_append_left _ hx))
    rw [List.map_append] at hids hreceivers
    obtain ⟨s',hrun,hs'⟩ := ih ht ⟨hids.of_append_right,hreceivers.of_append_right,
      fun x hx => hendpoints x (List.mem_append_right _ hx)⟩ hrest
    exact ⟨s',by simp [ResultReceiverStorage.run,hstep,hrun],hs'⟩

/-- What the storage guarantees about its receivers between two events. -/
structure ResolvesOnce (s : ResultReceiverStorage) : Prop where
  keys : ∀ id, id ∈ s.receivers ↔ id ∈ s.nodeOfTask
  once : ∀ r, OneShot ReceiverCall.terminal (callsTo s.calls r)
  failed : ∀ (result : TaskResult) r, result.isOk = false → s.get result.id = some r →
    s.step (.result result) =
      some ((s.record r (.deliverError result.body (result.status.getD .ok))).erase result.id)
  disconnect : ∀ nodeId, ∃ (s' : ResultReceiverStorage) (resolved : List Receiver),
    s.step (.nodeDisconnected nodeId) = some s' ∧ resolved.Nodup ∧
    (∀ r, r ∈ resolved ↔ ∃ id, s.get id = some r ∧ s.nodeOfTask.lookup id = some nodeId) ∧
    s'.calls = s.calls ++ resolved.map (fun r => (r,nodeDisconnected)) ∧
    ∀ id, s'.get id = if s.nodeOfTask.lookup id = some nodeId then none else s.get id

lemma Consistent.resolvesOnce (h : s.Consistent) : s.ResolvesOnce where
  keys := h.keys
  once := h.orderly.once
  failed result r hfailed hget := by
    rw [ResultReceiverStorage.step,h.failed_result hget hfailed]
    rfl
  disconnect nodeId := by
    obtain ⟨s',hrun,-,hcalls,hlookup⟩ := h.nodeDisconnected nodeId
    refine ⟨s',_,hrun,?_,fun r => ?_,hcalls,hlookup⟩
    · exact (s.tasksOf_nodup nodeId).filterMap fun i k r hi hk => h.distinct i k r hi hk
    · simp only [List.mem_filterMap,mem_tasksOf,and_comm]

/-- In any run from the empty storage with fresh ids, every receiver is resolved at most once. -/
theorem receivers_resolved_once (events : List StorageEvent) (h : FreshPuts events) :
    ∃ s, run {} events = some s ∧ s.ResolvesOnce := by
  obtain ⟨s,hrun,hs⟩ := Consistent.empty.run h ⟨fun _ _ => rfl,fun _ _ _ => nofun,fun _ _ => rfl⟩
  exact ⟨s,hrun,hs.resolvesOnce⟩

/-- Two tasks on one node: a partial result and a failure marked as not final for the first, with
duplicates, then the node and a client go away. -/
def twoTasks : List StorageEvent :=
  [.put "a" (.client 1) "n",.put "b" (.nodeConnection "b" 4) "n",.result ⟨"a","1",some false,none⟩,
    .result ⟨"a","no",some false,some .internal⟩,.result ⟨"a","2",none,none⟩,.rejected ⟨"c","busy"⟩,
    .malformed,.nodeDisconnected "n",.clientDisconnected "b"]

theorem receivers_resolved_once_twoTasks :
    FreshPuts twoTasks ∧ ∃ s, run {} twoTasks = some s ∧ s.ResolvesOnce :=
  have h : FreshPuts twoTasks := ⟨by decide,by decide,by decide⟩
  ⟨h,receivers_resolved_once twoTasks h⟩

end ResultReceiverStorage
end Strij.Gateway
