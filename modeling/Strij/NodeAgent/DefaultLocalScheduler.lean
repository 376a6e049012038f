import Strij.Gateway.ResultReceiverStorage
import Strij.Lib.OneShot
import Strij.Lib.Runs

/-! The node's default scheduler runs a child locally or forwards it, and resolves its receiver. A receiver may
call the scheduler again before its own call returns. -/
namespace Strij.NodeAgent
open Strij.Lib Strij.Wire
open Strij.Gateway (ReceiverCall)

abbrev ChildReceiver := ℕ

structure DefaultLocalScheduler where
  handlers : String → Bool
  forward : Bool
  receivers : AList (fun _ : String => ChildReceiver) := ∅
  /-- The receiver calls that have not returned, the innermost first, and whether the child's entry is
  erased after the call. -/
  active : List (String × Bool) := []
  calls : List (ChildReceiver × ReceiverCall) := []
  ran : List String := []
  forwarded : List String := []
  scheduled : List (String × ChildReceiver) := []

/-- The call that a result makes on its receiver; a failure is an error even if it is not final. -/
def resultCall (result : TaskResult) : ReceiverCall :=
  if !result.isOk then .deliverError result.body (result.status.getD .ok)
  else .deliver result.body result.final

namespace DefaultLocalScheduler
variable (s : DefaultLocalScheduler)

def put (id : String) (receiver : ChildReceiver) : DefaultLocalScheduler :=
  { s with receivers := s.receivers.insert id receiver, scheduled := s.scheduled ++ [(id,receiver)] }

def get (id : String) : Option ChildReceiver := s.receivers.lookup id

def erase (id : String) : DefaultLocalScheduler := { s with receivers := s.receivers.erase id }

def enter (id : String) (receiver : ChildReceiver) (call : ReceiverCall) : DefaultLocalScheduler :=
  { s with calls := s.calls ++ [(receiver,call)], active := (id,call.terminal) :: s.active }

def answer (id : String) (call : ReceiverCall) : DefaultLocalScheduler :=
  match s.get id with
  | none => s
  | some receiver => s.enter id receiver call

def forwardOrError (task : Task) (reachable : Bool) : DefaultLocalScheduler :=
  if s.forward && reachable then { s with forwarded := s.forwarded ++ [task.id] }
  else s.answer task.id
    (.deliverError "no local capacity and no gateway forward path is configured" .capacityRefused)

/-- `Schedule`, with the answers of the admission controller and of the forward path. -/
def schedule (task : Task) (receiver : ChildReceiver) (admitted reachable : Bool) :
    DefaultLocalScheduler :=
  let s := s.put task.id receiver
  if !s.handlers task.type then s.forwardOrError task reachable
  else if !admitted then s.forwardOrError task reachable
  else { s with ran := s.ran ++ [task.id] }

def send (id : String) (result : TaskResult) : DefaultLocalScheduler := s.answer id (resultCall result)

def handleResultFrame (result : TaskResult) : DefaultLocalScheduler :=
  s.answer result.id (resultCall result)

def handleRejectedFrame (rejected : TaskRejected) : DefaultLocalScheduler :=
  s.answer rejected.id (.deliverError rejected.reason .capacityRefused)

def return_ : Option DefaultLocalScheduler :=
  match s.active with
  | [] => none
  | (_,false) :: rest => some { s with active := rest }
  | (id,true) :: rest => some { s.erase id with active := rest }

end DefaultLocalScheduler

inductive LocalEvent
  | schedule (task : Task) (receiver : ChildReceiver) (admitted reachable : Bool)
  | send (id : String) (result : TaskResult)
  | result (result : TaskResult)
  | rejected (rejected : TaskRejected)
  | malformed
  | returned

namespace DefaultLocalScheduler
variable {s s' t : DefaultLocalScheduler}

def step (s : DefaultLocalScheduler) : LocalEvent → Option DefaultLocalScheduler
  | .schedule task receiver admitted reachable => some (s.schedule task receiver admitted reachable)
  | .send id result => some (s.send id result)
  | .result result => some (s.handleResultFrame result)
  | .rejected rejected => some (s.handleRejectedFrame rejected)
  | .malformed => some s
  | .returned => s.return_

/-- A scheduled child has an id and a receiver of its own. -/
def Fresh (s : DefaultLocalScheduler) : LocalEvent → Prop
  | .schedule task receiver _ _ =>
    task.id ∉ s.scheduled.map Prod.fst ∧ receiver ∉ s.scheduled.map Prod.snd
  | _ => True

def answered : LocalEvent → Option String
  | .send id _ => some id
  | .result result => some result.id
  | .rejected rejected => some rejected.id
  | _ => none

/-- No result or rejection comes for a child while the last call on its receiver is still running. -/
def Undisturbed (s : DefaultLocalScheduler) (e : LocalEvent) : Prop :=
  ∀ id ∈ answered e, (id,true) ∉ s.active

instance (e : LocalEvent) : Decidable (s.Fresh e) := by
  cases e <;> unfold Fresh <;> infer_instance

instance (e : LocalEvent) : Decidable (s.Undisturbed e) :=
  inferInstanceAs (Decidable (∀ id ∈ answered e, (id,true) ∉ s.active))

structure Initial (s : DefaultLocalScheduler) : Prop where
  receivers : s.receivers = ∅
  active : s.active = []
  calls : s.calls = []
  history : s.ran = [] ∧ s.forwarded = [] ∧ s.scheduled = []

def Open (s : DefaultLocalScheduler) (id : String) (r : ChildReceiver) : Prop :=
  s.get id = some r ∧ (id,true) ∉ s.active

structure Books (s : DefaultLocalScheduler) : Prop where
  ids : (s.scheduled.map Prod.fst).Nodup
  receivers : (s.scheduled.map Prod.snd).Nodup
  stored : ∀ id r, s.get id = some r → (id,r) ∈ s.scheduled
  called : ∀ x ∈ s.calls, x.1 ∈ s.scheduled.map Prod.snd
  running : ∀ x ∈ s.active, x.1 ∈ s.scheduled.map Prod.fst
  orderly : Orderly ReceiverCall.terminal (fun r => ∃ id, s.Open id r) s.calls
  open_ : ∀ id r, (id,r) ∈ s.scheduled →
    (s.Open id r ↔ Unanswered ReceiverCall.terminal (callsTo s.calls r))
  history : ∀ id, (id ∈ s.ran → id ∈ s.scheduled.map Prod.fst) ∧
    (id ∈ s.forwarded → id ∈ s.scheduled.map Prod.fst) ∧ ¬(id ∈ s.ran ∧ id ∈ s.forwarded)

namespace Books
variable {r : ChildReceiver}

lemma start (h : s.Initial) : s.Books := by
  obtain ⟨handlers,forward,receivers,active,calls,ran,forwarded,scheduled⟩ := s
  obtain ⟨rfl,rfl,rfl,rfl,rfl,rfl⟩ := h
  exact ⟨.nil,.nil,nofun,nofun,nofun,.empty,nofun,fun _ => ⟨nofun,nofun,nofun⟩⟩

variable (h : s.Books)
include h

lemma receiver_eq {id : String} {q : ChildReceiver} (hr : (id,r) ∈ s.scheduled)
    (hq : (id,q) ∈ s.scheduled) : r = q :=
  (Prod.mk.inj (List.inj_on_of_nodup_map h.ids hr hq rfl)).2

lemma id_eq {id k : String} (hid : (id,r) ∈ s.scheduled) (hk : (k,r) ∈ s.scheduled) : id = k :=
  (Prod.mk.inj (List.inj_on_of_nodup_map h.receivers hid hk rfl)).1

lemma put {id : String} (hid : id ∉ s.scheduled.map Prod.fst)
    (hr : r ∉ s.scheduled.map Prod.snd) : (s.put id r).Books := by
  have hget (k : String) (hk : k ≠ id) : (s.put id r).get k = s.get k := AList.lookup_insert_ne hk
  have hself : (s.put id r).get id = some r := AList.lookup_insert _
  have hidle : (id,true) ∉ s.active := fun hmem => hid (h.running _ hmem)
  have huncalled : callsTo s.calls r = [] :=
    List.eq_nil_iff_forall_not_mem.mpr fun c hc => hr (h.called _ (mem_callsTo.mp hc))
  have hold {k : String} {q : ChildReceiver} (hk : (k,q) ∈ s.scheduled) : k ≠ id :=
    fun heq => hid (heq ▸ List.mem_map_of_mem (f := Prod.fst) hk)
  constructor
  case ids =>
    rw [DefaultLocalScheduler.put,List.map_append]
    simpa using List.Nodup.concat hid h.ids
  case receivers =>
    rw [DefaultLocalScheduler.put,List.map_append]
    simpa using List.Nodup.concat hr h.receivers
  case stored =>
    intro k q hk
    by_cases heq : k = id
    · subst heq
      rw [hself] at hk
      cases hk
      exact List.mem_append_right _ (List.mem_singleton_self _)
    · exact List.mem_append_left _ (h.stored k q (hget k heq ▸ hk))
  case called =>
    intro x hx
    rw [DefaultLocalScheduler.put,List.map_append]
    exact List.mem_append_left _ (h.called x hx)
  case running =>
    intro x hx
    rw [DefaultLocalScheduler.put,List.map_append]
    exact List.mem_append_left _ (h.running x hx)
  case orderly =>
    refine (h.orderly.add huncalled).mono fun q ⟨k,hk,hactive⟩ => ?_
    by_cases heq : k = id
    · subst heq
      rw [hself] at hk
      exact .inr (Option.some.inj hk).symm
    · exact .inl ⟨k,hget k heq ▸ hk,hactive⟩
  case open_ =>
    intro k q hk
    rcases List.mem_append.mp hk with hk | hk
    · refine Iff.trans ?_ (h.open_ k q hk)
      rw [Open,Open,hget k (hold hk)]
      rfl
    · cases List.mem_singleton.mp hk
      exact ⟨fun _ => by simp [DefaultLocalScheduler.put,Unanswered,huncalled],fun _ => ⟨hself,hidle⟩⟩
  case history =>
    intro k
    obtain ⟨hran,hforwarded,hboth⟩ := h.history k
    rw [DefaultLocalScheduler.put,List.map_append]
    exact ⟨fun hk => List.mem_append_left _ (hran hk),fun hk => List.mem_append_left _ (hforwarded hk),hboth⟩

lemma answer {id : String} (hidle : (id,true) ∉ s.active) (c : ReceiverCall) : (s.answer id c).Books := by
  rw [DefaultLocalScheduler.answer]
  split
  · exact h
  next r hget =>
  have hmem : (id,r) ∈ s.scheduled := h.stored id r hget
  have hcallable : s.Open id r := ⟨hget,hidle⟩
  have hactive (k : String) :
      (k,true) ∉ (id,c.terminal) :: s.active ↔ (k,true) ∉ s.active ∧ (k = id → c.terminal = false) := by
    rw [List.mem_cons,Prod.mk.injEq,not_or,and_comm]
    cases c.terminal <;> simp
  constructor
  case ids => exact h.ids
  case receivers => exact h.receivers
  case stored => exact h.stored
  case called =>
    intro x hx
    rcases List.mem_append.mp hx with hx | hx
    · exact h.called x hx
    · cases List.mem_singleton.mp hx
      exact List.mem_map_of_mem hmem
  case running =>
    intro x hx
    rcases List.mem_cons.mp hx with rfl | hx
    · exact List.mem_map_of_mem hmem
    · exact h.running x hx
  case orderly =>
    refine (h.orderly.call ⟨id,hcallable⟩ c).mono fun q ⟨k,hk,hidle⟩ => ?_
    obtain ⟨hidle,hlast⟩ := (hactive k).mp hidle
    refine ⟨⟨k,hk,hidle⟩,fun hq => hlast ?_⟩
    subst hq
    exact h.id_eq (h.stored k _ hk) hmem
  case open_ =>
    intro k q hk
    have hopen : (s.enter id r c).Open k q ↔ s.Open k q ∧ (k = id → c.terminal = false) :=
      (and_congr_right' (hactive k)).trans and_assoc.symm
    rw [hopen,h.open_ k q hk,enter,callsTo_append]
    by_cases heq : r = q
    · subst heq
      cases h.id_eq hk hmem
      simp [Unanswered,or_imp,forall_and]
    · have hne : k ≠ id := fun hkid => heq (h.receiver_eq hmem (hkid ▸ hk))
      rw [callsTo_cons_ne heq]
      simp [hne]
  case history => exact h.history

lemma return_ (hrun : s.return_ = some s') : s'.Books := by
  rw [DefaultLocalScheduler.return_] at hrun
  split at hrun
  · cases hrun
  · next id rest hactive =>
    cases hrun
    have hopen (k : String) (q : ChildReceiver) : Open { s with active := rest } k q ↔ s.Open k q := by
      simp [Open,get,hactive]
    refine ⟨h.ids,h.receivers,h.stored,h.called,fun x hx => ?_,?_,fun k q hk => ?_,h.history⟩
    · exact h.running x (hactive ▸ List.mem_cons_of_mem _ hx)
    · exact h.orderly.mono fun q ⟨k,hk⟩ => ⟨k,(hopen k q).mp hk⟩
    · rw [hopen]
      exact h.open_ k q hk
  · next id rest hactive =>
    cases hrun
    have hopen (k : String) (q : ChildReceiver) :
        Open { s.erase id with active := rest } k q ↔ s.Open k q := by
      by_cases heq : k = id
      · subst heq
        simp [Open,get,erase,hactive]
      · simp [Open,get,erase,hactive,heq]
    refine ⟨h.ids,h.receivers,fun k q hk => h.stored k q (lookup_erase_eq_some hk).2,h.called,
      fun x hx => ?_,?_,fun k q hk => ?_,h.history⟩
    · exact h.running x (hactive ▸ List.mem_cons_of_mem _ hx)
    · exact h.orderly.mono fun q ⟨k,hk⟩ => ⟨k,(hopen k q).mp hk⟩
    · rw [hopen]
      exact h.open_ k q hk

lemma schedule {task : Task} (admitted reachable : Bool)
    (hid : task.id ∉ s.scheduled.map Prod.fst) (hr : r ∉ s.scheduled.map Prod.snd) :
    (s.schedule task r admitted reachable).Books := by
  have hput := h.put hid hr
  have hnew : task.id ∈ (s.put task.id r).scheduled.map Prod.fst := by
    simp [DefaultLocalScheduler.put]
  have hran : task.id ∉ s.ran := fun hmem => hid ((h.history task.id).1 hmem)
  have hforwarded : task.id ∉ s.forwarded := fun hmem => hid ((h.history task.id).2.1 hmem)
  have hidle : (task.id,true) ∉ s.active := fun hmem => hid (h.running _ hmem)
  have hforward : ((s.put task.id r).forwardOrError task reachable).Books := by
    rw [forwardOrError]
    split
    · refine { hput with history := fun k => ?_ }
      obtain ⟨hrk,hfk,hboth⟩ := hput.history k
      refine ⟨hrk,fun hk => ?_,fun ⟨hk,hk'⟩ => ?_⟩
      · rcases List.mem_append.mp hk with hk | hk
        · exact hfk hk
        · exact List.mem_singleton.mp hk ▸ hnew
      · rcases List.mem_append.mp hk' with hk' | hk'
        · exact hboth ⟨hk,hk'⟩
        · exact hran (List.mem_singleton.mp hk' ▸ hk)
    · exact hput.answer hidle _
  rw [DefaultLocalScheduler.schedule]
  split
  · exact hforward
  split
  · exact hforward
  · refine { hput with history := fun k => ?_ }
    obtain ⟨hrk,hfk,hboth⟩ := hput.history k
    refine ⟨fun hk => ?_,hfk,fun ⟨hk,hk'⟩ => ?_⟩
    · rcases List.mem_append.mp hk with hk | hk
      · exact hrk hk
      · exact List.mem_singleton.mp hk ▸ hnew
    · rcases List.mem_append.mp hk with hk | hk
      · exact hboth ⟨hk,hk'⟩
      · exact hforwarded (List.mem_singleton.mp hk ▸ hk')

lemma step {e : LocalEvent} (hfresh : s.Fresh e) (hidle : s.Undisturbed e)
    (hstep : s.step e = some s') : s'.Books := by
  cases e with
  | schedule task r admitted reachable =>
    cases hstep
    exact h.schedule admitted reachable hfresh.1 hfresh.2
  | send id result =>
    cases hstep
    exact h.answer (hidle id rfl) _
  | result result =>
    cases hstep
    exact h.answer (hidle result.id rfl) _
  | rejected rejected =>
    cases hstep
    exact h.answer (hidle rejected.id rfl) _
  | malformed =>
    cases hstep
    exact h
  | returned => exact h.return_ hstep

end Books

structure ResolvesOnce (s : DefaultLocalScheduler) : Prop where
  once : ∀ r, OneShot ReceiverCall.terminal (callsTo s.calls r)
  entry : s.active = [] → ∀ id r, (id,r) ∈ s.scheduled →
    (s.get id = some r ↔ ∀ c ∈ callsTo s.calls r, c.terminal = false)
  exclusive : ∀ id, ¬(id ∈ s.ran ∧ id ∈ s.forwarded)

lemma Books.resolvesOnce (h : s.Books) : s.ResolvesOnce where
  once := h.orderly.once
  entry hactive id r hmem := by
    rw [← Unanswered,← h.open_ id r hmem,Open,hactive]
    simp
  exclusive id := (h.history id).2.2

/-- Every child is resolved at most once, in every run in which no result or rejection comes for a
child while the last call on its receiver is still running. -/
theorem children_resolved_once (s t : DefaultLocalScheduler) (h : s.Initial) (events : List LocalEvent)
    (hfresh : Throughout step Fresh s events) (hidle : Throughout step Undisturbed s events)
    (hrun : runAll step s events = some t) : t.ResolvesOnce := by
  have hbooks : t.Books := runAll_invariant
    (fun a e b ha ⟨hf,hu⟩ hstep => ha.step hf hu hstep) (Books.start h) (hfresh.and hidle) hrun
  exact hbooks.resolvesOnce

def batchNode : DefaultLocalScheduler where
  handlers type := type = "batch"
  forward := true

def childTask (id type : String) : Task := ⟨id,type,⟨[],List.nodup_nil⟩,[]⟩

/-- A local child, a forwarded one and one that cannot be forwarded; the parent schedules another child
from inside a receiver call, and the gateway repeats itself. -/
def batchRun : List LocalEvent :=
  [.schedule (childTask "a" "batch") 1 true true,.schedule (childTask "b" "echo") 2 true true,
    .send "a" ⟨"a","part",some false,none⟩,.schedule (childTask "c" "batch") 3 false false,.returned,
    .returned,.send "a" ⟨"a","bad",some false,some .internal⟩,.returned,.result ⟨"b","done",none,none⟩,
    .schedule (childTask "d" "batch") 4 true true,.returned,.result ⟨"b","done",none,none⟩,
    .rejected ⟨"b","late"⟩,.malformed]

theorem children_resolved_once_batch : ∃ t, runAll step batchNode batchRun = some t ∧ t.ResolvesOnce := by
  have hsome : (runAll step batchNode batchRun).isSome = true := by decide +kernel
  obtain ⟨t,ht⟩ := Option.isSome_iff_exists.mp hsome
  exact ⟨t,ht,children_resolved_once batchNode t ⟨rfl,rfl,rfl,rfl,rfl,rfl⟩ batchRun (by decide +kernel)
    (by decide +kernel) ht⟩

/-- The handler keeps its results until it has two tasks. A frame with a result for the first child
comes from the gateway; the receiver schedules the second child, and the handler sends both results
before the call returns. -/
def flushRun : List LocalEvent :=
  [.schedule (childTask "a" "batch") 1 true true,.result ⟨"a","stray",none,none⟩,
    .schedule (childTask "b" "batch") 2 true true,.send "a" ⟨"a","1",none,none⟩,.returned,
    .send "b" ⟨"b","2",none,none⟩,.returned,.returned]

/-- The receiver of the first child is resolved twice. -/
theorem flushed_twice : ∃ t, runAll step batchNode flushRun = some t ∧
    Throughout step Fresh batchNode flushRun ∧ t.active = [] ∧
    callsTo t.calls 1 = [.deliver "stray" true,.deliver "1" true] := by
  have hrun : (runAll step batchNode flushRun).any (fun t => t.active = [] ∧
      callsTo t.calls 1 = [.deliver "stray" true,.deliver "1" true]) = true := by decide +kernel
  obtain ⟨t,ht,hcalls⟩ := (Option.any_eq_true _ _).mp hrun
  exact ⟨t,ht,by decide +kernel,of_decide_eq_true hcalls⟩

end DefaultLocalScheduler
end Strij.NodeAgent
