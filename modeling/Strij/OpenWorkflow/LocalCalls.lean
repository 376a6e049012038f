import Strij.Lib.FiniteMap
import Strij.Lib.Runs
import Strij.NodeAgent.AdmissionAccounts
import Strij.OpenWorkflow.SequentialCalls

/-! A node that runs one workflow and the children that it calls. A child holds its capacity until its result
was delivered, and the delivery drives the workflow on to its next call. -/
namespace Strij.OpenWorkflow
open Strij.Lib
open Strij.NodeAgent (AdmissionController AdmissionScope NodeCapabilities ResourceRequirements held running)

structure WorkflowNode where
  handlers : String → Bool
  admission : AdmissionController
  interpreter : WorkflowInterpreter := .create []
  scopes : AList (fun _ : String => AdmissionScope) := ∅
  refused : List String := []

inductive NodeEvent
  | start (documentText invocationInput : String) (replies : List Reply)
  | finish (id : String) (outcome : ChildOutcome) (replies : List Reply)

namespace WorkflowNode
section Model
variable (setup : Setup) (node : WorkflowNode)

def schedule (id : String) (child : ChildTask) : WorkflowNode :=
  if !node.handlers child.type then node
  else match node.admission.admitTask child.type child.requirements with
    | (.error _,c) => { node with admission := c, refused := id :: node.refused }
    | (.ok (),c) => { node with
        admission := c, scopes := node.scopes.insert id ⟨child.type,child.requirements,false⟩ }

/-- The end of `AdmissionTrackingSender::Send` of the last result. A second `Release` does nothing, so the
scope is gone after the first. -/
def release (id : String) : WorkflowNode :=
  match node.scopes.lookup id with
  | none => node
  | some scope => { node with
      admission := (scope.release node.admission).2, scopes := node.scopes.erase id }

/-- What happens on the node at an event of the interpreter. An outcome that is delivered inside a call is
queued, so that `Send` goes on to release the capacity at once. -/
def account : Event → WorkflowNode
  | .submit id child => node.schedule id child
  | .deliver id _ => node.release id
  | _ => node

def accounts (events : List Event) : WorkflowNode := events.foldr (fun e node => node.account e) node

/-- Outcomes come only for children that were asked for before. -/
def prompted : List Event → Bool
  | [] => true
  | .deliver id _ :: before => (before.filterMap Event.childId).contains id && prompted before
  | _ :: before => prompted before

def called (call : Call) (replies : List Reply) : WorkflowInterpreter :=
  { node.interpreter with world := { node.interpreter.world with script := replies } }.step setup call

/-- A child that was not called sends nothing, so a call in which one does so is not made. -/
def step : NodeEvent → Option WorkflowNode
  | .start documentText invocationInput replies =>
    let i := node.called setup (.start documentText invocationInput) replies
    if prompted i.world.log then
      some { node.accounts (node.interpreter.world.since i.world) with interpreter := i }
    else none
  | .finish id outcome replies =>
    let i := node.called setup (.onChildOutcome id outcome) replies
    let delivered := node.interpreter.world.record (.deliver id outcome)
    -- the capacity is released when the delivery has returned
    if prompted i.world.log then
      some { (node.accounts (delivered.since i.world)).release id with interpreter := i }
    else none

end Model

def live (node : WorkflowNode) : List AdmissionScope := node.scopes.entries.map Sigma.snd

structure Books (capabilities : NodeCapabilities) (live : List AdmissionScope) (c : AdmissionController) :
    Prop where
  offers : c.Offers capabilities
  pools : c.PoolAccounts live
  types : c.TypeAccounts live
  held : ∀ scope ∈ live, scope.released = false

variable {setup : Setup} {capabilities : NodeCapabilities} {own : AdmissionScope} {node node' : WorkflowNode}
  {id : String} {child : ChildTask} {live room : List AdmissionScope} {c c₀ : AdmissionController}
  {log : List Event} {first : Option String}

lemma schedule_admitted (hhandler : node.handlers child.type = true)
    (hadmitted : node.admission.admitTask child.type child.requirements = (.ok (),c)) :
    node.schedule id child = { node with
      admission := c, scopes := node.scopes.insert id ⟨child.type,child.requirements,false⟩ } := by
  rw [schedule,hhandler,hadmitted]
  rfl

@[simp] lemma release_handlers : (node.release id).handlers = node.handlers := by
  rw [release]
  split <;> rfl

lemma release_notMem (id : String) : id ∉ (node.release id).scopes := by
  rw [release]
  split
  · next hnone => exact AList.lookup_eq_none.mp hnone
  · exact fun h => (AList.mem_erase.mp h).1 rfl

@[simp] lemma accounts_handlers (events : List Event) : (node.accounts events).handlers = node.handlers := by
  induction events with
  | nil => rfl
  | cons e events ih =>
    refine Eq.trans ?_ ih
    cases e with
    | submit id child =>
      change (schedule _ id child).handlers = _
      rw [schedule]
      split
      · rfl
      · split <;> rfl
    | deliver id outcome => exact release_handlers
    | _ => rfl

lemma prompted_of_cons {e : Event} (h : prompted (e :: log) = true) : prompted log = true := by
  cases e with
  | deliver id outcome => exact (Bool.and_eq_true_iff.mp h).2
  | _ => exact h

lemma asked_of_prompted (h : prompted log = true) (hanswer : Answered log id) :
    id ∈ log.filterMap Event.childId := by
  obtain ⟨outcome,hmem⟩ := hanswer
  induction log with
  | nil => cases hmem
  | cons e before ih =>
    have hcons := List.filterMap_subset Event.childId (List.subset_cons_self e before)
    rcases List.mem_cons.mp hmem with rfl | hmem
    · rw [prompted,Bool.and_eq_true,List.contains_iff_mem] at h
      exact hcons h.1
    · exact hcons (ih (prompted_of_cons h) hmem)

namespace Books
variable {r : ResourceRequirements}

lemma start (capabilities : NodeCapabilities) : Books capabilities [] (.ofCapabilities capabilities) :=
  ⟨.start,.start _,.start _,fun _ hs => absurd hs List.not_mem_nil⟩

lemma perm {l : List AdmissionScope} (h : Books capabilities live c) (hp : live.Perm l) :
    Books capabilities l c :=
  ⟨h.offers,h.pools.perm hp,h.types.perm hp,fun s hs => h.held s (hp.mem_iff.mpr hs)⟩

lemma admitTask {taskType : String} {c' : AdmissionController}
    (h : Books capabilities live c) (hlength : live.length+1 < 2^64)
    (ha : c.admitTask taskType r = (.ok (),c')) : Books capabilities (⟨taskType,r,false⟩ :: live) c' :=
  ⟨h.offers.admitTask ha,h.pools.admitTask ha,h.types.admitTask hlength ha,
    List.forall_mem_cons.mpr ⟨rfl,h.held⟩⟩

lemma release {scope : AdmissionScope} (h : Books capabilities (scope :: live) c) :
    Books capabilities live (scope.release c).2 := by
  have hheld := h.held scope List.mem_cons_self
  refine ⟨h.offers.release scope,?_,?_,fun s hs => h.held s (List.mem_cons_of_mem _ hs)⟩
  · rw [AdmissionScope.release,hheld]
    exact h.pools.release
  · rw [AdmissionScope.release,hheld]
    exact h.types.release

lemma admits {taskType : String} {less : List AdmissionScope}
    (h₀ : Books capabilities live c₀) (h : Books capabilities less c) (hless : less.Subperm live)
    (hadmits : c₀.Admits taskType r) : c.Admits taskType r := by
  obtain ⟨l,hperm,hsub⟩ := hless
  refine h₀.offers.admits_mono h.offers h₀.pools h₀.types h.pools h.types (fun pool => ?_) (fun t => ?_) hadmits
  · rw [NodeAgent.held,NodeAgent.held,← (hperm.map _).sum_eq]
    exact (hsub.map _).sum_le_sum fun _ _ => Nat.zero_le _
  · rw [running,running,← (hperm.map _).count_eq]
    exact (hsub.map _).count_le t

end Books

lemma live_erase {scope : AdmissionScope} (h : node.scopes.lookup id = some scope) :
    node.live.Perm (scope :: (node.scopes.erase id).entries.map Sigma.snd) := (entries_perm_erase h).map _

lemma live_insert (h : id ∉ node.scopes) (scope : AdmissionScope) :
    (node.scopes.insert id scope).entries.map Sigma.snd = scope :: node.live := by
  rw [AList.entries_insert_of_notMem h,List.map_cons]
  rfl

/-- In the middle of a turn that began with the outcome of `first`. Only that child may have been answered
and still have its scope. -/
structure Turning (capabilities : NodeCapabilities) (own : AdmissionScope) (room : List AdmissionScope)
    (first : Option String) (log : List Event) (node : WorkflowNode) : Prop where
  books : Books capabilities (own :: node.live) node.admission
  submitted : ∀ id ∈ node.scopes, ∃ child, .submit id child ∈ log
  unanswered : ∀ id ∈ node.scopes, first = some id ∨ ¬ Answered log id
  asked : ∀ id, first = some id → id ∈ log.filterMap Event.childId
  room : ∀ id scope, first = some id → node.scopes.lookup id = some scope → scope ∈ room
  refused : node.refused = []

namespace Turning
variable {e : Event}

variable (h : Turning capabilities own room first log node)
include h

lemma alone (hserial : ∀ id child, .submit id child ∈ log → Answered log id) : node.live.Subperm room := by
  have hfirst : ∀ id ∈ node.scopes, first = some id := by
    intro id hid
    obtain ⟨child,hchild⟩ := h.submitted id hid
    exact (h.unanswered id hid).resolve_right fun hanswer => hanswer (hserial id child hchild)
  have hsingle : ∀ id ∈ node.scopes, ∀ id' ∈ node.scopes, id = id' := fun id hid id' hid' =>
    Option.some.inj ((hfirst id hid).symm.trans (hfirst id' hid'))
  rcases entries_of_subsingleton hsingle with hnone | ⟨x,hone,hx⟩
  · rw [WorkflowNode.live,hnone]
    exact List.nil_subperm
  · have hmem : x.1 ∈ node.scopes := mem_iff_lookup.mpr ⟨_,hx⟩
    rw [WorkflowNode.live,hone]
    exact List.singleton_subperm_iff.mpr (h.room _ _ (hfirst _ hmem) hx)

lemma silent (he : ∀ id ∈ node.scopes, ∀ outcome, e = .deliver id outcome → first = some id) :
    Turning capabilities own room first (e :: log) node where
  books := h.books
  submitted id hid := (h.submitted id hid).imp fun _ hmem => List.mem_cons_of_mem _ hmem
  unanswered id hid := by
    rcases h.unanswered id hid with hfirst | hanswer
    · exact .inl hfirst
    by_cases hdeliver : ∃ outcome, e = .deliver id outcome
    · obtain ⟨outcome,heq⟩ := hdeliver
      exact .inl (he id hid outcome heq)
    · refine .inr fun ⟨outcome,hmem⟩ => ?_
      rcases List.mem_cons.mp hmem with heq | hmem
      · exact hdeliver ⟨outcome,heq.symm⟩
      · exact hanswer ⟨outcome,hmem⟩
  asked id hfirst := List.filterMap_subset _ (List.subset_cons_self _ _) (h.asked id hfirst)
  room := h.room
  refused := h.refused

lemma release (id : String) : Turning capabilities own room first log (node.release id) := by
  rw [WorkflowNode.release]
  split
  · exact h
  next scope hscope =>
  have hkeys : ∀ k ∈ node.scopes.erase id, k ∈ node.scopes := fun k hk => (AList.mem_erase.mp hk).2
  refine ⟨?_,fun k hk => h.submitted k (hkeys k hk),fun k hk => h.unanswered k (hkeys k hk),h.asked,
    fun k s hfirst hs => h.room k s hfirst (lookup_erase_eq_some hs).2,h.refused⟩
  exact (h.books.perm (((live_erase hscope).cons own).trans (.swap _ _ _))).release

lemma submit (hc₀ : Books capabilities (own :: room) c₀)
    (hroom : room.length+2 < 2^64) (hhandler : node.handlers child.type = true)
    (hadmits : c₀.Admits child.type child.requirements)
    (hserial : ∀ id child, .submit id child ∈ log → Answered log id)
    (hprompted : prompted log = true) (hfresh : id ∉ log.filterMap Event.childId) :
    Turning capabilities own room first (.submit id child :: log) (node.schedule id child) := by
  have halone := h.alone hserial
  have hid : id ∉ node.scopes := fun hmem => by
    obtain ⟨c,hc⟩ := h.submitted id hmem
    exact hfresh (List.mem_filterMap.mpr ⟨_,hc,rfl⟩)
  have hok : node.admission.Admits child.type child.requirements :=
    hc₀.admits h.books ((List.subperm_cons own).mpr halone) hadmits
  obtain ⟨c,hadmitted⟩ := hok.admitTask
  have hlength : (own :: node.live).length+1 < 2^64 := by
    have hle := halone.length_le
    rw [List.length_cons]
    omega
  have hsilent := h.silent (e := .submit id child) fun _ _ _ heq => nomatch heq
  rw [schedule_admitted hhandler hadmitted]
  refine ⟨?_,fun k hk => ?_,fun k hk => ?_,hsilent.asked,fun k s hfirst hs => ?_,h.refused⟩
  · have hbooks := (h.books.admitTask hlength hadmitted).perm (.swap _ _ _)
    rw [← live_insert hid] at hbooks
    exact hbooks
  · rcases (AList.mem_insert _).mp hk with rfl | hk
    · exact ⟨child,List.mem_cons_self⟩
    · exact hsilent.submitted k hk
  · rcases (AList.mem_insert _).mp hk with rfl | hk
    · refine .inr fun ⟨outcome,hmem⟩ => hfresh (asked_of_prompted hprompted ⟨outcome,?_⟩)
      exact (List.mem_cons.mp hmem).resolve_left nofun
    · exact hsilent.unanswered k hk
  · have hne : k ≠ id := fun heq => hfresh (heq ▸ h.asked k hfirst)
    rw [AList.lookup_insert_ne hne] at hs
    exact h.room k s hfirst hs

lemma account (hc₀ : Books capabilities (own :: room) c₀) (hroom : room.length+2 < 2^64)
    (hfit : ∀ id child, e = .submit id child →
      node.handlers child.type = true ∧ c₀.Admits child.type child.requirements)
    (hserial : SerialLog (e :: log)) (hprompted : prompted log = true)
    (hnodup : ((e :: log).filterMap Event.childId).Nodup) :
    Turning capabilities own room first (e :: log) (node.account e) := by
  cases e with
  | submit id child =>
    obtain ⟨hhandler,hadmits⟩ := hfit id child rfl
    exact h.submit hc₀ hroom hhandler hadmits (hserial.2 id child rfl) hprompted (List.nodup_cons.mp hnodup).1
  | deliver id outcome =>
    refine (h.release id).silent fun k hk _ heq => ?_
    cases heq
    exact absurd hk (release_notMem id)
  | _ => exact h.silent fun _ _ _ heq => nomatch heq

theorem accounts (events : List Event)
    (hc₀ : Books capabilities (own :: room) c₀) (hroom : room.length+2 < 2^64)
    (hfit : ∀ id child, .submit id child ∈ events →
      node.handlers child.type = true ∧ c₀.Admits child.type child.requirements)
    (hserial : SerialLog (events ++ log)) (hprompted : prompted (events ++ log) = true)
    (hnodup : ((events ++ log).filterMap Event.childId).Nodup) :
    Turning capabilities own room first (events ++ log) (node.accounts events) := by
  induction events with
  | nil => exact h
  | cons e events ih =>
    have hnodup' : ((events ++ log).filterMap Event.childId).Nodup :=
      hnodup.sublist ((List.sublist_cons_self _ _).filterMap _)
    have hturn := ih (fun id child hmem => hfit id child (List.mem_cons_of_mem _ hmem)) hserial.1
      (prompted_of_cons hprompted) hnodup'
    refine hturn.account hc₀ hroom (fun id child heq => ?_) hserial (prompted_of_cons hprompted) hnodup
    rw [accounts_handlers]
    exact hfit id child (heq ▸ List.mem_cons_self)

omit h

lemma ended (h : Turning capabilities own room (some id) log node) (hid : id ∉ node.scopes) :
    Turning capabilities own [] none log node where
  books := h.books
  submitted := h.submitted
  unanswered k hk := by
    refine .inr ((h.unanswered k hk).resolve_left ?_)
    rintro ⟨⟩
    exact hid hk
  asked _ hnone := nomatch hnone
  room _ _ hnone := nomatch hnone
  refused := h.refused

lemma began (h : Turning capabilities own [] none log node) {outcome : ChildOutcome}
    (hprompted : prompted (.deliver id outcome :: log) = true) :
    Turning capabilities own node.live (some id) (.deliver id outcome :: log) node where
  books := h.books
  submitted k hk := (h.submitted k hk).imp fun _ hmem => List.mem_cons_of_mem _ hmem
  unanswered k hk := by
    by_cases heq : id = k
    · exact .inl (congrArg some heq)
    refine .inr fun ⟨o,hmem⟩ => ?_
    rcases List.mem_cons.mp hmem with hdeliver | hmem
    · cases hdeliver
      exact heq rfl
    · exact (h.unanswered k hk).elim nofun fun hanswer => hanswer ⟨o,hmem⟩
  asked k hk := by
    cases hk
    exact asked_of_prompted hprompted ⟨outcome,List.mem_cons_self⟩
  room k scope _ hk := List.mem_map.mpr ⟨⟨k,scope⟩,AList.mem_lookup_iff.mp hk,rfl⟩
  refused := h.refused

end Turning

/-- Between two turns: every child that has its scope is still to be answered. -/
structure Settled (setup : Setup) (capabilities : NodeCapabilities) (own : AdmissionScope)
    (handlers : String → Bool) (node : WorkflowNode) : Prop where
  run : node.interpreter.SerialRun
  fresh : ∃ events, (WorkflowInterpreter.create []).world.Follows setup node.interpreter.world events
  turning : Turning capabilities own [] none node.interpreter.world.log node
  handlers : node.handlers = handlers

def Made (calls : List (String × ResourceRequirements)) (node : WorkflowNode) : Prop :=
  ∀ id child, .submit id child ∈ node.interpreter.world.log → (child.type,child.requirements) ∈ calls

/-- When a child sends its result, there is room for any call beside what is held then. -/
def RoomBeside (calls : List (String × ResourceRequirements)) (node : WorkflowNode) : NodeEvent → Prop
  | .start _ _ _ => True
  | .finish _ _ _ => ∀ x ∈ calls, node.admission.Admits x.1 x.2

instance (calls : List (String × ResourceRequirements)) (node : WorkflowNode) (e : NodeEvent) :
    Decidable (RoomBeside calls node e) :=
  match e with
  | .start _ _ _ => instDecidableTrue
  | .finish _ _ _ => inferInstanceAs (Decidable (∀ x ∈ calls, _))

section Turns
variable {handlers : String → Bool} {admission : AdmissionController}
  {calls : List (String × ResourceRequirements)} {call : Call} {replies : List Reply}

lemma called_log (node : WorkflowNode) (call : Call) (replies : List Reply) :
    node.interpreter.world.log <:+ (node.called setup call replies).world.log := by
  let i : WorkflowInterpreter :=
    { node.interpreter with world := { node.interpreter.world with script := replies } }
  have h : i.Has (fun _ w => node.interpreter.world.log <:+ w.log) := List.suffix_rfl
  exact (WorkflowInterpreter.log_maintained setup _).step h call fun text _ _ =>
    WorkflowInterpreter.log_roots setup _ text

lemma called_deliver_log (node : WorkflowNode) (id : String) (outcome : ChildOutcome) (replies : List Reply) :
    .deliver id outcome :: node.interpreter.world.log <:+
      (node.called setup (.onChildOutcome id outcome) replies).world.log :=
  (WorkflowInterpreter.log_maintained setup _).of_deliver List.suffix_rfl

lemma prompted_of_append {events : List Event} (h : prompted (events ++ log) = true) : prompted log = true := by
  induction events with
  | nil => exact h
  | cons e events ih => exact ih (prompted_of_cons h)

namespace Settled

variable (h : Settled setup capabilities own handlers node)
include h

lemma live_length : node.live.length ≤ 1 := by
  have hsingle : ∀ id ∈ node.scopes, ∀ id' ∈ node.scopes, id = id' := by
    intro id hid id' hid'
    obtain ⟨child,hchild⟩ := h.turning.submitted id hid
    obtain ⟨child',hchild'⟩ := h.turning.submitted id' hid'
    by_contra hne
    rcases h.run.log.answered hchild hchild' hne with hanswer | hanswer
    · exact (h.turning.unanswered id hid).elim nofun (· hanswer)
    · exact (h.turning.unanswered id' hid').elim nofun (· hanswer)
  rw [WorkflowNode.live,List.length_map]
  rcases entries_of_subsingleton hsingle with hnone | ⟨x,hone,-⟩
  · simp [hnone]
  · simp [hone]

lemma called_run (call : Call) (replies : List Reply)
    (hfork : ∀ text document, setup.parse text = .ok document → NoFork document.2.do_) :
    (node.called setup call replies).SerialRun :=
  (h.run.script replies).step call fun text _ document _ => hfork text document

variable (hfresh : Function.Injective setup.freshId)
include hfresh

lemma called_fresh (call : Call) (replies : List Reply) :
    ∃ events, (WorkflowInterpreter.create []).world.Follows setup (node.called setup call replies).world
      events := by
  refine (WorkflowInterpreter.follows_maintained hfresh _).step ?_ call fun _ _ _ _ _ _ _ _ h _ _ => h
  exact h.fresh.imp fun _ h => h.same rfl rfl

lemma called_turning
    (hfork : ∀ text document, setup.parse text = .ok document → NoFork document.2.do_) {w : World}
    (hturning : Turning capabilities own room first w.log node) (hc₀ : Books capabilities (own :: room) c₀)
    (hroom : room.length+2 < 2^64) (hfit : ∀ x ∈ calls, handlers x.1 = true ∧ c₀.Admits x.1 x.2)
    (hlog : w.log <:+ (node.called setup call replies).world.log)
    (hprompted : prompted (node.called setup call replies).world.log = true)
    (hmade : ∀ id child, .submit id child ∈ (node.called setup call replies).world.log →
      (child.type,child.requirements) ∈ calls) :
    Turning capabilities own room first (node.called setup call replies).world.log
      (node.accounts (w.since (node.called setup call replies).world)) := by
  have hserial := (h.called_run call replies hfork).log
  obtain ⟨all,hall⟩ := h.called_fresh hfresh call replies
  have hnodup : ((node.called setup call replies).world.log.filterMap Event.childId).Nodup := by
    rw [hall.log,WorkflowInterpreter.create,List.append_nil]
    exact hall.nodup
  obtain ⟨events,hevents⟩ := hlog
  rw [World.since_of_log hevents.symm]
  rw [← hevents] at hserial hprompted hnodup hmade ⊢
  refine hturning.accounts events hc₀ hroom (fun id child hmem => ?_) hserial hprompted hnodup
  rw [h.handlers]
  exact hfit _ (hmade id child (List.mem_append_left _ hmem))

theorem step (hfork : ∀ text document, setup.parse text = .ok document → NoFork document.2.do_)
    (hadmission : Books capabilities [own] admission)
    (hfit : ∀ x ∈ calls, handlers x.1 = true ∧ admission.Admits x.1 x.2)
    {e : NodeEvent} (hbeside : RoomBeside calls node e) (hstep : node.step setup e = some node')
    (hmade : node'.Made calls) : Settled setup capabilities own handlers node' := by
  cases e with
  | start text input replies =>
    obtain ⟨hprompted,hnode⟩ := Option.ite_none_right_eq_some.mp hstep
    cases hnode
    have hturn := h.called_turning hfresh hfork h.turning hadmission (by simp) hfit
      (node.called_log (.start text input) replies) hprompted hmade
    exact ⟨h.called_run (.start text input) replies hfork,h.called_fresh hfresh (.start text input) replies,
      ⟨hturn.books,hturn.submitted,hturn.unanswered,hturn.asked,hturn.room,hturn.refused⟩,
      (accounts_handlers _).trans h.handlers⟩
  | finish id outcome replies =>
    obtain ⟨hprompted,hnode⟩ := Option.ite_none_right_eq_some.mp hstep
    cases hnode
    have hlog := @called_deliver_log setup node id outcome replies
    have hbegan : prompted (.deliver id outcome :: node.interpreter.world.log) = true := by
      obtain ⟨events,hevents⟩ := hlog
      exact prompted_of_append (hevents ▸ hprompted)
    have hroom : node.live.length+2 < 2^64 := by
      have hle := h.live_length
      omega
    have hbeside' : ∀ x ∈ calls, handlers x.1 = true ∧ node.admission.Admits x.1 x.2 := fun x hx =>
      ⟨(hfit x hx).1,hbeside x hx⟩
    let w := node.interpreter.world.record (.deliver id outcome)
    have hturn := h.called_turning (w := w) hfresh hfork (h.turning.began hbegan) h.turning.books hroom
      hbeside' hlog hprompted hmade
    have hend := (hturn.release id).ended (release_notMem id)
    exact ⟨h.called_run (.onChildOutcome id outcome) replies hfork,
      h.called_fresh hfresh (.onChildOutcome id outcome) replies,
      ⟨hend.books,hend.submitted,hend.unanswered,hend.asked,hend.room,hend.refused⟩,
      release_handlers.trans ((accounts_handlers _).trans h.handlers)⟩

end Settled

lemma Made.of_step {e : NodeEvent} (hstep : node.step setup e = some node') (h : node'.Made calls) :
    node.Made calls := by
  intro id child hmem
  cases e with
  | start text input replies =>
    obtain ⟨-,hnode⟩ := Option.ite_none_right_eq_some.mp hstep
    cases hnode
    exact h id child ((node.called_log (.start text input) replies).mem hmem)
  | finish k outcome replies =>
    obtain ⟨-,hnode⟩ := Option.ite_none_right_eq_some.mp hstep
    cases hnode
    exact h id child ((node.called_log (.onChildOutcome k outcome) replies).mem hmem)

end Turns

def hosting (handlers : String → Bool) (admission : AdmissionController) : WorkflowNode :=
  { handlers := handlers, admission := admission }

def threeInTurn : Document 1 where
  do_ := [miniCall "a",miniCall "b",miniCall "d"]

def threeInTurnRun : List NodeEvent :=
  [.start "" "" [{ outcomes := [("",⟨"true","",.ok⟩)] }],.finish "c" ⟨"true","",.ok⟩ []]

def noRequirements : ResourceRequirements := ⟨[],List.nodup_nil⟩

def echoAdmission (concurrency : UInt64) : AdmissionController :=
  ((AdmissionController.ofCapabilities { handlers := [⟨"openworkflow",1⟩,⟨"echo",concurrency⟩] }).admitTask
    "openworkflow" noRequirements).2

def callsEcho : Event → Bool
  | .submit _ child => child.type == "echo" && child.requirements.resources.isEmpty
  | _ => true

lemma made_of_callsEcho (h : node.interpreter.world.log.all callsEcho = true) :
    node.Made [("echo",noRequirements)] := by
  intro id child hmem
  have hcall := List.all_eq_true.mp h _ hmem
  rw [callsEcho,Bool.and_eq_true,beq_iff_eq,List.isEmpty_iff] at hcall
  obtain ⟨type,parameters,⟨resources,hnodup⟩,body⟩ := child
  obtain ⟨rfl,rfl⟩ := hcall
  exact List.mem_singleton.mpr rfl

lemma threeInTurn_noFork : ∀ text document, (miniSetup threeInTurn).parse text = .ok document →
    NoFork document.2.do_ := by
  rintro text document ⟨⟩
  simp [NoFork,EveryTask,threeInTurn,miniCall]

end WorkflowNode

namespace WorkflowInterpreter
open WorkflowNode

/-- Without forks the children of a run are called in turn: whenever one is called, all before it were answered,
and while the run goes on the children that were not answered are those waited for, of which there is at most one. -/
theorem children_in_turn (setup : Setup) (script : List Reply) (calls : List Call)
    (hfork : ∀ text input document, .start text input ∈ calls → setup.parse text = .ok document →
      NoFork document.2.do_) :
    let w := ((create script).run setup calls).world
    SerialLog w.log ∧ (((create script).run setup calls).state.isTerminal = false →
      (∀ id child, .submit id child ∈ w.log → Answered w.log id ∨ id ∈ w.owners) ∧
        ∀ id ∈ w.owners, ∀ id' ∈ w.owners, id = id') := by
  have hrun : ∀ (i : WorkflowInterpreter), i.SerialRun → (i.run setup calls).SerialRun := by
    induction calls with
    | nil => exact fun i h => h
    | cons call calls ih =>
      intro i h
      refine ih (fun text input document hmem => hfork text input document (List.mem_cons_of_mem _ hmem)) _ (h.step call ?_)
      rintro text input document rfl
      exact hfork text input document List.mem_cons_self
  have h := hrun _ (SerialRun.created script)
  exact ⟨h.log,fun hgoing => ⟨(h.world hgoing).awaited,(h.world hgoing).single⟩⟩

theorem children_in_turn_three : SerialLog ((create []).run (miniSetup threeInTurn)
    [.start "" "",.onChildOutcome "" ⟨"true","",.ok⟩]).world.log ∧
    (((create []).run (miniSetup threeInTurn) [.start "" "",.onChildOutcome "" ⟨"true","",.ok⟩]).world.log.filter
      Event.isSubmit).length = 2 :=
  ⟨(children_in_turn (miniSetup threeInTurn) [] [.start "" "",.onChildOutcome "" ⟨"true","",.ok⟩]
    (fun text _ document _ => threeInTurn_noFork text document)).1,by decide +kernel⟩

end WorkflowInterpreter
end Strij.OpenWorkflow
