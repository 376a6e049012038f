import Strij.Lib.FiniteMap
import Strij.Lib.Runs
import Strij.OpenWorkflow.Interpreter

/-! The task handler's table of runs. The result of a run may go to another run of the handler, which then goes
on inside the `Send`. -/
namespace Strij.OpenWorkflow
open Strij.Lib

/-- Where a run's result is sent: to a connection, or by a `StorageResultSender` to the receiver that the
node's scheduler has for the task. -/
inductive RunSender
  | connection
  | storage
  deriving DecidableEq, Repr

inductive Completion
  | send (taskId : String)
  | resume (parent : ℕ)
  deriving DecidableEq, Repr

/-- An interpreter as its callers see it. -/
structure HandlerInterpreter where
  completion : Completion
  state : State
  deriving DecidableEq, Repr

namespace OpenWorkflowTaskHandler

structure Run where
  interpreter : ℕ
  sender : RunSender
  finished : Bool := false
  deriving DecidableEq, Repr

inductive Activation
  | handleTask (interpreter : ℕ)
  | advance (interpreter : ℕ)
  | send (taskId : String) (interpreter : ℕ)
  | storageSend (taskId : String)
  deriving DecidableEq, Repr

end OpenWorkflowTaskHandler

open OpenWorkflowTaskHandler in
structure OpenWorkflowTaskHandler where
  interpreters : List HandlerInterpreter := []
  runs : AList (fun _ : String => Run) := ∅
  /-- The storage of the node's scheduler: the interpreter that each child's receiver refers to. -/
  receivers : AList (fun _ : String => ℕ) := ∅
  stack : List Activation := []

namespace OpenWorkflowTaskHandler

inductive HandlerEvent
  /-- `HandleTask`: of a task from a connection if no call is under way, or else of a child that the
  advancing interpreter submits. The function may fail to load, and the connection may be closed. -/
  | handleTask (taskId : String) (loads closed : Bool)
  | submit (child : String)
  | startNested
  | outcome (child : String) (known : Bool)
  | suspend
  | complete (succeeds known : Bool)
  | return_
  | close (taskId : String)

variable (h : OpenWorkflowTaskHandler)

def stateOf (i : ℕ) : State := ((h.interpreters[i]?).map HandlerInterpreter.state).getD .cancelled

def completionOf (i : ℕ) : Option Completion := (h.interpreters[i]?).map HandlerInterpreter.completion

def setState (i : ℕ) (state : State) : OpenWorkflowTaskHandler :=
  { h with interpreters := h.interpreters.modify i ({ · with state := state }) }

def push (a : Activation) : OpenWorkflowTaskHandler := { h with stack := a :: h.stack }

/-- The weak references to the interpreter are not empty: a run, a nested run or a call has it. -/
def alive (i : ℕ) : Bool :=
  h.runs.entries.any (fun e => e.2.interpreter = i) ||
    (h.completionOf i).any (fun c => c matches .resume _) ||
    .handleTask i ∈ h.stack || .advance i ∈ h.stack

/-- `OnChildOutcome`. An interpreter that advances queues the outcome, one that waits goes on. -/
def onChildOutcome (i : ℕ) (known : Bool) : OpenWorkflowTaskHandler :=
  if h.alive i && h.stateOf i = .ready && known then (h.setState i .advancing).push (.advance i) else h

/-- `Send` of a final result, up to the receiver. -/
def sendOn (sender : RunSender) (taskId : String) (known : Bool) : OpenWorkflowTaskHandler :=
  match sender with
  | .connection => h
  | .storage => match h.receivers.lookup taskId with
    | none => h
    | some i => (h.push (.storageSend taskId)).onChildOutcome i known

def reap : OpenWorkflowTaskHandler :=
  { h with runs := filterValues (fun run => !(run.finished || (h.stateOf run.interpreter).isTerminal)) h.runs }

def handleTask (taskId : String) (sender : RunSender) (loads closed : Bool) : OpenWorkflowTaskHandler :=
  let h := { h with runs := h.runs.erase taskId }
  let i := h.interpreters.length
  if !loads then h.sendOn sender taskId true
  -- the callback of a closed mailbox cancels the interpreter and erases the run at once
  else if closed then { h with interpreters := h.interpreters ++ [⟨.send taskId,.cancelled⟩] }
  else { h with
    interpreters := h.interpreters ++ [⟨.send taskId,.advancing⟩]
    runs := h.runs.insert taskId ⟨i,sender,false⟩
    stack := .advance i :: .handleTask i :: h.stack }

def send (taskId : String) (known : Bool) : OpenWorkflowTaskHandler :=
  match h.runs.lookup taskId with
  | none => h
  | some run => (h.push (.send taskId run.interpreter)).sendOn run.sender taskId known

def complete (i : ℕ) (known : Bool) : OpenWorkflowTaskHandler :=
  match h.completionOf i with
  | none => h
  | some (.send taskId) => h.send taskId known
  | some (.resume parent) => h.onChildOutcome parent known

def afterSend (taskId : String) (i : ℕ) : OpenWorkflowTaskHandler :=
  match h.runs.lookup taskId with
  | none => h.reap
  | some run =>
    if run.interpreter = i then { h with runs := h.runs.insert taskId { run with finished := true } }.reap
    else h.reap

def onClose (taskId : String) : OpenWorkflowTaskHandler :=
  match h.runs.lookup taskId with
  | none => h
  | some run =>
    let h := if (h.stateOf run.interpreter).isTerminal then h else h.setState run.interpreter .cancelled
    { h with runs := h.runs.erase taskId }

/-- One event; `none` if the innermost call cannot do that. -/
def step : HandlerEvent → Option OpenWorkflowTaskHandler
  | .handleTask taskId loads closed => match h.stack with
    | [] => some (h.handleTask taskId .connection loads closed)
    | .advance i :: _ => some ({ h with receivers := h.receivers.insert taskId i }.handleTask taskId
        .storage loads false)
    | _ => none
  | .submit child => match h.stack with
    | .advance i :: _ => some { h with receivers := h.receivers.insert child i }
    | _ => none
  | .startNested => match h.stack with
    | .advance i :: _ => some { h with
        interpreters := h.interpreters ++ [⟨.resume i,.advancing⟩]
        stack := .advance h.interpreters.length :: h.stack }
    | _ => none
  | .outcome child known => match h.stack with
    | [] | .advance _ :: _ => some (h.sendOn .storage child known)
    | _ => none
  | .suspend => match h.stack with
    | .advance i :: rest => some { h.setState i .ready with stack := rest }
    | _ => none
  | .complete succeeds known => match h.stack with
    | .advance i :: rest => some ({ h.setState i (if succeeds then .succeeded else .failed) with
        stack := rest }.complete i known)
    | _ => none
  | .return_ => match h.stack with
    | .handleTask _ :: rest => some { h with stack := rest }.reap
    | .send taskId i :: rest => some ({ h with stack := rest }.afterSend taskId i)
    | .storageSend taskId :: rest => some { h with receivers := h.receivers.erase taskId, stack := rest }
    | _ => none
  | .close taskId => match h.stack with
    | [] => some (h.onClose taskId)
    | _ => none

/-- Every run whose sender is in a `Send` called by `send` is in the table. -/
def SendersKept (h : OpenWorkflowTaskHandler) : Prop :=
  ∀ taskId i, .send taskId i ∈ h.stack → ∃ run, h.runs.lookup taskId = some run ∧ run.interpreter = i

def Activation.isSend : Activation → Bool
  | .send _ _ => true
  | _ => false

def entersTable (h : OpenWorkflowTaskHandler) : HandlerEvent → Bool
  | .handleTask _ _ _ => true
  | .complete _ _ => match h.stack with
    | .advance i :: _ => (h.completionOf i).any (fun c => c matches .send _)
    | _ => false
  | _ => false

/-- No run starts and none completes inside a `Send` called by `send`. -/
def InTurn (h : OpenWorkflowTaskHandler) (e : HandlerEvent) : Prop :=
  h.entersTable e = true → ∀ a ∈ h.stack, a.isSend = false

instance (e : HandlerEvent) : Decidable (h.InTurn e) :=
  inferInstanceAs (Decidable (h.entersTable e = true → ∀ a ∈ h.stack, a.isSend = false))

/-- Above a `Send` called by `send` there is no other one, and no `HandleTask`. -/
def Layered : List Activation → Prop
  | [] => True
  | .handleTask _ :: rest | .send _ _ :: rest => ∀ a ∈ rest, a.isSend = false
  | .advance _ :: rest | .storageSend _ :: rest => Layered rest

variable {h} {h' : OpenWorkflowTaskHandler} {e : HandlerEvent}

@[simp] lemma completionOf_setState (i j : ℕ) (state : State) :
    (h.setState i state).completionOf j = h.completionOf j := by
  simp only [completionOf,setState,List.getElem?_modify]
  cases h.interpreters[j]? with
  | none => rfl
  | some x => by_cases hij : i = j <;> simp [hij]

lemma layered_of_clear {stack : List Activation} (h : ∀ a ∈ stack, a.isSend = false) : Layered stack := by
  induction stack with
  | nil => trivial
  | cons a rest ih =>
    obtain ⟨-,hrest⟩ := List.forall_mem_cons.mp h
    cases a with
    | handleTask i => exact hrest
    | send taskId i => exact hrest
    | advance i => exact ih hrest
    | storageSend taskId => exact ih hrest

/-- The calls are layered, and the table has the runs whose senders they use. -/
structure Sound (h : OpenWorkflowTaskHandler) : Prop where
  layered : Layered h.stack
  kept : h.SendersKept

namespace Sound
variable {a : Activation}

lemma of_clear (hclear : ∀ a ∈ h.stack, a.isSend = false) : h.Sound :=
  ⟨layered_of_clear hclear,fun _ _ hmem => absurd (hclear _ hmem) (by simp [Activation.isSend])⟩

variable (hs : h.Sound)
include hs

lemma same (hstack : h'.stack = h.stack) (hruns : h'.runs = h.runs) : h'.Sound :=
  ⟨hstack ▸ hs.layered,fun taskId i hmem => hruns ▸ hs.kept taskId i (hstack ▸ hmem)⟩

lemma push (ha : Layered (a :: h.stack)) (hsend : a.isSend = false) : (h.push a).Sound := by
  refine ⟨ha,fun taskId i hmem => ?_⟩
  rcases List.mem_cons.mp hmem with rfl | hmem
  · cases hsend
  · exact hs.kept taskId i hmem

lemma onChildOutcome (i : ℕ) (known : Bool) : (h.onChildOutcome i known).Sound := by
  rw [OpenWorkflowTaskHandler.onChildOutcome]
  split
  · have hset : (h.setState i .advancing).Sound := hs.same rfl rfl
    exact hset.push hset.layered rfl
  · exact hs

lemma sendOn (sender : RunSender) (taskId : String) (known : Bool) :
    (h.sendOn sender taskId known).Sound := by
  cases sender with
  | connection => exact hs
  | storage =>
    simp only [OpenWorkflowTaskHandler.sendOn]
    split
    · exact hs
    · have hpushed : (h.push (.storageSend taskId)).Sound := hs.push hs.layered rfl
      exact hpushed.onChildOutcome _ _

lemma pop {rest : List Activation} (hstack : h.stack = a :: rest)
    (hrest : Layered rest) : ({ h with stack := rest } : OpenWorkflowTaskHandler).Sound :=
  ⟨hrest,fun taskId i hmem => hs.kept taskId i (hstack ▸ List.mem_cons_of_mem _ hmem)⟩

end Sound

lemma sound_send (hclear : ∀ a ∈ h.stack, a.isSend = false) (taskId : String) (known : Bool) :
    (h.send taskId known).Sound := by
  rw [send]
  split
  · exact .of_clear hclear
  next run hrun =>
  have hpushed : (h.push (.send taskId run.interpreter)).Sound := by
    refine ⟨hclear,fun id i hmem => ?_⟩
    rcases List.mem_cons.mp hmem with heq | hmem
    · cases heq
      exact ⟨run,hrun,rfl⟩
    · exact absurd (hclear _ hmem) (by simp [Activation.isSend])
  exact hpushed.sendOn _ _ _

lemma sound_handleTask (hclear : ∀ a ∈ h.stack, a.isSend = false) (taskId : String) (sender : RunSender)
    (loads closed : Bool) : (h.handleTask taskId sender loads closed).Sound := by
  simp only [handleTask]
  split
  · apply Sound.sendOn
    exact .of_clear hclear
  split
  · exact .of_clear hclear
  · refine .of_clear (List.forall_mem_cons.mpr ⟨rfl,List.forall_mem_cons.mpr ⟨rfl,hclear⟩⟩)

lemma afterSend_stack (taskId : String) (i : ℕ) : (h.afterSend taskId i).stack = h.stack := by
  rw [afterSend]
  split
  · rfl
  split <;> rfl

lemma onClose_stack (taskId : String) : (h.onClose taskId).stack = h.stack := by
  rw [onClose]
  split
  · rfl
  · dsimp only
    split <;> rfl

lemma sound_of_step (hs : h.Sound) (hcond : h.InTurn e) (hstep : h.step e = some h') : h'.Sound := by
  cases e with
  | handleTask taskId loads closed =>
    have hclear := hcond rfl
    simp only [step] at hstep
    split at hstep
    · cases hstep
      exact sound_handleTask hclear _ _ _ _
    · cases hstep
      apply sound_handleTask
      exact hclear
    · cases hstep
  | submit child =>
    simp only [step] at hstep
    split at hstep <;> cases hstep
    exact hs.same rfl rfl
  | startNested =>
    simp only [step] at hstep
    split at hstep <;> cases hstep
    next i rest hstack =>
    have hmore : ({ h with interpreters := h.interpreters ++ [⟨.resume i,.advancing⟩] } :
      OpenWorkflowTaskHandler).Sound := hs.same rfl rfl
    exact hmore.push hmore.layered rfl
  | outcome child known =>
    simp only [step] at hstep
    split at hstep <;> cases hstep
    · exact hs.sendOn _ _ _
    · exact hs.sendOn _ _ _
  | suspend =>
    simp only [step] at hstep
    split at hstep <;> cases hstep
    next i rest hstack =>
    have hlayered := hs.layered
    rw [hstack] at hlayered
    exact (hs.pop hstack hlayered).same rfl rfl
  | complete succeeds known =>
    simp only [step] at hstep
    split at hstep <;> cases hstep
    next i rest hstack =>
    have hlayered := hs.layered
    rw [hstack] at hlayered
    have hpopped : ({ h.setState i (if succeeds then .succeeded else .failed) with stack := rest } :
      OpenWorkflowTaskHandler).Sound := (hs.pop hstack hlayered).same rfl rfl
    rw [complete]
    split
    · exact hpopped
    · next taskId hcompletion =>
      refine sound_send (fun a ha => ?_) taskId known
      refine hcond ?_ a (hstack ▸ List.mem_cons_of_mem _ ha)
      have hsame : h.completionOf i = some (.send taskId) := (completionOf_setState i i _).symm.trans hcompletion
      simp [entersTable,hstack,hsame]
    · exact hpopped.onChildOutcome _ _
  | return_ =>
    simp only [step] at hstep
    have hlayered := hs.layered
    split at hstep <;> cases hstep
    · next i rest hstack =>
      rw [hstack] at hlayered
      exact .of_clear hlayered
    · next taskId i rest hstack =>
      rw [hstack] at hlayered
      refine .of_clear ?_
      rw [afterSend_stack]
      exact hlayered
    · next taskId rest hstack =>
      rw [hstack] at hlayered
      exact (hs.pop hstack hlayered).same rfl rfl
  | close taskId =>
    simp only [step] at hstep
    split at hstep <;> cases hstep
    next hstack =>
    refine .of_clear ?_
    rw [onClose_stack,hstack]
    exact fun _ hmem => nomatch hmem

/-- If no run starts and none completes while the result of a run is being sent, then the table has every
run whose sender is in a `Send`, at any moment. -/
theorem senders_kept (events : List HandlerEvent) (hcond : Throughout step InTurn {} events)
    (hrun : runAll step {} events = some h) : h.SendersKept := by
  have hempty : Sound {} := .of_clear (by simp)
  exact (runAll_invariant (fun _ _ _ hs hcond hstep => sound_of_step hs hcond hstep) hempty hcond hrun).kept

/-- A workflow calls a workflow, which is done before its `Submit` returns, and again one that is not. The
second result finds the outer run waiting, which then submits a child of another kind. -/
def innerFirst : List HandlerEvent := [.handleTask "outer" true false,.handleTask "inner" true false,
  .complete true true,.return_,.return_,.return_,.handleTask "later" true false,.submit "x",.suspend,.return_,
  .suspend,.return_,.outcome "x" true,.complete true true,.submit "y"]

theorem senders_kept_innerFirst : Throughout step InTurn {} innerFirst ∧
    ∃ h, runAll step {} innerFirst = some h ∧ .send "later" 2 ∈ h.stack ∧ .advance 0 ∈ h.stack ∧
      h.SendersKept := by
  have hcond : Throughout step InTurn {} innerFirst := by decide +kernel
  obtain ⟨h,hrun,hsend,hadvance⟩ : ∃ h, runAll step {} innerFirst = some h ∧
      .send "later" 2 ∈ h.stack ∧ .advance 0 ∈ h.stack := ⟨_,rfl,by decide +kernel,by decide +kernel⟩
  exact ⟨hcond,h,hrun,hsend,hadvance,senders_kept innerFirst hcond hrun⟩

/-- A workflow calls a workflow, which waits for a child. When the child is done the inner run completes,
its result completes the outer run, and the `reap` of that erases both. -/
def innerLast : List HandlerEvent := [.handleTask "outer" true false,.handleTask "inner" true false,
  .submit "x",.suspend,.return_,.suspend,.return_,.outcome "x" true,.complete true true,
  .complete true true,.return_]

/-- The run of the inner workflow is gone while its result is being sent, and still when `Send` returns. -/
theorem sender_erased : ∃ h h', runAll step {} innerLast = some h ∧ .send "inner" 1 ∈ h.stack ∧
    h.runs.lookup "inner" = none ∧ h.step .return_ = some h' ∧
    h'.stack.head? = some (.send "inner" 1) ∧ h'.runs.lookup "inner" = none :=
  ⟨_,_,rfl,by decide +kernel,by decide +kernel,rfl,by decide +kernel,by decide +kernel⟩

end OpenWorkflowTaskHandler
end Strij.OpenWorkflow
