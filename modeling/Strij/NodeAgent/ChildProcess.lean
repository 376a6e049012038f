import Mathlib.Data.Int.Notation
import Mathlib.Data.List.Count
import Mathlib.Tactic.Common
import Strij.Lib.Runs

/-! One task of the piped executable handler: a spawned process that is fed the task's body and whose output is
streamed back. -/
namespace Strij.NodeAgent
open Strij.Lib

/-- A `task::TaskResult` as the object sends it: `is_final` is always set. -/
structure ChildResult where
  id : String
  body : List UInt8
  isFinal : Bool
  deriving DecidableEq, Repr

inductive ChildTag
  | stdinWrite
  | stdoutRead
  | stderrRead
  | exitPoll
  deriving DecidableEq, Repr

inductive ChildEffect
  | prepareWrite (data : List UInt8)
  | prepareRead (tag : ChildTag)
  | preparePoll
  | send (result : ChildResult)
  | log (line : List UInt8)
  | kill
  | registerOnClose
  | unregisterOnClose
  | deferredDelete
  deriving DecidableEq, Repr

inductive Spawn
  | pipesFail
  | spawnFails
  | pidfdFails
  | spawned
  deriving DecidableEq, Repr

inductive Completion
  | stdinWrite (res : ℤ)
  | stdoutRead (res : ℤ)
  | stderrRead (res : ℤ)
  | exitPoll (stdout stderr : List (List UInt8))
  deriving DecidableEq, Repr

def Completion.tag : Completion → ChildTag
  | .stdinWrite _ => .stdinWrite
  | .stdoutRead _ => .stdoutRead
  | .stderrRead _ => .stderrRead
  | .exitPoll _ _ => .exitPoll

def kBufferSize : ℕ := 4096

def eagain : ℤ := 11

abbrev Buffer := { bytes : List UInt8 // bytes.length = kBufferSize }

namespace Buffer

def zero : Buffer := ⟨List.replicate kBufferSize 0,List.length_replicate⟩

/-- A read puts its data at the start of the buffer, and not more than the buffer holds. -/
def fill (buffer : Buffer) (data : List UInt8) : Buffer where
  val := data.take kBufferSize ++ buffer.val.drop data.length
  property := by
    rw [List.length_append,List.length_take,List.length_drop,buffer.property]
    omega

lemma take_fill (buffer : Buffer) (data : List UInt8) (h : data.length ≤ kBufferSize) :
    (buffer.fill data).val.take data.length = data := by
  change (data.take kBufferSize ++ buffer.val.drop data.length).take data.length = data
  rw [List.take_of_length_le h,List.take_left]

end Buffer

structure ChildProcess where
  taskId : String
  stdinBody : List UInt8
  stdinOffset : ℕ := 0
  stdinW : Bool := false
  stdoutR : Bool := false
  stderrR : Bool := false
  pidfd : Bool := false
  pid : Bool := false
  ok : Bool := false
  stdoutBuffer : Buffer := .zero
  stderrBuffer : Buffer := .zero
  finalBody : List UInt8 := []
  stdinDone : Bool := false
  stdoutDone : Bool := false
  stderrDone : Bool := false
  pollFired : Bool := false
  closeRegistered : Bool := false
  teardownSubmitted : Bool := false

namespace ChildProcess

def ofSpawn (taskId : String) (stdinBody : List UInt8) : Spawn → ChildProcess × List ChildEffect
  | .pipesFail | .spawnFails => ({ taskId := taskId, stdinBody := stdinBody },[.send ⟨taskId,[],true⟩])
  | .pidfdFails => ({ taskId := taskId, stdinBody := stdinBody },[.kill,.send ⟨taskId,[],true⟩])
  | .spawned => ({
      taskId := taskId
      stdinBody := stdinBody
      stdinW := true
      stdoutR := true
      stderrR := true
      pidfd := true
      pid := true
      ok := true },[])

def start (c : ChildProcess) : ChildProcess × List ChildEffect :=
  if ¬c.ok then (c,[])
  else
    let (c,stdin) :=
      if c.stdinBody.isEmpty then ({ c with stdinDone := true, stdinW := false },[])
      else (c,[.prepareWrite c.stdinBody])
    ({ c with closeRegistered := true },
      stdin ++ [.prepareRead .stdoutRead,.prepareRead .stderrRead,.preparePoll,.registerOnClose])

def maybeFinish (c : ChildProcess) : ChildProcess × List ChildEffect :=
  if ¬(c.stdinDone && c.stdoutDone && c.stderrDone && c.pollFired) || c.teardownSubmitted then (c,[])
  else ({ c with teardownSubmitted := true, closeRegistered := false },
    (if c.closeRegistered then [.unregisterOnClose] else []) ++ [.deferredDelete])

/-- The write is over: everything is written, or it failed. -/
def finishStdin (c : ChildProcess) : ChildProcess × List ChildEffect :=
  maybeFinish { c with stdinDone := true, stdinW := false }

def handleStdinWrite (res : ℤ) (c : ChildProcess) : ChildProcess × List ChildEffect :=
  if res > 0 then
    let offset := c.stdinOffset+res.toNat
    if offset < c.stdinBody.length then
      ({ c with stdinOffset := offset },[.prepareWrite (c.stdinBody.drop offset)])
    else finishStdin { c with stdinOffset := offset }
  else c.finishStdin

def handleStdoutRead (res : ℤ) (c : ChildProcess) : ChildProcess × List ChildEffect :=
  if res > 0 ∧ ¬c.pollFired then
    (c,[.send ⟨c.taskId,c.stdoutBuffer.val.take res.toNat,false⟩,.prepareRead .stdoutRead])
  else if res < 0 ∧ res = -eagain then (c,[.prepareRead .stdoutRead])
  else maybeFinish { c with stdoutDone := true, stdoutR := false }

def handleStderrRead (res : ℤ) (c : ChildProcess) : ChildProcess × List ChildEffect :=
  if res > 0 ∧ ¬c.pollFired then (c,[.log (c.stderrBuffer.val.take res.toNat),.prepareRead .stderrRead])
  else if res < 0 ∧ res = -eagain then (c,[.prepareRead .stderrRead])
  else maybeFinish { c with stderrDone := true, stderrR := false }

/-- The first loop of `drainOutput`, over what its reads return; it ends with a read of nothing. -/
def drainStdout (buffer : Buffer) (finalBody : List UInt8) : List (List UInt8) → Buffer × List UInt8
  | [] => (buffer,finalBody)
  | data :: reads =>
    if data.isEmpty then (buffer,finalBody)
    else drainStdout (buffer.fill data) (finalBody ++ (buffer.fill data).val.take data.length) reads

def drainStderr (buffer : Buffer) : List (List UInt8) → Buffer × List ChildEffect
  | [] => (buffer,[])
  | data :: reads =>
    if data.isEmpty then (buffer,[])
    else
      let rest := drainStderr (buffer.fill data) reads
      (rest.1,.log ((buffer.fill data).val.take data.length) :: rest.2)

def drainOutput (stdout stderr : List (List UInt8)) (c : ChildProcess) : ChildProcess × List ChildEffect :=
  let out := drainStdout c.stdoutBuffer c.finalBody (if c.stdoutR then stdout else [])
  let err := drainStderr c.stderrBuffer (if c.stderrR then stderr else [])
  ({ c with stdoutBuffer := out.1, finalBody := out.2, stderrBuffer := err.1 },err.2)

def handleExitPoll (stdout stderr : List (List UInt8)) (c : ChildProcess) : ChildProcess × List ChildEffect :=
  let (c,lines) := drainOutput stdout stderr { c with pid := false, pidfd := false, pollFired := true }
  let (d,finish) := c.maybeFinish
  (d,lines ++ [.send ⟨c.taskId,c.finalBody,true⟩] ++ finish)

def handleCompletion (c : ChildProcess) : Completion → ChildProcess × List ChildEffect
  | .stdinWrite res => c.handleStdinWrite res
  | .stdoutRead res => c.handleStdoutRead res
  | .stderrRead res => c.handleStderrRead res
  | .exitPoll stdout stderr => c.handleExitPoll stdout stderr

def handleConnectionClosed (c : ChildProcess) : List ChildEffect := if c.pid then [.kill] else []

def done (c : ChildProcess) : ChildTag → Bool
  | .stdinWrite => c.stdinDone
  | .stdoutRead => c.stdoutDone
  | .stderrRead => c.stderrDone
  | .exitPoll => c.pollFired

end ChildProcess

/-- The object with the operations that are outstanding and what it has done. -/
structure ChildRun where
  child : ChildProcess
  outstanding : List ChildTag := []
  sent : List ChildResult := []
  registered : Bool := false
  deletes : List (List ChildTag) := []

inductive ChildEvent
  | completion (completion : Completion)
  | fillStdout (data : List UInt8)
  | fillStderr (data : List UInt8)
  | connectionClosed
  deriving DecidableEq, Repr

namespace ChildRun

def perform (n : ChildRun) : ChildEffect → ChildRun
  | .prepareWrite _ => { n with outstanding := n.outstanding ++ [.stdinWrite] }
  | .prepareRead tag => { n with outstanding := n.outstanding ++ [tag] }
  | .preparePoll => { n with outstanding := n.outstanding ++ [.exitPoll] }
  | .send result => { n with sent := n.sent ++ [result] }
  | .log _ | .kill => n
  | .registerOnClose => { n with registered := true }
  | .unregisterOnClose => { n with registered := false }
  | .deferredDelete => { n with deletes := n.deletes ++ [n.outstanding] }

def after (n : ChildRun) (r : ChildProcess × List ChildEffect) : ChildRun :=
  r.2.foldl perform { n with child := r.1 }

/-- A new object is started if the process was spawned. -/
def launch (taskId : String) (stdinBody : List UInt8) (spawn : Spawn) : ChildRun :=
  let (c,effects) := ChildProcess.ofSpawn taskId stdinBody spawn
  let n := after ⟨c,[],[],false,[]⟩ (c,effects)
  if c.ok then n.after c.start else n

/-- One event: operations complete that are outstanding, and the callback runs that is registered. -/
def step (n : ChildRun) : ChildEvent → Option ChildRun
  | .completion completion =>
    if completion.tag ∈ n.outstanding then
      some ({ n with outstanding := n.outstanding.erase completion.tag }.after (n.child.handleCompletion completion))
    else none
  | .fillStdout data =>
    if .stdoutRead ∈ n.outstanding ∧ data.length ≤ kBufferSize then
      some { n with child := { n.child with stdoutBuffer := n.child.stdoutBuffer.fill data } }
    else none
  | .fillStderr data =>
    if .stderrRead ∈ n.outstanding ∧ data.length ≤ kBufferSize then
      some { n with child := { n.child with stderrBuffer := n.child.stderrBuffer.fill data } }
    else none
  | .connectionClosed =>
    if n.registered then some (n.after (n.child,n.child.handleConnectionClosed)) else none

end ChildRun

def prepared (effects : List ChildEffect) : List ChildTag :=
  effects.filterMap fun
    | .prepareWrite _ => some .stdinWrite
    | .prepareRead tag => some tag
    | .preparePoll => some .exitPoll
    | _ => none

def sends (effects : List ChildEffect) : List ChildResult :=
  effects.filterMap fun
    | .send result => some result
    | _ => none

lemma prepared_append (a b : List ChildEffect) : prepared (a ++ b) = prepared a ++ prepared b :=
  List.filterMap_append

lemma sends_append (a b : List ChildEffect) : sends (a ++ b) = sends a ++ sends b := List.filterMap_append

namespace ChildProcess
variable {c : ChildProcess}

lemma maybeFinish_cases (c : ChildProcess) : c.maybeFinish = (c,[]) ∨
    c.teardownSubmitted = false ∧ (∀ tag, c.done tag = true) ∧ c.maybeFinish =
      ({ c with teardownSubmitted := true, closeRegistered := false },
        (if c.closeRegistered then [.unregisterOnClose] else []) ++ [.deferredDelete]) := by
  rw [maybeFinish]
  split
  · exact .inl rfl
  · next h =>
    simp only [Bool.or_eq_true,decide_eq_true_eq,not_or,Decidable.not_not,Bool.not_eq_true,Bool.and_eq_true] at h
    obtain ⟨⟨⟨⟨hstdin,hstdout⟩,hstderr⟩,hpoll⟩,htorn⟩ := h
    refine .inr ⟨htorn,fun tag => ?_,rfl⟩
    cases tag with
    | stdinWrite => exact hstdin
    | stdoutRead => exact hstdout
    | stderrRead => exact hstderr
    | exitPoll => exact hpoll

end ChildProcess

/-- The effects leave the close callback alone and do not end the object. -/
def Plain (effects : List ChildEffect) : Prop :=
  ∀ e ∈ effects, e ≠ .registerOnClose ∧ e ≠ .unregisterOnClose ∧ e ≠ .deferredDelete

lemma foldl_perform {n : ChildRun} {effects : List ChildEffect} (h : Plain effects) :
    effects.foldl ChildRun.perform n =
      { n with outstanding := n.outstanding ++ prepared effects, sent := n.sent ++ sends effects } := by
  induction effects generalizing n with
  | nil => simp [prepared,sends]
  | cons e effects ih =>
    obtain ⟨⟨hregister,hunregister,hdelete⟩,hrest⟩ := List.forall_mem_cons.mp h
    rw [List.foldl_cons,ih hrest]
    cases e with
    | registerOnClose => exact absurd rfl hregister
    | unregisterOnClose => exact absurd rfl hunregister
    | deferredDelete => exact absurd rfl hdelete
    | _ => simp [ChildRun.perform,prepared,sends]

namespace ChildProcess
variable {c : ChildProcess}

/-- What a handler does. Either it submits its operation again; then it may send a chunk, if the process has not exited.
Or its operation is over; the exit sends the final result. -/
inductive Handled (c : ChildProcess) (e : Completion) : ChildProcess × List ChildEffect → Prop
  | again {d : ChildProcess} {effects : List ChildEffect} (hplain : Plain effects) (hdone : d.done = c.done)
    (htorn : d.teardownSubmitted = c.teardownSubmitted) (hprepared : prepared effects = [e.tag])
    (hexit : e.tag ≠ .exitPoll) (hsends : ∀ r ∈ sends effects, r.isFinal = false ∧ c.pollFired = false) : Handled c e (d,effects)
  | ended {d : ChildProcess} {effects : List ChildEffect} (hplain : Plain effects)
    (hdone : d.done = Function.update c.done e.tag true) (htorn : d.teardownSubmitted = c.teardownSubmitted)
    (hprepared : prepared effects = [])
    (hsends : sends effects = if e.tag = .exitPoll then [⟨d.taskId,d.finalBody,true⟩] else []) :
    Handled c e (d.maybeFinish.1,effects ++ d.maybeFinish.2)

lemma Handled.finish {e : Completion} {d : ChildProcess} (hdone : d.done = Function.update c.done e.tag true)
    (htorn : d.teardownSubmitted = c.teardownSubmitted) (hexit : e.tag ≠ .exitPoll) : Handled c e d.maybeFinish := by
  change Handled c e (d.maybeFinish.1,[] ++ d.maybeFinish.2)
  exact .ended nofun hdone htorn rfl (if_neg hexit).symm

lemma handleStdinWrite_handled (res : ℤ) : Handled c (.stdinWrite res) (c.handleStdinWrite res) := by
  rw [handleStdinWrite]
  split
  · simp only
    split
    · exact .again (by simp [Plain]) rfl rfl rfl nofun (by simp [sends])
    · exact .finish (by funext tag; cases tag <;> rfl) rfl nofun
  · exact .finish (by funext tag; cases tag <;> rfl) rfl nofun

lemma handleStdoutRead_handled (res : ℤ) : Handled c (.stdoutRead res) (c.handleStdoutRead res) := by
  rw [handleStdoutRead]
  split
  · next h => exact .again (by simp [Plain]) rfl rfl rfl nofun (by simp [sends,h.2])
  split
  · exact .again (by simp [Plain]) rfl rfl rfl nofun (by simp [sends])
  · exact .finish (by funext tag; cases tag <;> rfl) rfl nofun

lemma handleStderrRead_handled (res : ℤ) : Handled c (.stderrRead res) (c.handleStderrRead res) := by
  rw [handleStderrRead]
  split
  · exact .again (by simp [Plain]) rfl rfl rfl nofun (by simp [sends])
  split
  · exact .again (by simp [Plain]) rfl rfl rfl nofun (by simp [sends])
  · exact .finish (by funext tag; cases tag <;> rfl) rfl nofun

lemma drainStderr_effects (buffer : Buffer) (reads : List (List UInt8)) :
    Plain (drainStderr buffer reads).2 ∧ prepared (drainStderr buffer reads).2 = [] ∧
      sends (drainStderr buffer reads).2 = [] := by
  induction reads generalizing buffer with
  | nil => exact ⟨nofun,rfl,rfl⟩
  | cons data reads ih =>
    rw [drainStderr]
    split
    · exact ⟨nofun,rfl,rfl⟩
    · obtain ⟨hplain,hprepared,hsends⟩ := ih (buffer.fill data)
      exact ⟨List.forall_mem_cons.mpr ⟨⟨nofun,nofun,nofun⟩,hplain⟩,hprepared,hsends⟩

lemma handleExitPoll_handled (stdout stderr : List (List UInt8)) :
    Handled c (.exitPoll stdout stderr) (c.handleExitPoll stdout stderr) := by
  obtain ⟨hplain,hprepared,hsends⟩ := drainStderr_effects c.stderrBuffer (if c.stderrR then stderr else [])
  rw [handleExitPoll,drainOutput]
  refine Handled.ended (fun e he => ?_) (by funext tag; cases tag <;> rfl) rfl ?_ ?_
  · rcases List.mem_append.mp he with he | he
    · exact hplain e he
    · rw [List.mem_singleton.mp he]
      exact ⟨nofun,nofun,nofun⟩
  · rw [prepared_append,hprepared]
    rfl
  · rw [sends_append,hsends]
    rfl

lemma handleCompletion_handled (e : Completion) : Handled c e (c.handleCompletion e) := by
  cases e with
  | stdinWrite res => exact handleStdinWrite_handled res
  | stdoutRead res => exact handleStdoutRead_handled res
  | stderrRead res => exact handleStderrRead_handled res
  | exitPoll stdout stderr => exact handleExitPoll_handled stdout stderr

end ChildProcess

namespace ChildRun
variable {n t : ChildRun} {e : ChildEvent} {events : List ChildEvent} {effects : List ChildEffect}

structure Tracked (n : ChildRun) : Prop where
  outstanding (tag : ChildTag) : n.outstanding.count tag = if n.child.done tag then 0 else 1
  deletes : n.deletes = if n.child.teardownSubmitted then [[]] else []
  torn : n.child.teardownSubmitted = true → ∀ tag, n.child.done tag = true
  chunks : n.child.pollFired = false → ∀ r ∈ n.sent, r.isFinal = false

lemma after_again {d : ChildProcess} {tag : ChildTag} (hplain : Plain effects)
    (hprepared : prepared effects = [tag]) : n.after (d,effects) =
      { n with child := d, outstanding := n.outstanding ++ [tag], sent := n.sent ++ sends effects } := by
  rw [after,foldl_perform hplain,hprepared]

lemma after_ended {d : ChildProcess} (hplain : Plain effects) (hprepared : prepared effects = []) :
    (n.after (d.maybeFinish.1,effects ++ d.maybeFinish.2) =
        { n with child := d, sent := n.sent ++ sends effects }) ∨
      d.teardownSubmitted = false ∧ (∀ tag, d.done tag = true) ∧
      ∃ registered, n.after (d.maybeFinish.1,effects ++ d.maybeFinish.2) =
        { n with
          child := { d with teardownSubmitted := true, closeRegistered := false }
          sent := n.sent ++ sends effects
          registered := registered
          deletes := n.deletes ++ [n.outstanding] } := by
  rcases d.maybeFinish_cases with hnot | ⟨htorn,hdone,hfinish⟩
  · left
    rw [after,hnot,List.append_nil,foldl_perform hplain,hprepared,List.append_nil]
  · refine .inr ⟨htorn,hdone,if d.closeRegistered then false else n.registered,?_⟩
    rw [after,hfinish,List.foldl_append,foldl_perform hplain,hprepared,List.append_nil]
    cases d.closeRegistered <;> simp [perform]

lemma eq_nil_of_count {tags : List ChildTag} (h : ∀ tag, tags.count tag = 0) : tags = [] :=
  List.eq_nil_iff_forall_not_mem.mpr fun tag => List.count_eq_zero.mp (h tag)

lemma completion_cases {e : Completion} (hstep : n.step (.completion e) = some t) : e.tag ∈ n.outstanding ∧
    ((∃ d results, t = { n with
          child := d
          outstanding := n.outstanding.erase e.tag ++ [e.tag]
          sent := n.sent ++ results } ∧
        e.tag ≠ .exitPoll ∧ d.done = n.child.done ∧ d.teardownSubmitted = n.child.teardownSubmitted ∧
        ∀ r ∈ results, r.isFinal = false ∧ n.child.pollFired = false) ∨
      ∃ d : ChildProcess, d.done = Function.update n.child.done e.tag true ∧
        t.sent = n.sent ++ (if e.tag = .exitPoll then [⟨d.taskId,d.finalBody,true⟩] else []) ∧
        t.outstanding = n.outstanding.erase e.tag ∧ t.child.done = d.done ∧
        (t.child.teardownSubmitted = n.child.teardownSubmitted ∧ t.deletes = n.deletes ∨
          n.child.teardownSubmitted = false ∧ (∀ tag, d.done tag = true) ∧ t.child.teardownSubmitted = true ∧
            t.deletes = n.deletes ++ [n.outstanding.erase e.tag])) := by
  rw [step] at hstep
  split at hstep
  · next hmem =>
    refine ⟨hmem,?_⟩
    obtain rfl := Option.some.inj hstep
    have hhandled := n.child.handleCompletion_handled e
    generalize n.child.handleCompletion e = r at hhandled
    cases hhandled with
    | again hplain hdone htorn hprepared hexit hsends =>
      left
      exact ⟨_,_,after_again hplain hprepared,hexit,hdone,htorn,hsends⟩
    | @ended d effects hplain hdone htorn hprepared hsends =>
      refine .inr ⟨d,hdone,?_⟩
      rcases after_ended (n := { n with outstanding := n.outstanding.erase e.tag }) hplain hprepared with
        hafter | ⟨hfresh,hall,registered,hafter⟩
      · rw [hafter,← hsends]
        exact ⟨rfl,rfl,rfl,.inl ⟨htorn,rfl⟩⟩
      · rw [hafter,← hsends]
        exact ⟨rfl,rfl,rfl,.inr ⟨htorn ▸ hfresh,hall,rfl,rfl⟩⟩
  · cases hstep

lemma Tracked.completion (h : n.Tracked) {e : Completion} (hstep : n.step (.completion e) = some t) : t.Tracked := by
  obtain ⟨hmem,⟨d,results,rfl,-,hdone,htorn,hresults⟩ | ⟨d,hdone,hsent,houtstanding,hchild,hends⟩⟩ :=
    completion_cases hstep
  · have hpoll : d.pollFired = n.child.pollFired := congrFun hdone .exitPoll
    refine ⟨fun tag => ?_,?_,?_,fun hquiet r hr => ?_⟩
    · have hperm : (n.outstanding.erase e.tag ++ [e.tag]).Perm n.outstanding :=
        (List.perm_append_singleton _ _).trans (List.perm_cons_erase hmem).symm
      rw [hperm.count_eq,h.outstanding,hdone]
    · rw [htorn]
      exact h.deletes
    · rw [htorn,hdone]
      exact h.torn
    · rcases List.mem_append.mp hr with hr | hr
      · exact h.chunks (hpoll ▸ hquiet) r hr
      · exact (hresults r hr).1
  · have hcount (tag : ChildTag) : (n.outstanding.erase e.tag).count tag = if d.done tag then 0 else 1 := by
      rw [List.count_erase,h.outstanding,hdone]
      by_cases heq : tag = e.tag
      · subst heq
        simp only [Function.update_self,beq_self_eq_true,if_true]
        split <;> rfl
      · rw [Function.update_of_ne heq]
        simp [Ne.symm heq]
    refine ⟨fun tag => ?_,?_,fun htorn tag => ?_,fun hquiet r hr => ?_⟩
    · rw [houtstanding,hchild,hcount]
    · rcases hends with ⟨htorn,hdeletes⟩ | ⟨hfresh,hall,htorn,hdeletes⟩
      · rw [htorn,hdeletes,h.deletes]
      · have hnone : n.outstanding.erase e.tag = [] := eq_nil_of_count fun tag => by rw [hcount,hall]; rfl
        rw [htorn,hdeletes,h.deletes,hfresh,hnone]
        rfl
    · rcases hends with ⟨hbefore,-⟩ | ⟨-,hall,-,-⟩
      · rw [hchild,hdone]
        have hold := h.torn (hbefore ▸ htorn)
        by_cases heq : tag = e.tag
        · rw [heq,Function.update_self]
        · rw [Function.update_of_ne heq,hold tag]
      · rw [hchild]
        exact hall tag
    · have hnot : e.tag ≠ .exitPoll := by
        intro hexit
        have hfired : t.child.pollFired = true := by
          change t.child.done .exitPoll = true
          rw [hchild,hdone,hexit,Function.update_self]
        rw [hfired] at hquiet
        cases hquiet
      have hpoll : n.child.pollFired = false := by
        change n.child.done .exitPoll = false
        rw [← Function.update_of_ne (Ne.symm hnot) true n.child.done,← hdone,← hchild]
        exact hquiet
      rw [hsent,if_neg hnot,List.append_nil] at hr
      exact h.chunks hpoll r hr

lemma other_cases (hstep : n.step e = some t) (hother : ∀ c, e ≠ .completion c) :
    t.outstanding = n.outstanding ∧ t.deletes = n.deletes ∧ t.sent = n.sent ∧ t.child.done = n.child.done ∧
      t.child.teardownSubmitted = n.child.teardownSubmitted := by
  cases e with
  | completion c => exact absurd rfl (hother c)
  | fillStdout data =>
    rw [step] at hstep
    split at hstep
    · obtain rfl := Option.some.inj hstep
      exact ⟨rfl,rfl,rfl,rfl,rfl⟩
    · cases hstep
  | fillStderr data =>
    rw [step] at hstep
    split at hstep
    · obtain rfl := Option.some.inj hstep
      exact ⟨rfl,rfl,rfl,rfl,rfl⟩
    · cases hstep
  | connectionClosed =>
    rw [step] at hstep
    split at hstep
    · obtain rfl := Option.some.inj hstep
      rw [ChildProcess.handleConnectionClosed]
      split <;> exact ⟨rfl,rfl,rfl,rfl,rfl⟩
    · cases hstep

lemma Tracked.step (h : n.Tracked) (hstep : n.step e = some t) : t.Tracked := by
  by_cases hcompletion : ∃ c, e = .completion c
  · obtain ⟨c,rfl⟩ := hcompletion
    exact h.completion hstep
  · obtain ⟨houtstanding,hdeletes,hsent,hdone,htorn⟩ := other_cases hstep fun c hc => hcompletion ⟨c,hc⟩
    have hpoll : t.child.pollFired = n.child.pollFired := congrFun hdone .exitPoll
    exact ⟨by rw [houtstanding,hdone]; exact h.outstanding,by rw [hdeletes,htorn]; exact h.deletes,
      by rw [htorn,hdone]; exact h.torn,by rw [hpoll,hsent]; exact h.chunks⟩

lemma Tracked.launch (taskId : String) (stdinBody : List UInt8) :
    (launch taskId stdinBody .spawned).Tracked ∧ (launch taskId stdinBody .spawned).child.pollFired = false := by
  cases stdinBody with
  | nil => exact ⟨⟨fun tag => by cases tag <;> rfl,rfl,nofun,nofun⟩,rfl⟩
  | cons b body => exact ⟨⟨fun tag => by cases tag <;> rfl,rfl,nofun,nofun⟩,rfl⟩

lemma Tracked.run (h : n.Tracked) (hrun : runAll ChildRun.step n events = some t) : t.Tracked :=
  runAll_invariant (P := fun _ _ => True) (fun _ _ _ hn _ hstep => hn.step hstep) h
    (.of_forall fun _ _ => trivial) hrun

def IsExit (e : ChildEvent) : Prop := ∃ stdout stderr, e = .completion (.exitPoll stdout stderr)

lemma pollFired_of_not_exit (hstep : n.step e = some t) (hexit : ¬IsExit e) :
    t.child.pollFired = n.child.pollFired := by
  change t.child.done .exitPoll = n.child.done .exitPoll
  by_cases hcompletion : ∃ c, e = .completion c
  · obtain ⟨c,rfl⟩ := hcompletion
    obtain ⟨-,⟨d,results,rfl,-,hdone,-⟩ | ⟨d,hdone,-,-,hchild,-⟩⟩ := completion_cases hstep
    · exact congrFun hdone _
    · have htag : ChildTag.exitPoll ≠ c.tag := fun htag => by
        cases c with
        | exitPoll stdout stderr => exact hexit ⟨stdout,stderr,rfl⟩
        | _ => cases htag
      rw [hchild,hdone,Function.update_of_ne htag]
  · obtain ⟨-,-,-,hdone,-⟩ := other_cases hstep fun c hc => hcompletion ⟨c,hc⟩
    exact congrFun hdone _

lemma sent_at_exit (hstep : n.step e = some t) (hexit : IsExit e) :
    t.child.pollFired = true ∧ ∃ final : ChildResult, final.isFinal = true ∧ t.sent = n.sent ++ [final] := by
  obtain ⟨stdout,stderr,rfl⟩ := hexit
  obtain ⟨-,⟨-,-,-,hnot,-⟩ | ⟨d,hdone,hsent,-,hchild,-⟩⟩ := completion_cases hstep
  · exact absurd rfl hnot
  · refine ⟨?_,_,rfl,hsent⟩
    change t.child.done .exitPoll = true
    rw [hchild,hdone]
    exact Function.update_self ..

lemma Tracked.not_exit (h : n.Tracked) (hfired : n.child.pollFired = true)
    (hstep : n.step e = some t) : ¬IsExit e := by
  rintro ⟨stdout,stderr,rfl⟩
  obtain ⟨hmem,-⟩ := completion_cases hstep
  have hcount := h.outstanding .exitPoll
  rw [show n.child.done .exitPoll = true from hfired,if_pos rfl] at hcount
  exact List.count_eq_zero.mp hcount hmem

lemma Tracked.sent_after_exit (h : n.Tracked) (hfired : n.child.pollFired = true)
    (hstep : n.step e = some t) : t.sent = n.sent := by
  have hexit := h.not_exit hfired hstep
  by_cases hcompletion : ∃ c, e = .completion c
  · obtain ⟨c,rfl⟩ := hcompletion
    obtain ⟨-,⟨d,results,rfl,-,-,-,hresults⟩ | ⟨d,-,hsent,-⟩⟩ := completion_cases hstep
    · have hnone : results = [] := List.eq_nil_iff_forall_not_mem.mpr fun r hr => by
        rw [(hresults r hr).2] at hfired
        cases hfired
      simp only [hnone,List.append_nil]
    · rw [hsent,if_neg,List.append_nil]
      intro htag
      cases c with
      | exitPoll stdout stderr => exact hexit ⟨stdout,stderr,rfl⟩
      | _ => cases htag
  · exact (other_cases hstep fun c hc => hcompletion ⟨c,hc⟩).2.2.1

lemma Tracked.run_after_exit (h : n.Tracked) (hfired : n.child.pollFired = true)
    (hrun : runAll ChildRun.step n events = some t) : t.sent = n.sent := by
  refine (runAll_invariant (I := fun m => m.Tracked ∧ m.child.pollFired = true ∧ m.sent = n.sent)
    (P := fun _ _ => True) (fun m e m' hm _ hstep => ?_) ⟨h,hfired,rfl⟩ (.of_forall fun _ _ => trivial) hrun).2.2
  obtain ⟨htracked,hpoll,hsent⟩ := hm
  refine ⟨htracked.step hstep,?_,?_⟩
  · rw [pollFired_of_not_exit hstep (htracked.not_exit hpoll hstep),hpoll]
  · rw [htracked.sent_after_exit hpoll hstep,hsent]

lemma run_without_exit (hexit : ∀ e ∈ events, ¬IsExit e)
    (hrun : runAll step n events = some t) : t.child.pollFired = n.child.pollFired := by
  induction events generalizing n with
  | nil =>
    cases hrun
    rfl
  | cons e events ih =>
    obtain ⟨m,hstep,hrest⟩ := Option.bind_eq_some_iff.mp hrun
    obtain ⟨hnot,hlater⟩ := List.forall_mem_cons.mp hexit
    rw [ih hlater hrest,pollFired_of_not_exit hstep hnot]

/-- For every order of completions the results are chunks that are not final until the exit completes; the exit sends
one final result, and nothing is sent after it. The deferred delete is submitted at most once, and only when no
operation of the object is outstanding. -/
theorem results_end_at_exit (taskId : String) (stdinBody : List UInt8) (events : List ChildEvent) (n : ChildRun)
    (hrun : runAll step (launch taskId stdinBody .spawned) events = some n) :
    ((∀ e ∈ events, ¬IsExit e) → ∀ r ∈ n.sent, r.isFinal = false) ∧
    (∀ before exit later, events = before ++ exit :: later → IsExit exit →
      ∃ m final, runAll step (launch taskId stdinBody .spawned) before = some m ∧
        (∀ r ∈ m.sent, r.isFinal = false) ∧ final.isFinal = true ∧ n.sent = m.sent ++ [final]) ∧
    n.deletes.length ≤ 1 ∧ (∀ outstanding ∈ n.deletes, outstanding = []) ∧
    (n.deletes ≠ [] → n.outstanding = []) := by
  obtain ⟨hlaunch,hquiet⟩ := Tracked.launch taskId stdinBody
  have htracked := hlaunch.run hrun
  have hdeletes := htracked.deletes
  refine ⟨fun hexit => ?_,?_,?_,?_,fun hdeleted => ?_⟩
  · exact htracked.chunks ((run_without_exit hexit hrun).trans hquiet)
  · rintro before exit later rfl hexit
    rw [runAll_append] at hrun
    obtain ⟨m,hbefore,hrest⟩ := Option.bind_eq_some_iff.mp hrun
    obtain ⟨m',hstep,hlater⟩ := Option.bind_eq_some_iff.mp hrest
    have hm := hlaunch.run hbefore
    obtain ⟨hfired,final,hfinal,hsent⟩ := sent_at_exit hstep hexit
    have hpoll : m.child.pollFired = false := Bool.eq_false_iff.mpr fun hpoll => hm.not_exit hpoll hstep hexit
    refine ⟨m,final,hbefore,hm.chunks hpoll,hfinal,?_⟩
    rw [(hm.step hstep).run_after_exit hfired hlater,hsent]
  · rw [hdeletes]
    split <;> simp
  · rw [hdeletes]
    split <;> simp
  · cases htorn : n.child.teardownSubmitted with
    | false =>
      rw [hdeletes,htorn] at hdeleted
      exact absurd rfl hdeleted
    | true => exact eq_nil_of_count fun tag => by rw [htracked.outstanding,htracked.torn htorn tag]; rfl

/-- The task's body is written in two parts. The process writes `hi`, which is read before it exits, and `!`, which the
drain finds; the reads end later. -/
def hiProcess : List ChildEvent :=
  [.completion (.stdinWrite 1),.completion (.stdoutRead (-11)),.fillStdout [104,105],.completion (.stdoutRead 2),
    .completion (.stdinWrite 2),.connectionClosed,.completion (.exitPoll [[33]] []),.completion (.stderrRead 0),
    .completion (.stdoutRead 0)]

theorem results_end_at_exit_hiProcess : ∃ n, runAll step (launch "t" [1,2,3] .spawned) hiProcess = some n ∧
      (n.sent = [⟨"t",[104,105],false⟩,⟨"t",[33],true⟩] ∧ n.deletes = [[]]) ∧ n.outstanding = [] := by
  have hrun : (runAll step (launch "t" [1,2,3] .spawned) hiProcess).any (fun n =>
      n.sent = [⟨"t",[104,105],false⟩,⟨"t",[33],true⟩] ∧ n.deletes = [[]]) = true := by decide +kernel
  obtain ⟨n,hn,hsent⟩ := (Option.any_eq_true _ _).mp hrun
  have hsent := of_decide_eq_true hsent
  refine ⟨n,hn,hsent,(results_end_at_exit "t" [1,2,3] hiProcess n hn).2.2.2.2 ?_⟩
  rw [hsent.2]
  exact nofun

end ChildRun
end Strij.NodeAgent
