import Strij.NodeAgent.ChildProcess

/-! The output of a child process on its way from the pipe to the results. -/
namespace Strij.NodeAgent
open Strij.Lib

structure PipedChild where
  run : ChildRun
  pipe : List UInt8 := []
  alive : Bool := true
  writing : Bool := true
  read : Option ℤ := none
  written : List UInt8 := []

inductive PipedChildEvent
  | writes (data : List UInt8)
  | closesStdout
  | exits
  | otherWrites (data : List UInt8)
  | readTakes (n : ℕ)
  | readEnds
  | readAgain
  | readFails (errno : ℕ)
  | handleRead
  | handleExit (pieces stderr : List (List UInt8))
  | handleStdinWrite (res : ℤ)
  | handleStderrRead (res : ℤ)
  | fillStderr (data : List UInt8)
  | connectionClosed

namespace PipedChild

def complete (p : PipedChild) (res : ℤ) : Option PipedChild :=
  if .stdoutRead ∈ p.run.outstanding ∧ p.read = none then some { p with read := some res } else none

def pass (p : PipedChild) (e : ChildEvent) : Option PipedChild := (p.run.step e).map ({ p with run := · })

/-- The reads of a drain return the pipe in pieces. -/
def Drains (pieces : List (List UInt8)) (pipe : List UInt8) : Prop :=
  pieces.flatten = pipe ∧ ∀ piece ∈ pieces, piece ≠ [] ∧ piece.length ≤ kBufferSize

instance (pieces : List (List UInt8)) (pipe : List UInt8) : Decidable (Drains pieces pipe) :=
  inferInstanceAs (Decidable (_ ∧ _))

def step (p : PipedChild) : PipedChildEvent → Option PipedChild
  | .writes data =>
    if p.writing then some { p with pipe := p.pipe ++ data, written := p.written ++ data } else none
  | .closesStdout => some { p with writing := false }
  | .exits => some { p with alive := false, writing := false }
  | .otherWrites data => some { p with pipe := p.pipe ++ data }
  | .readTakes n =>
    if 0 < n ∧ n ≤ kBufferSize ∧ n ≤ p.pipe.length then do
      let run ← p.run.step (.fillStdout (p.pipe.take n))
      complete { p with run := run, pipe := p.pipe.drop n } n
    else none
  | .readEnds => if p.pipe = [] ∧ ¬p.writing then p.complete 0 else none
  | .readAgain => if p.pipe = [] then p.complete (-eagain) else none
  | .readFails errno => if 0 < errno ∧ (errno : ℤ) ≠ eagain then p.complete (-errno) else none
  | .handleRead =>
    match p.read with
    | none => none
    | some res => { p with read := none }.pass (.completion (.stdoutRead res))
  | .handleExit pieces stderr =>
    if ¬p.alive ∧ Drains pieces p.pipe then
      (p.run.step (.completion (.exitPoll pieces stderr))).map fun run =>
        { p with run := run, pipe := if p.run.child.stdoutR then [] else p.pipe }
    else none
  | .handleStdinWrite res => p.pass (.completion (.stdinWrite res))
  | .handleStderrRead res => p.pass (.completion (.stderrRead res))
  | .fillStderr data => p.pass (.fillStderr data)
  | .connectionClosed => p.pass .connectionClosed

def launch (taskId : String) (stdinBody : List UInt8) : PipedChild := ⟨.launch taskId stdinBody .spawned,[],true,true,none,[]⟩

def output (p : PipedChild) : List UInt8 := p.run.sent.flatMap ChildResult.body

def taken (p : PipedChild) : List UInt8 :=
  match p.read with
  | none => []
  | some res => p.run.child.stdoutBuffer.val.take res.toNat

/-- Only the process itself writes to the pipe, no read of it fails, and when the exit is handled the asynchronous read
has taken nothing that is not handled. -/
def Clean (p : PipedChild) : PipedChildEvent → Prop
  | .otherWrites _ | .readFails _ => False
  | .handleExit _ _ => p.taken = []
  | _ => True

end PipedChild

namespace ChildProcess
variable {c : ChildProcess} {pieces : List (List UInt8)}

structure Output where
  buffer : Buffer
  finalBody : List UInt8
  isOpen : Bool
  done : Bool
  exited : Bool

def output (c : ChildProcess) : Output := ⟨c.stdoutBuffer,c.finalBody,c.stdoutR,c.stdoutDone,c.pollFired⟩

lemma maybeFinish_output (c : ChildProcess) : c.maybeFinish.1.output = c.output ∧ sends c.maybeFinish.2 = [] := by
  rcases c.maybeFinish_cases with hnot | ⟨-,-,hfinish⟩
  · rw [hnot]
    exact ⟨rfl,rfl⟩
  · rw [hfinish]
    refine ⟨rfl,?_⟩
    split <;> rfl

lemma handleStdinWrite_output (res : ℤ) :
    (c.handleStdinWrite res).1.output = c.output ∧ sends (c.handleStdinWrite res).2 = [] := by
  rw [handleStdinWrite]
  split
  · simp only
    split
    · exact ⟨rfl,rfl⟩
    · exact maybeFinish_output _
  · exact maybeFinish_output _

lemma handleStderrRead_output (res : ℤ) :
    (c.handleStderrRead res).1.output = c.output ∧ sends (c.handleStderrRead res).2 = [] := by
  rw [handleStderrRead]
  split
  · exact ⟨rfl,rfl⟩
  split
  · exact ⟨rfl,rfl⟩
  · exact maybeFinish_output _

lemma handleStdoutRead_cases {res : ℤ} (hanswer : 0 ≤ res ∨ res = -eagain) :
    (c.pollFired = false ∧ (c.handleStdoutRead res).1 = c ∧
      sends (c.handleStdoutRead res).2 = [⟨c.taskId,c.stdoutBuffer.val.take res.toNat,false⟩]) ∨
    (res ≤ 0 ∧ (c.handleStdoutRead res).1 = c ∧ sends (c.handleStdoutRead res).2 = []) ∨
    ((res = 0 ∨ c.pollFired = true) ∧
      (c.handleStdoutRead res).1.output = { c.output with isOpen := false, done := true } ∧
      sends (c.handleStdoutRead res).2 = []) := by
  rw [handleStdoutRead]
  split
  · next h => exact .inl ⟨by simpa using h.2,rfl,rfl⟩
  · next h =>
    split
    · next hagain => exact .inr (.inl ⟨by omega,rfl,rfl⟩)
    · next hagain =>
      obtain ⟨hview,hsends⟩ := maybeFinish_output { c with stdoutDone := true, stdoutR := false }
      refine .inr (.inr ⟨?_,hview,hsends⟩)
      by_cases hpoll : c.pollFired = true
      · exact .inr hpoll
      · left
        have heagain : eagain = 11 := rfl
        have hnot : ¬res > 0 := fun hpos => h ⟨hpos,hpoll⟩
        omega

lemma drainStdout_body {buffer : Buffer} {body : List UInt8}
    (h : ∀ piece ∈ pieces, piece ≠ [] ∧ piece.length ≤ kBufferSize) :
    (drainStdout buffer body pieces).2 = body ++ pieces.flatten := by
  induction pieces generalizing buffer body with
  | nil => simp [drainStdout]
  | cons piece pieces ih =>
    obtain ⟨⟨hne,hle⟩,hrest⟩ := List.forall_mem_cons.mp h
    rw [drainStdout,if_neg (by simpa using hne),ih hrest,Buffer.take_fill buffer piece hle]
    simp

lemma handleExitPoll_output (stderr : List (List UInt8))
    (h : ∀ piece ∈ pieces, piece ≠ [] ∧ piece.length ≤ kBufferSize) :
    (c.handleExitPoll pieces stderr).1.stdoutR = c.stdoutR ∧
      (c.handleExitPoll pieces stderr).1.stdoutDone = c.stdoutDone ∧
      (c.handleExitPoll pieces stderr).1.pollFired = true ∧ sends (c.handleExitPoll pieces stderr).2 =
        [⟨c.taskId,c.finalBody ++ (if c.stdoutR then pieces.flatten else []),true⟩] := by
  obtain ⟨-,-,hlines⟩ := drainStderr_effects c.stderrBuffer (if c.stderrR then stderr else [])
  have hbody : (drainStdout c.stdoutBuffer c.finalBody (if c.stdoutR then pieces else [])).2 =
      c.finalBody ++ (if c.stdoutR then pieces.flatten else []) := by
    cases c.stdoutR with
    | false => simp [drainStdout]
    | true => exact drainStdout_body h
  obtain ⟨hview,hfinish⟩ := maybeFinish_output
    (drainOutput pieces stderr { c with pid := false, pidfd := false, pollFired := true }).1
  refine ⟨congrArg Output.isOpen hview,congrArg Output.done hview,congrArg Output.exited hview,?_⟩
  rw [handleExitPoll,sends_append,sends_append,hfinish,← hbody]
  exact congrArg (· ++ _ ++ []) hlines

end ChildProcess

namespace ChildRun
variable {n t : ChildRun}

lemma foldl_perform_eq (effects : List ChildEffect) :
    (effects.foldl perform n).child = n.child ∧ (effects.foldl perform n).sent = n.sent ++ sends effects := by
  induction effects generalizing n with
  | nil => simp [sends]
  | cons e effects ih =>
    obtain ⟨hchild,hsent⟩ := ih (n := n.perform e)
    rw [List.foldl_cons,hchild,hsent]
    cases e <;> simp [perform,sends]

lemma step_completion {e : Completion} (hstep : n.step (.completion e) = some t) :
    t.child = (n.child.handleCompletion e).1 ∧ t.sent = n.sent ++ sends (n.child.handleCompletion e).2 := by
  rw [step] at hstep
  split at hstep
  · obtain rfl := Option.some.inj hstep
    exact foldl_perform_eq _
  · cases hstep

end ChildRun

namespace PipedChild
variable {p t : PipedChild} {e : PipedChildEvent} {pieces stderr : List (List UInt8)}

/-- Before the exit is handled, what was written was sent, is taken, or is in the pipe; afterwards it was sent. -/
structure Flows (p : PipedChild) : Prop where
  running : p.run.child.pollFired = false → p.output ++ (p.taken ++ p.pipe) = p.written
  exited : p.run.child.pollFired = true → p.output = p.written ∧ p.alive = false
  dead : p.alive = false → p.writing = false
  ended : p.run.child.pollFired = false → p.read = some 0 ∨ p.run.child.stdoutDone = true →
    p.pipe = [] ∧ p.writing = false
  answers : ∀ res, p.read = some res → 0 ≤ res ∨ res = -eagain
  isOpen : p.run.child.stdoutR = !p.run.child.stdoutDone
  unsent : p.run.child.pollFired = false → p.run.child.finalBody = []

lemma Flows.pass (h : p.Flows) {run : ChildRun} (houtput : run.child.output = p.run.child.output)
    (hsent : run.sent = p.run.sent) : Flows { p with run := run } := by
  obtain ⟨hbuffer,hbody,hopen,hdone,hexited⟩ := ChildProcess.Output.mk.inj houtput
  have htaken : taken { p with run := run } = p.taken := by
    simp only [taken,hbuffer]
  have hout : output { p with run := run } = p.output := by
    simp only [output,hsent]
  refine ⟨?_,?_,h.dead,?_,h.answers,?_,?_⟩
  · rw [hexited,htaken,hout]
    exact h.running
  · rw [hexited,hout]
    exact h.exited
  · rw [hexited,hdone]
    exact h.ended
  · rw [hopen,hdone]
    exact h.isOpen
  · rw [hexited,hbody]
    exact h.unsent

lemma Flows.complete (h : p.Flows) {res : ℤ} (hres : res ≤ 0) (hanswer : 0 ≤ res ∨ res = -eagain)
    (hended : res = 0 → p.pipe = [] ∧ p.writing = false) (hcomplete : p.complete res = some t) : t.Flows := by
  rw [PipedChild.complete] at hcomplete
  split at hcomplete
  · next hread =>
    obtain rfl := Option.some.inj hcomplete
    have hbefore : p.taken = [] := by simp only [taken,hread.2]
    have hafter : taken { p with read := some res } = [] := by
      simp only [taken,Int.toNat_of_nonpos hres,List.take_zero]
    refine ⟨fun hrunning => ?_,h.exited,h.dead,fun hrunning hends => ?_,fun r hr => ?_,h.isOpen,h.unsent⟩
    · rw [hafter,← hbefore]
      exact h.running hrunning
    · rcases hends with hzero | hdone
      · exact hended (Option.some.inj hzero)
      · exact h.ended hrunning (.inr hdone)
    · obtain rfl := Option.some.inj hr
      exact hanswer
  · cases hcomplete

lemma Flows.readTakes (h : p.Flows) {n : ℕ} (hstep : p.step (.readTakes n) = some t) : t.Flows := by
  rw [step] at hstep
  split at hstep
  · next hn =>
    obtain ⟨run,hfill,hcomplete⟩ := Option.bind_eq_some_iff.mp hstep
    rw [ChildRun.step] at hfill
    split at hfill
    · obtain rfl := Option.some.inj hfill
      rw [PipedChild.complete] at hcomplete
      split at hcomplete
      · next hread =>
        obtain rfl := Option.some.inj hcomplete
        have hlength : (p.pipe.take n).length = n := List.length_take_of_le hn.2.2
        have hdata := p.run.child.stdoutBuffer.take_fill (p.pipe.take n) (by omega)
        rw [hlength] at hdata
        have hnone : p.read = none := hread.2
        have hbefore : p.taken = [] := by simp only [taken,hnone]
        refine ⟨fun hrunning => ?_,h.exited,h.dead,fun hrunning hends => ?_,fun res hres => ?_,h.isOpen,h.unsent⟩
        · have hwhole := h.running hrunning
          rw [hbefore,List.nil_append] at hwhole
          change p.output ++ ((p.run.child.stdoutBuffer.fill (p.pipe.take n)).val.take (n : ℤ).toNat ++ p.pipe.drop n) = p.written
          rw [Int.toNat_natCast,hdata,List.take_append_drop,hwhole]
        · rcases hends with hzero | hdone
          · have hzero : (n : ℤ) = 0 := Option.some.inj hzero
            omega
          · obtain ⟨hpipe,hwriting⟩ := h.ended hrunning (.inr hdone)
            simp only [hpipe,List.drop_nil]
            exact ⟨trivial,hwriting⟩
        · have hres : (n : ℤ) = res := Option.some.inj hres
          omega
      · cases hcomplete
    · cases hfill
  · cases hstep

lemma Flows.handleRead (h : p.Flows) (hstep : p.step .handleRead = some t) : t.Flows := by
  rw [step] at hstep
  split at hstep
  · cases hstep
  · next res hread =>
    obtain ⟨run,hrun,rfl⟩ := Option.map_eq_some_iff.mp hstep
    obtain ⟨hchild,hsent⟩ := ChildRun.step_completion hrun
    rw [ChildProcess.handleCompletion] at hchild hsent
    have htaken : p.taken = p.run.child.stdoutBuffer.val.take res.toNat := by simp only [taken,hread]
    rcases p.run.child.handleStdoutRead_cases (h.answers res hread) with
      ⟨hrunning,hsame,hsends⟩ | ⟨hnothing,hsame,hsends⟩ | ⟨hends,hview,hsends⟩
    · rw [hsame] at hchild
      rw [hsends] at hsent
      refine ⟨fun _ => ?_,fun hfired => ?_,h.dead,fun _ hended => ?_,nofun,?_,fun _ => ?_⟩
      · have hwhole := h.running hrunning
        rw [htaken] at hwhole
        simp only [output,taken,hsent,List.flatMap_append,List.flatMap_singleton,List.nil_append,List.append_assoc]
        exact hwhole
      · simp only [hchild,hrunning,Bool.false_eq_true] at hfired
      · simp only [hchild,reduceCtorEq,false_or] at hended
        exact h.ended hrunning (.inr hended)
      · simp only [hchild]
        exact h.isOpen
      · simp only [hchild]
        exact h.unsent hrunning
    · rw [hsame] at hchild
      rw [hsends,List.append_nil] at hsent
      rw [Int.toNat_of_nonpos hnothing,List.take_zero] at htaken
      refine Flows.pass (p := { p with read := none }) ⟨fun hrunning => ?_,h.exited,h.dead,fun hrunning hended => ?_,nofun,
        h.isOpen,h.unsent⟩ (by rw [hchild]) hsent
      · have hwhole := h.running hrunning
        rw [htaken] at hwhole
        exact hwhole
      · exact h.ended hrunning (.inr (hended.resolve_left nofun))
    · rw [hsends,List.append_nil] at hsent
      rw [← hchild] at hview
      obtain ⟨-,hbody,hopen,hdone,hexited⟩ := ChildProcess.Output.mk.inj hview
      have hzero (hrunning : run.child.pollFired = false) : p.run.child.pollFired = false ∧ res = 0 := by
        have hbefore : p.run.child.pollFired = false := hexited.symm.trans hrunning
        exact ⟨hbefore,hends.resolve_right fun hfired => by rw [hfired] at hbefore; cases hbefore⟩
      have hout : output { p with read := none, run := run } = p.output := by simp only [output,hsent]
      refine ⟨fun hrunning => ?_,fun hfired => ?_,h.dead,fun hrunning _ => ?_,nofun,?_,fun hrunning => ?_⟩
      · obtain ⟨hbefore,rfl⟩ := hzero hrunning
        have hwhole := h.running hbefore
        rw [htaken,Int.toNat_zero,List.take_zero] at hwhole
        rw [hout]
        exact hwhole
      · rw [hout]
        exact h.exited (hexited.symm.trans hfired)
      · obtain ⟨hbefore,rfl⟩ := hzero hrunning
        exact h.ended hbefore (.inl hread)
      · exact hopen.trans (congrArg not hdone).symm
      · exact hbody.trans (h.unsent (hzero hrunning).1)

lemma Flows.handleExit (h : p.Flows) (hrunning : p.run.child.pollFired = false)
    (hclean : p.taken = []) (hstep : p.step (.handleExit pieces stderr) = some t) : t.Flows := by
  rw [step] at hstep
  split at hstep
  · next hexit =>
    obtain ⟨hdead,hpieces,hfits⟩ := hexit
    obtain ⟨run,hrun,rfl⟩ := Option.map_eq_some_iff.mp hstep
    obtain ⟨hchild,hsent⟩ := ChildRun.step_completion hrun
    obtain ⟨hopen,hdone,hfired,hsends⟩ := p.run.child.handleExitPoll_output stderr hfits
    rw [ChildProcess.handleCompletion] at hchild hsent
    rw [← hchild] at hopen hdone hfired
    rw [hsends,h.unsent hrunning,List.nil_append,hpieces] at hsent
    have hpipe : (if p.run.child.stdoutR then p.pipe else []) = p.pipe := by
      cases hstdout : p.run.child.stdoutR with
      | true => rfl
      | false =>
        have hdone : p.run.child.stdoutDone = true := by
          have hisOpen := h.isOpen
          rw [hstdout] at hisOpen
          simpa using hisOpen.symm
        exact (h.ended hrunning (.inr hdone)).1.symm
    have hwhole := h.running hrunning
    rw [hclean,List.nil_append] at hwhole
    have hfalse {P : Prop} (hnot : run.child.pollFired = false) : P := by
      rw [hfired] at hnot
      cases hnot
    refine ⟨hfalse,fun _ => ⟨?_,by simpa using hdead⟩,h.dead,hfalse,h.answers,?_,hfalse⟩
    · simp only [output,hsent,List.flatMap_append,List.flatMap_singleton,hpipe]
      exact hwhole
    · exact hopen.trans (h.isOpen.trans (congrArg not hdone).symm)
  · cases hstep

lemma run_of_step (hstep : p.step e = some t) : t.run = p.run ∨ ∃ e', p.run.step e' = some t.run := by
  have hcomplete {p : PipedChild} {res : ℤ} (h : p.complete res = some t) : t.run = p.run := by
    rw [PipedChild.complete] at h
    split at h
    · obtain rfl := Option.some.inj h
      rfl
    · cases h
  have hpass {p : PipedChild} {e' : ChildEvent} (h : p.pass e' = some t) : ∃ e', p.run.step e' = some t.run := by
    obtain ⟨run,hrun,rfl⟩ := Option.map_eq_some_iff.mp h
    exact ⟨e',hrun⟩
  cases e with
  | writes data =>
    rw [step] at hstep
    split at hstep
    · obtain rfl := Option.some.inj hstep
      exact .inl rfl
    · cases hstep
  | closesStdout | exits | otherWrites data =>
    obtain rfl := Option.some.inj hstep
    exact .inl rfl
  | readTakes n =>
    rw [step] at hstep
    split at hstep
    · obtain ⟨run,hfill,hread⟩ := Option.bind_eq_some_iff.mp hstep
      have hrun : t.run = run := hcomplete hread
      exact .inr ⟨_,hrun ▸ hfill⟩
    · cases hstep
  | readEnds | readAgain | readFails errno =>
    rw [step] at hstep
    split at hstep
    · exact .inl (hcomplete hstep)
    · cases hstep
  | handleRead =>
    rw [step] at hstep
    split at hstep
    · cases hstep
    · exact .inr (hpass (p := { p with read := none }) hstep)
  | handleExit pieces stderr =>
    rw [step] at hstep
    split at hstep
    · obtain ⟨run,hrun,rfl⟩ := Option.map_eq_some_iff.mp hstep
      exact .inr ⟨_,hrun⟩
    · cases hstep
  | handleStdinWrite res | handleStderrRead res | fillStderr data | connectionClosed => exact .inr (hpass hstep)

lemma tracked_step (h : p.run.Tracked) (hstep : p.step e = some t) : t.run.Tracked := by
  rcases run_of_step hstep with hsame | ⟨e',hrun⟩
  · rw [hsame]
    exact h
  · exact h.step hrun

lemma running_of_handleExit (h : p.run.Tracked)
    (hstep : p.step (.handleExit pieces stderr) = some t) : p.run.child.pollFired = false := by
  rw [step] at hstep
  split at hstep
  · obtain ⟨run,hrun,-⟩ := Option.map_eq_some_iff.mp hstep
    exact Bool.eq_false_iff.mpr fun hfired => h.not_exit hfired hrun ⟨pieces,stderr,rfl⟩
  · cases hstep

lemma Flows.step (h : p.Flows) (htracked : p.run.Tracked) (hclean : p.Clean e)
    (hstep : p.step e = some t) : t.Flows := by
  cases e with
  | writes data =>
    rw [PipedChild.step] at hstep
    split at hstep
    · next hwriting =>
      obtain rfl := Option.some.inj hstep
      have hnot (hpipe : p.pipe = [] ∧ p.writing = false) : False := by
        rw [hpipe.2] at hwriting
        cases hwriting
      refine ⟨fun hrunning => ?_,fun hfired => ?_,h.dead,fun hrunning hended => ?_,h.answers,h.isOpen,h.unsent⟩
      · have hwhole := h.running hrunning
        change p.output ++ (p.taken ++ (p.pipe ++ data)) = p.written ++ data
        rw [← hwhole]
        simp only [List.append_assoc]
      · have hdead := h.dead (h.exited hfired).2
        rw [hdead] at hwriting
        cases hwriting
      · exact (hnot (h.ended hrunning hended)).elim
    · cases hstep
  | closesStdout =>
    obtain rfl := Option.some.inj hstep
    exact ⟨h.running,h.exited,fun _ => rfl,fun hrunning hended => ⟨(h.ended hrunning hended).1,rfl⟩,h.answers,h.isOpen,
      h.unsent⟩
  | exits =>
    obtain rfl := Option.some.inj hstep
    exact ⟨h.running,fun hfired => ⟨(h.exited hfired).1,rfl⟩,fun _ => rfl,
      fun hrunning hended => ⟨(h.ended hrunning hended).1,rfl⟩,h.answers,h.isOpen,h.unsent⟩
  | otherWrites data => exact hclean.elim
  | readTakes n => exact h.readTakes hstep
  | readEnds =>
    rw [PipedChild.step] at hstep
    split at hstep
    · next hempty => exact h.complete (Int.le_refl 0) (.inl (Int.le_refl 0)) (fun _ => ⟨hempty.1,by simpa using hempty.2⟩) hstep
    · cases hstep
  | readAgain =>
    rw [PipedChild.step] at hstep
    split at hstep
    · exact h.complete (by decide) (.inr rfl) (fun hzero => absurd hzero (by decide)) hstep
    · cases hstep
  | readFails errno => exact hclean.elim
  | handleRead => exact h.handleRead hstep
  | handleExit pieces stderr =>
    exact h.handleExit (running_of_handleExit htracked hstep) hclean hstep
  | handleStdinWrite res =>
    obtain ⟨run,hrun,rfl⟩ := Option.map_eq_some_iff.mp hstep
    obtain ⟨hchild,hsent⟩ := ChildRun.step_completion hrun
    obtain ⟨hview,hsends⟩ := p.run.child.handleStdinWrite_output res
    exact h.pass (hchild ▸ hview) (hsent.trans (by rw [ChildProcess.handleCompletion,hsends,List.append_nil]))
  | handleStderrRead res =>
    obtain ⟨run,hrun,rfl⟩ := Option.map_eq_some_iff.mp hstep
    obtain ⟨hchild,hsent⟩ := ChildRun.step_completion hrun
    obtain ⟨hview,hsends⟩ := p.run.child.handleStderrRead_output res
    exact h.pass (hchild ▸ hview) (hsent.trans (by rw [ChildProcess.handleCompletion,hsends,List.append_nil]))
  | fillStderr data =>
    obtain ⟨run,hrun,rfl⟩ := Option.map_eq_some_iff.mp hstep
    rw [ChildRun.step] at hrun
    split at hrun
    · obtain rfl := Option.some.inj hrun
      exact h.pass rfl rfl
    · cases hrun
  | connectionClosed =>
    obtain ⟨run,hrun,rfl⟩ := Option.map_eq_some_iff.mp hstep
    rw [ChildRun.step] at hrun
    split at hrun
    · obtain rfl := Option.some.inj hrun
      rw [ChildProcess.handleConnectionClosed]
      split <;> exact h.pass rfl rfl
    · cases hrun

lemma Flows.launch (taskId : String) (stdinBody : List UInt8) : (launch taskId stdinBody).Flows := by
  cases stdinBody with
  | nil => exact ⟨fun _ => rfl,nofun,nofun,nofun,nofun,rfl,fun _ => rfl⟩
  | cons b body => exact ⟨fun _ => rfl,nofun,nofun,nofun,nofun,rfl,fun _ => rfl⟩

/-- In every run in which only the process writes to the pipe, no read of it fails, and no exit is handled while the
asynchronous read has taken data, the results together are what the process has written once the final one is sent. -/
theorem output_complete (taskId : String) (stdinBody : List UInt8) (events : List PipedChildEvent) (p : PipedChild)
    (hrun : runAll step (launch taskId stdinBody) events = some p)
    (hclean : Throughout step Clean (launch taskId stdinBody) events)
    (hfinal : ∃ r ∈ p.run.sent, r.isFinal = true) : p.output = p.written := by
  have hinv : p.run.Tracked ∧ p.Flows := runAll_invariant (I := fun p => p.run.Tracked ∧ p.Flows)
    (fun _ _ _ h hclean hstep => ⟨tracked_step h.1 hstep,h.2.step h.1 hclean hstep⟩)
    ⟨(ChildRun.Tracked.launch taskId stdinBody).1,Flows.launch taskId stdinBody⟩ hclean hrun
  obtain ⟨r,hr,hlast⟩ := hfinal
  refine (hinv.2.exited ?_).1
  by_contra hfired
  have hchunk := hinv.1.chunks (Bool.eq_false_iff.mpr hfired) r hr
  rw [hlast] at hchunk
  cases hchunk

instance (p : PipedChild) (e : PipedChildEvent) : Decidable (p.Clean e) :=
  match e with
  | .otherWrites _ | .readFails _ => instDecidableFalse
  | .handleExit _ _ => inferInstanceAs (Decidable (_ = _))
  | .writes _ | .closesStdout | .exits | .readTakes _ | .readEnds | .readAgain | .handleRead | .handleStdinWrite _
  | .handleStderrRead _ | .fillStderr _ | .connectionClosed => instDecidableTrue

/-- The process writes twice and exits; one part is read before the exit is handled and one is drained. -/
def twoParts : List PipedChildEvent :=
  [.writes [104,105],.readTakes 2,.handleRead,.writes [33,33],.exits,.handleExit [[33,33]] [],.readEnds,.handleRead]

theorem output_complete_twoParts : ∃ p, runAll step (launch "t" []) twoParts = some p ∧
      (p.written = [104,105,33,33] ∧ p.run.sent = [⟨"t",[104,105],false⟩,⟨"t",[33,33],true⟩]) ∧
      p.output = p.written := by
  have hrun : (runAll step (launch "t" []) twoParts).any (fun p => p.written = [104,105,33,33] ∧
      p.run.sent = [⟨"t",[104,105],false⟩,⟨"t",[33,33],true⟩]) = true := by decide +kernel
  obtain ⟨p,hp,hsent⟩ := (Option.any_eq_true _ _).mp hrun
  have hsent := of_decide_eq_true hsent
  refine ⟨p,hp,hsent,output_complete "t" [] twoParts p hp (by decide +kernel) ?_⟩
  rw [hsent.2]
  exact ⟨⟨"t",[33,33],true⟩,by simp,rfl⟩

/-- The asynchronous read takes what the process wrote, and the exit is handled before its completion. -/
def exitFirst : List PipedChildEvent := [.writes [104,105],.readTakes 2,.exits,.handleExit [] [],.handleRead]

theorem output_discarded :
    ∃ p, runAll step (launch "t" []) exitFirst = some p ∧ (∃ r ∈ p.run.sent, r.isFinal = true) ∧
      p.written = [104,105] ∧ p.output = [] ∧ p.taken = [] ∧ p.pipe = [] := by
  have hrun : (runAll step (launch "t" []) exitFirst).any (fun p => (∃ r ∈ p.run.sent, r.isFinal = true) ∧
      p.written = [104,105] ∧ p.output = [] ∧ p.taken = [] ∧ p.pipe = []) = true := by decide +kernel
  obtain ⟨p,hp,hstate⟩ := (Option.any_eq_true _ _).mp hrun
  exact ⟨p,hp,of_decide_eq_true hstate⟩

end PipedChild
end Strij.NodeAgent
