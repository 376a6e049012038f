import Strij.OpenWorkflow.FrameRuns

/-! The executions of steps. An execution begins when a frame takes up a step that has no nested frame, and ends
when the step is skipped or its nested frame has completed. -/
namespace Strij.OpenWorkflow
variable {log : List Event} {e : Event}

/-- The execution of a step that is under way: what was evaluated, and the seed of the nested frame. -/
structure Execution where
  cursor : ℕ
  ifDone : Bool
  fromDone : Bool
  seed : Option StepDataValue

namespace Event

def frame? : Event → Option FrameId
  | .takeUp frame _ _ _ | .evaluateIf frame _ | .evaluateFrom frame _ | .skip frame _
  | .enter frame _ _ _ _ | .advance frame _ | .leave frame _ _ => some frame
  | _ => none

/-- What an event of the frame makes of its execution. -/
def next (x : Option Execution) : Event → Option Execution
  | .takeUp _ cursor false _ => some ⟨cursor,false,false,none⟩
  | .evaluateIf _ _ => x.map (fun x => { x with ifDone := true })
  | .evaluateFrom _ _ => x.map (fun x => { x with fromDone := true })
  | .enter _ _ seed _ _ => x.map (fun x => { x with seed := some seed })
  | .skip _ _ | .leave _ _ _ => none
  | _ => x

end Event

def executionAfter (frame : FrameId) : List Event → Option Execution
  | [] => none
  | e :: before => if e.frame? = some frame then e.next (executionAfter frame before)
    else executionAfter frame before

/-- What an event may follow. A step is evaluated before it is entered, each expression once; only a
step that was not entered is skipped or replaced by the next; the nested frame is advanced for the step
that was entered, and `output.as` and `export.as` see the input it was seeded with. -/
def Event.Proper (before : List Event) : Event → Prop
  | .takeUp frame _ false _ => ∀ x ∈ executionAfter frame before, x.seed = none
  | .takeUp frame cursor true _ => ∃ x ∈ executionAfter frame before, x.cursor = cursor ∧ x.seed.isSome
  | .evaluateIf frame cursor => ∃ x ∈ executionAfter frame before,
      x.cursor = cursor ∧ x.seed = none ∧ x.ifDone = false
  | .evaluateFrom frame cursor => ∃ x ∈ executionAfter frame before,
      x.cursor = cursor ∧ x.seed = none ∧ x.fromDone = false
  | .skip frame cursor => ∃ x ∈ executionAfter frame before, x.cursor = cursor ∧ x.seed = none
  | .enter frame cursor _ declaresIf declaresFrom => ∃ x ∈ executionAfter frame before,
      x.cursor = cursor ∧ x.seed = none ∧ x.ifDone = declaresIf ∧ x.fromDone = declaresFrom
  | .advance frame cursor => ∃ x ∈ executionAfter frame before, x.cursor = cursor ∧ x.seed.isSome
  | .leave frame cursor input => ∃ x ∈ executionAfter frame before,
      x.cursor = cursor ∧ x.seed.isSome ∧ x.seed = input
  | _ => True

def ProperLog : List Event → Prop
  | [] => True
  | e :: before => e.Proper before ∧ ProperLog before

/-- No step with an `if` or an `input.from` is taken up while its nested frame is live. -/
def TakenUpOnce (log : List Event) : Prop := ∀ frame cursor, .takeUp frame cursor true true ∉ log

def Event.repeats : Event → Bool
  | .takeUp _ _ true true => true
  | _ => false

lemma takenUpOnce_of_all (h : log.all (fun e => !e.repeats) = true) : TakenUpOnce log :=
  fun _ _ hmem => nomatch List.all_eq_true.mp h _ hmem

lemma executionAfter_own {frame : FrameId} (h : e.frame? = some frame) (log : List Event) :
    executionAfter frame (e :: log) = e.next (executionAfter frame log) := by
  rw [executionAfter,if_pos h]

lemma executionAfter_other {frame : FrameId} (h : e.frame? ≠ some frame) (log : List Event) :
    executionAfter frame (e :: log) = executionAfter frame log := by
  rw [executionAfter,if_neg h]

lemma Event.frame?_of_silent (h : e.silent = true) : e.frame? = none := by
  cases e <;> simp_all [Event.silent,Event.frame?]

lemma Event.proper_of_silent (h : e.silent = true) (before : List Event) : e.Proper before := by
  cases e <;> simp_all [Event.silent,Event.Proper]

def FrameView.Marked (v : FrameView) (x : Option Execution) : Prop :=
  match v.nested with
  | none => ∀ y ∈ x, y.seed = none
  | some (cursor,input) => ∃ y ∈ x, y.cursor = cursor ∧ y.seed.isSome ∧ y.seed = input

structure World.Watched (w : World) (l : List FrameView) : Prop where
  proper : ProperLog w.log
  nodup : (l.map (fun v => v.slot.1)).Nodup
  addresses : ∀ v ∈ l, v.slot.1 < w.nextFrame
  unused : ∀ frame, w.nextFrame ≤ frame → executionAfter frame w.log = none
  marks : ∀ v ∈ l, v.Marked (executionAfter v.slot.1 w.log)

namespace World.Watched
variable {w w' : World} {l l' : List FrameView} {v : FrameView}

lemma same (h : w.Watched l) (hlog : w'.log = w.log) (hframe : w'.nextFrame = w.nextFrame) : w'.Watched l :=
  ⟨hlog ▸ h.proper,h.nodup,hframe ▸ h.addresses,by rw [hlog,hframe]; exact h.unused,hlog ▸ h.marks⟩

lemma perm (h : w.Watched l) (hp : l.Perm l') : w.Watched l' :=
  ⟨h.proper,(hp.map _).nodup_iff.mp h.nodup,fun v hv => h.addresses v (hp.mem_iff.mpr hv),h.unused,
    fun v hv => h.marks v (hp.mem_iff.mpr hv)⟩

lemma drop (h : w.Watched (v :: l)) : w.Watched l :=
  ⟨h.proper,h.nodup.of_cons,(List.forall_mem_cons.mp h.addresses).2,h.unused,
    (List.forall_mem_cons.mp h.marks).2⟩

lemma newFrame (h : w.Watched l) :
    ({ w with nextFrame := w.nextFrame+1 } : World).Watched (.free w.nextFrame :: l) where
  proper := h.proper
  nodup := by
    refine List.nodup_cons.mpr ⟨fun hmem => ?_,h.nodup⟩
    obtain ⟨v,hv,heq⟩ := List.mem_map.mp hmem
    exact (h.addresses v hv).ne heq
  addresses := by
    refine List.forall_mem_cons.mpr ⟨Nat.lt_succ_self _,fun v hv => ?_⟩
    exact Nat.lt_succ_of_lt (h.addresses v hv)
  unused frame hframe := h.unused frame (Nat.le_of_succ_le hframe)
  marks := by
    refine List.forall_mem_cons.mpr ⟨?_,h.marks⟩
    change ∀ y ∈ executionAfter w.nextFrame w.log, y.seed = none
    rw [h.unused _ le_rfl]
    simp

lemma silent (hs : Silent w w') (h : w.Watched l) : w'.Watched l := by
  cases hs with
  | same hlog _ hframe => exact h.same hlog hframe
  | @record e he =>
    have hsame : ∀ frame, executionAfter frame (e :: w.log) = executionAfter frame w.log :=
      fun frame => executionAfter_other (by rw [e.frame?_of_silent he]; simp) _
    exact ⟨⟨e.proper_of_silent he _,h.proper⟩,h.nodup,h.addresses,
      fun frame hframe => (hsame frame).trans (h.unused frame hframe),
      fun v hv => by rw [World.record,hsame]; exact h.marks v hv⟩

lemma record {v' : FrameView} {e : Event} (h : w.Watched (v :: l)) (he : e.frame? = some v.slot.1)
    (hproper : e.Proper w.log) (hv : v'.slot.1 = v.slot.1)
    (hmark : v'.Marked (e.next (executionAfter v.slot.1 w.log))) : (w.record e).Watched (v' :: l) where
  proper := ⟨hproper,h.proper⟩
  nodup := by
    have hnodup := h.nodup
    rwa [List.map_cons,← hv] at hnodup
  addresses := by
    have haddresses := List.forall_mem_cons.mp h.addresses
    rw [← hv] at haddresses
    exact List.forall_mem_cons.mpr haddresses
  unused frame hframe := by
    have hne : e.frame? ≠ some frame := by
      rw [he]
      rintro ⟨⟩
      exact absurd (h.addresses v List.mem_cons_self) (Nat.not_lt_of_le hframe)
    exact (executionAfter_other hne _).trans (h.unused frame hframe)
  marks := by
    refine List.forall_mem_cons.mpr ⟨?_,fun u hu => ?_⟩
    · rw [hv]
      change v'.Marked (executionAfter v.slot.1 (e :: w.log))
      rwa [executionAfter_own he]
    · have hne : e.frame? ≠ some u.slot.1 := by
        rw [he]
        intro heq
        have hnodup := h.nodup
        rw [List.map_cons,List.nodup_cons] at hnodup
        exact hnodup.1 (List.mem_map.mpr ⟨u,hu,(Option.some.inj heq).symm⟩)
      change u.Marked (executionAfter u.slot.1 (e :: w.log))
      rw [executionAfter_other hne]
      exact h.marks u (List.mem_cons_of_mem _ hu)

end World.Watched

namespace SequenceFrame
variable {setup : Setup} {β κ : Type} {step : NamedTask β} {f : SequenceFrame β κ} {w : World}
  {l : List FrameView}

/-- The input of a step that evaluates nothing is the frame's data. -/
def Steady (step : NamedTask β) (f : SequenceFrame β κ) : Prop :=
  f.stepInput.isSome = true ∧ (declares step = false → f.stepInput = some f.data)

structure Watching (w : World) (step : NamedTask β) (f : SequenceFrame β κ) (l : List FrameView) :
    Prop where
  watched : w.Watched (f.view :: l)
  steady : f.Steady step
  fresh : f.child = none → executionAfter f.id w.log =
    some ⟨f.cursor,step.task.if_.isSome,(step.task.input.bind Input.from_).isSome,none⟩

variable (hchild : f.child = none)
include hchild

lemma view_nested_none : f.view.nested = none := by
  simp [view,hchild]

lemma marked_of_none {x : Option Execution} (hx : ∀ y ∈ x, y.seed = none) : f.view.Marked x := by
  rw [FrameView.Marked,view_nested_none hchild]
  exact hx

lemma takenUp_fresh (h : w.Watched (f.view :: l)) :
    (f.takenUp w step).Watched (f.view :: l) ∧ executionAfter f.id (f.takenUp w step).log =
      some ⟨f.cursor,step.task.if_.isSome,false,none⟩ := by
  have hmark := h.marks f.view List.mem_cons_self
  rw [FrameView.Marked,view_nested_none hchild] at hmark
  have hbegin : (w.record (.takeUp f.id f.cursor false (declares step))).Watched (f.view :: l) :=
    h.record rfl hmark rfl (marked_of_none hchild (by simp [Event.next]))
  have hexec : executionAfter f.id (w.record (.takeUp f.id f.cursor false (declares step))).log =
      some ⟨f.cursor,false,false,none⟩ := executionAfter_own rfl _
  rw [takenUp,hchild,Option.isSome_none]
  cases step.task.if_ with
  | none => exact ⟨hbegin,hexec⟩
  | some if_ =>
    have hproper : (Event.evaluateIf f.id f.cursor).Proper
        (w.record (.takeUp f.id f.cursor false (declares step))).log := ⟨_,hexec,rfl,rfl,rfl⟩
    refine ⟨hbegin.record rfl hproper rfl (marked_of_none hchild ?_),?_⟩
    · change ∀ y ∈ Event.next (executionAfter f.id _) _, y.seed = none
      rw [hexec]
      simp [Event.next]
    · change executionAfter f.id (Event.evaluateIf f.id f.cursor :: _) = _
      rw [executionAfter_own rfl,hexec]
      rfl

lemma transforming_fresh {done : Bool} (h : w.Watched (f.view :: l))
    (hexec : executionAfter f.id w.log = some ⟨f.cursor,done,false,none⟩) :
    (f.transforming w step).Watched (f.view :: l) ∧ executionAfter f.id (f.transforming w step).log =
      some ⟨f.cursor,done,(step.task.input.bind Input.from_).isSome,none⟩ := by
  rw [transforming]
  cases step.task.input.bind Input.from_ with
  | none => exact ⟨h,hexec⟩
  | some from_ =>
    have hproper : (Event.evaluateFrom f.id f.cursor).Proper w.log := ⟨_,hexec,rfl,rfl,rfl⟩
    refine ⟨h.record rfl hproper rfl (marked_of_none hchild ?_),?_⟩
    · change ∀ y ∈ Event.next (executionAfter f.id _) _, y.seed = none
      rw [hexec]
      simp [Event.next]
    · change executionAfter f.id (Event.evaluateFrom f.id f.cursor :: _) = _
      rw [executionAfter_own rfl,hexec]
      rfl

omit hchild

lemma takenUp_again (hchild : f.child.isSome = true) (hdeclares : declares step = false)
    (h : w.Watched (f.view :: l)) : (f.takenUp w step).Watched (f.view :: l) := by
  have hmark := h.marks f.view List.mem_cons_self
  obtain ⟨c,hc⟩ := Option.isSome_iff_exists.mp hchild
  have hview : f.view.nested = some (f.cursor,f.stepInput) := by simp [view,hc]
  have hif : step.task.if_.isSome = false := (Bool.or_eq_false_iff.mp hdeclares).1
  rw [takenUp,hif,hchild]
  refine h.record rfl ?_ rfl hmark
  rw [FrameView.Marked,hview] at hmark
  obtain ⟨x,hx,hcursor,hseed,-⟩ := hmark
  exact ⟨x,hx,hcursor,hseed⟩

lemma steady_of_input {input : StepDataValue}
    (h : transformTaskInput setup.engine w.context f.scope step f.data = .ok input) :
    ({ f with stepInput := some input } : SequenceFrame β κ).Steady step := by
  refine ⟨rfl,fun hdeclares => ?_⟩
  have hfrom : step.task.input.bind Input.from_ = none :=
    Option.not_isSome_iff_eq_none.mp (by simp [(Bool.or_eq_false_iff.mp hdeclares).2])
  rw [transformTaskInput,hfrom] at h
  cases h
  rfl

end SequenceFrame

namespace SequenceFrame
variable {setup : Setup} {β κ : Type} {step : NamedTask β} {f : SequenceFrame β κ} {w : World}
  {l : List FrameView}

lemma takeUp_watched (hsteady : f.child.isSome = true → f.Steady step) (h : w.Watched (f.view :: l)) :
    ¬ TakenUpOnce (f.takenUp w step).log ∨ ProperLog (f.takenUp w step).log ∧
      (evaluateCondition setup.engine w.context f.scope step f.data = .ok false → f.child = none ∧
        ((f.takenUp w step).record (.skip f.id f.cursor)).Watched (f.view :: l)) ∧
      (evaluateCondition setup.engine w.context f.scope step f.data = .ok true →
        ProperLog (f.transforming (f.takenUp w step) step).log ∧
        ∀ input, transformTaskInput setup.engine w.context f.scope step f.data = .ok input →
          Watching (f.transforming (f.takenUp w step) step) step { f with stepInput := some input } l) := by
  by_cases hchild : f.child = none
  · obtain ⟨htaken,hexec⟩ : (f.takenUp w step).Watched (f.view :: l) ∧ _ := takenUp_fresh hchild h
    obtain ⟨htransformed,hexec'⟩ : (f.transforming (f.takenUp w step) step).Watched (f.view :: l) ∧ _ :=
      transforming_fresh hchild htaken hexec
    refine .inr ⟨htaken.proper,fun _ => ⟨hchild,?_⟩,fun _ => ⟨htransformed.proper,fun input hinput => ?_⟩⟩
    · exact htaken.record rfl ⟨_,hexec,rfl,rfl⟩ rfl (marked_of_none hchild (by simp [Event.next]))
    · have hview : ({ f with stepInput := some input } : SequenceFrame β κ).view = f.view := by
        simp [view,hchild]
      exact ⟨by rwa [hview],steady_of_input hinput,fun _ => hexec'⟩
  have hsome : f.child.isSome = true := Option.isSome_iff_ne_none.mpr hchild
  cases hdeclares : declares step with
  | true =>
    refine .inl fun honce => honce f.id f.cursor ?_
    rw [takenUp,hsome,hdeclares,World.recordIf]
    split
    · exact List.mem_cons_of_mem _ List.mem_cons_self
    · exact List.mem_cons_self
  | false =>
    have htaken := takenUp_again hsome hdeclares h
    obtain ⟨hif,hfrom⟩ := Bool.or_eq_false_iff.mp hdeclares
    rw [transforming,hfrom]
    refine .inr ⟨htaken.proper,fun hskip => ?_,fun _ => ⟨htaken.proper,fun input hinput => ?_⟩⟩
    · rw [Option.isSome_eq_false_iff,Option.isNone_iff_eq_none] at hif
      rw [evaluateCondition,hif] at hskip
      cases hskip
    · have hsteady' := steady_of_input (f := f) hinput
      have hinput' : f.stepInput = some input :=
        ((hsteady hsome).2 hdeclares).trans (hsteady'.2 hdeclares).symm
      have hview : ({ f with stepInput := some input } : SequenceFrame β κ).view = f.view := by
        rw [view,view,hinput']
      exact ⟨by rw [hview]; exact htaken,hsteady',fun hnone => absurd hnone hchild⟩

lemma Watching.enter {input : StepDataValue} (h : Watching w step f l) (c : κ) (hchild : f.child = none)
    (hinput : f.stepInput = some input) : ((w.record (.enter f.id f.cursor input step.task.if_.isSome
      (step.task.input.bind Input.from_).isSome)).record (.advance f.id f.cursor)).Watched
      (({ f with child := some c } : SequenceFrame β κ).view :: l) := by
  have hexec := h.fresh hchild
  have hmark : (({ f with child := some c } : SequenceFrame β κ).view).Marked (some
      ⟨f.cursor,step.task.if_.isSome,(step.task.input.bind Input.from_).isSome,some input⟩) :=
    ⟨_,rfl,rfl,rfl,hinput.symm⟩
  have hentered : (w.record (.enter f.id f.cursor input step.task.if_.isSome
      (step.task.input.bind Input.from_).isSome)).Watched
      (({ f with child := some c } : SequenceFrame β κ).view :: l) := by
    refine h.watched.record rfl ⟨_,hexec,rfl,rfl,rfl,rfl⟩ rfl ?_
    change FrameView.Marked _ (Event.next (executionAfter f.id w.log) _)
    rw [hexec]
    exact hmark
  obtain ⟨x,hx,hcursor,hseed,-⟩ := hentered.marks _ List.mem_cons_self
  exact hentered.record rfl ⟨x,hx,hcursor,hseed⟩ rfl (hentered.marks _ List.mem_cons_self)

lemma live_mark (hchild : f.child.isSome = true) (h : w.Watched (f.view :: l)) :
    ∃ x ∈ executionAfter f.id w.log, x.cursor = f.cursor ∧ x.seed.isSome ∧ x.seed = f.stepInput := by
  obtain ⟨c,hc⟩ := Option.isSome_iff_exists.mp hchild
  have hmark := h.marks _ List.mem_cons_self
  have hview : f.view.nested = some (f.cursor,f.stepInput) := by simp [view,hc]
  rwa [FrameView.Marked,hview] at hmark

end SequenceFrame

def executionAccount (setup : Setup) : Account setup where
  Holds := World.Watched
  Ended w := ProperLog w.log
  Spoiled w := ¬ TakenUpOnce w.log
  plain _ := True
  steady := SequenceFrame.Steady
  Taken := SequenceFrame.Watching
  start h := h.same rfl rfl
  perm h hp := h.perm hp
  drop h := h.drop
  newFrame h := h.newFrame
  view h := ⟨h.proper,h.nodup,List.forall_mem_cons.mpr (List.forall_mem_cons.mp h.addresses),h.unused,
    List.forall_mem_cons.mpr (List.forall_mem_cons.mp h.marks)⟩
  silent hs h := h.silent hs
  ended h := h.proper
  ended_silent hs h := by
    cases hs with
    | record he => exact ⟨Event.proper_of_silent he _,h⟩
    | same hlog => rwa [hlog]
  spoiled hsuffix h := fun honce => h fun frame cursor hmem => honce frame cursor (hsuffix.subset hmem)
  context _ _ h := h.same rfl rfl
  takeUp _ hsteady h := SequenceFrame.takeUp_watched hsteady h
  taken h := h.watched
  enter c h hchild hinput := ⟨h.steady,h.enter c hchild hinput⟩
  again h hchild := by
    obtain ⟨x,hx,hcursor,hseed,-⟩ := SequenceFrame.live_mark hchild h.watched
    exact ⟨h.steady,h.watched.record rfl ⟨x,hx,hcursor,hseed⟩ rfl (h.watched.marks _ List.mem_cons_self)⟩
  leave hchild _ h := h.record rfl (SequenceFrame.live_mark hchild h) rfl
    (by simp [FrameView.Marked,Event.next])
  steady_child _ h := h

namespace WorkflowInterpreter

lemma plain_execution {setup : Setup} {n : ℕ} (tasks : Tasks n) : Plain (executionAccount setup) tasks := by
  induction n with
  | zero => exact fun s _ => s.task.body.elim
  | succ n ih => exact fun s _ => ⟨trivial,ih _⟩

/-- In a run that never takes up a step with a live nested frame and an `if` or an `input.from`, every
container step evaluates each of them once per execution, is not skipped once it was entered, has its
nested frame advanced for itself only, and is left with the input its nested frame was seeded with. -/
theorem executions_proper (setup : Setup) (hfresh : Function.Injective setup.freshId)
    (script : List Reply) (calls : List Call)
    (honce : TakenUpOnce ((create script).run setup calls).world.log) :
    ProperLog ((create script).run setup calls).world.log := by
  have hcreate : Exact (executionAccount setup) (create script) := by
    refine .idle rfl rfl rfl ⟨trivial,List.nodup_nil,?_,fun _ _ => rfl,?_⟩ <;> simp
  have h : Exact (executionAccount setup) ((create script).run setup calls) :=
    hcreate.run hfresh fun _ _ document _ _ => plain_execution document.2.do_
  cases h with
  | spoiled h => exact absurd honce h
  | idle _ _ _ h => exact h.proper
  | ready _ h =>
    obtain ⟨_,_,-,-,h⟩ := h
    exact h.holds.proper
  | ended _ h => exact h

def callInDo : Document 2 where
  do_ := [⟨"d",{ body := .do_ [miniCall "c"] }⟩]

def miniCalls : List Call := [.start "" "",.onChildOutcome "" ⟨"true","",.ok⟩]

lemma callInDo_takenUpOnce : TakenUpOnce ((create []).run (miniSetup callInDo) miniCalls).world.log :=
  takenUpOnce_of_all (by decide +kernel)

theorem executions_proper_callInDo : TakenUpOnce ((create []).run (miniSetup callInDo) miniCalls).world.log ∧
      ProperLog ((create []).run (miniSetup callInDo) miniCalls).world.log :=
  ⟨callInDo_takenUpOnce,
    executions_proper (miniSetup callInDo) (miniSetup_fresh callInDo) [] miniCalls callInDo_takenUpOnce⟩

end WorkflowInterpreter

/-- The event evaluates an expression of a step that was entered already, or skips that step. -/
def Event.isLate (before : List Event) : Event → Bool
  | .evaluateIf frame _ | .evaluateFrom frame _ | .skip frame _ =>
    (executionAfter frame before).any (fun x => x.seed.isSome)
  | _ => false

def lateEvents : List Event → List Event
  | [] => []
  | e :: before => if e.isLate before then e :: lateEvents before else lateEvents before

lemma ProperLog.lateEvents (h : ProperLog log) : lateEvents log = [] := by
  induction log with
  | nil => rfl
  | cons e before ih =>
    obtain ⟨he,hbefore⟩ := h
    have hlate : e.isLate before = false := by
      cases e with
      | evaluateIf frame cursor =>
        obtain ⟨x,hx,-,hseed,-⟩ := he
        simp [Event.isLate,Option.mem_def.mp hx,hseed]
      | evaluateFrom frame cursor =>
        obtain ⟨x,hx,-,hseed,-⟩ := he
        simp [Event.isLate,Option.mem_def.mp hx,hseed]
      | skip frame cursor =>
        obtain ⟨x,hx,-,hseed⟩ := he
        simp [Event.isLate,Option.mem_def.mp hx,hseed]
      | _ => rfl
    rw [OpenWorkflow.lateEvents,hlate]
    exact ih hbefore

def Event.isSkip : Event → Bool
  | .skip _ _ => true
  | _ => false

lemma not_properLog_of_late {b : Bool} {bs : List Bool}
    (h : (lateEvents log).map Event.isSkip = b :: bs) : ¬ ProperLog log := by
  intro hproper
  rw [hproper.lateEvents] at h
  cases h

/-- A `do` that runs while the context is empty; its first step exports, and its second one calls. -/
def exportInDo : Document 2 where
  do_ := [⟨"d",{
    if_ := some "$\x7b $context == \x7b\x7d \x7d"
    body := .do_ [⟨"s",{
      export_ := some ⟨some (.inr (.object [("k",.bool true)]))⟩
      body := .set ⟨.inr .null⟩ }⟩,miniCall "c"] }⟩]

lemma exportInDo_lateEvents : (lateEvents ((WorkflowInterpreter.create []).run (miniSetup exportInDo)
      WorkflowInterpreter.miniCalls).world.log).map Event.isSkip = [true,false] := by
  decide +kernel

/-- The outcome of the call finds the `if` of the entered step evaluated again, and the step skipped. -/
theorem exportInDo_not_proper : (lateEvents ((WorkflowInterpreter.create []).run (miniSetup exportInDo)
      WorkflowInterpreter.miniCalls).world.log).map Event.isSkip = [true,false] ∧
    ¬ ProperLog ((WorkflowInterpreter.create []).run (miniSetup exportInDo)
      WorkflowInterpreter.miniCalls).world.log :=
  ⟨exportInDo_lateEvents,not_properLog_of_late exportInDo_lateEvents⟩

end Strij.OpenWorkflow
