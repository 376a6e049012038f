import Strij.OpenWorkflow.FrameRules

/-! What the frames can do to the world they share: every operation of a frame is a sequence of a few
kinds of acts. -/
namespace Strij.OpenWorkflow
open Relation
variable {setup : Setup}

inductive Act (setup : Setup) : World → World → Prop
  | record {w : World} {e : Event} (h : e.ofFrames = true) : Act setup w (w.record e)
  | context {w : World} (c : Jv) : Act setup w { w with context := c }
  | frames {w : World} (k : ℕ) : Act setup w { w with nextFrame := w.nextFrame+k }
  | ask {w : World} {e : Event} (owner : FrameId)
      (h : e.asksFor = some (some (setup.freshId w.nextChild))) :
      Act setup w ((w.register (setup.freshId w.nextChild) owner).record e)
  | detach {w : World} {e : Event} (h : e.asksFor = some none) : Act setup w (w.record e)
  | forget {w : World} (id : String) : Act setup w (w.forgetChild id)
  | converse {w : World} : Act setup w w.converse.2
  | drop {w : World} (id : String) : Act setup w (w.drop id)

abbrev Acts (setup : Setup) := ReflTransGen (Act setup)

structure FrameOps.Bounded (setup : Setup) {β κ : Type} (ops : FrameOps β κ) : Prop where
  advance : ∀ f w, Acts setup w (ops.advance f w).2.2
  abandon : ∀ f w, Acts setup w (ops.abandon f w).2
  applyOutcome : ∀ id outcome f w r, ops.applyOutcome id outcome f w = some r → Acts setup w r.2

lemma recordIf_acts (setup : Setup) (w : World) (b : Bool) {e : Event} (h : e.ofFrames = true) :
    Acts setup w (w.recordIf b e) := by
  rw [World.recordIf]
  split
  · exact .single (.record h)
  · exact .refl

section Rule
variable {setup : Setup} {w : World}

def Rule.acts (setup : Setup) (w : World) : Rule := ⟨Acts setup w,fun _ => Acts setup w,fun _ => True,True⟩

lemma Rule.acts_lawful : (Rule.acts setup w).Lawful where
  leave h _ := h
  next h := h
  completed h := h
  fail h := h
  context h _ := .tail h (.context _)
  frames h _ := .tail h (.frames _)
  record h he _ := .tail h (.record he)
  honest _ := trivial
  alike _ _ := trivial
  fork _ _ _ h := h
  forget _ _ _ h := .tail h (.forget _)

lemma Rule.acts_allows (names : List String) (T : Terms) : (Rule.acts setup w).Allows setup names T where
  directs _ _ h := .tail h (.record rfl)
  defects _ h := .tail h (.record rfl)
  asks owner he h := by
    have hasked := (ReflTransGen.tail h (.ask owner (T.asksFor he))).tail .converse
    exact ⟨hasked,fun _ _ => .tail hasked (.drop _),fun _ => .tail hasked (.forget _)⟩
  detaches he h := .tail (.tail h (.detach (T.asksFor he))) .converse

lemma Rule.acts_descends {β : Type} : (Rule.acts setup w).Descends setup
    (fun _ : List (NamedTask (TaskBody (NamedTask β))) => True) (fun _ => True) where
  terms _ _ := Rule.acts_allows _ _
  loops _ _ _ h := .tail h (.record rfl)
  nested _ _ _ _ := trivial
  forks _ _ _ := trivial

variable {β κ : Type} {ops : FrameOps β κ}

lemma Rule.acts_passed {α : Type} {good : α → Prop} (hgood : ∀ x, good x) {r : Option FrameResult × α × World}
    (h : Acts setup w r.2.2) : (Rule.acts setup w).Passed good r := by
  obtain ⟨result,x,w'⟩ := r
  refine ⟨?_,hgood x,h⟩
  cases result with
  | none => trivial
  | some result => cases result <;> trivial

lemma SequenceFrame.orderly_acts {good : κ → Prop} (hgood : ∀ c, good c) (f : SequenceFrame β κ) :
    f.Orderly (fun _ => True) (fun _ => True) good :=
  ⟨trivial,fun _ _ => trivial,fun r _ => by cases r <;> trivial,fun c _ => hgood c⟩

lemma ForFrame.orderly_acts {good : SequenceFrame β κ → Prop} (hgood : ∀ f, good f) (f : ForFrame β κ) :
    f.Orderly (fun _ => True) (fun _ => True) good :=
  ⟨trivial,fun _ _ => trivial,fun body _ => hgood body⟩

lemma Container.orderly_acts {good : SequenceFrame β κ → Prop} (hgood : ∀ f, good f) (c : Container β κ) :
    c.Orderly (fun _ => True) True (fun _ => True) good := by
  cases c with
  | sequence f => exact hgood f
  | fork f => exact ⟨trivial,fun b _ => hgood b.frame⟩
  | for_ f => exact f.orderly_acts hgood

lemma FrameOps.Bounded.orderly (h : ops.Bounded setup) :
    ops.Orderly (Rule.acts setup w) (fun _ => True) (fun _ => True) where
  fresh _ _ _ _ _ := trivial
  advance f w _ hw := Rule.acts_passed (fun _ => trivial) (hw.trans (h.advance f w))
  abandon _ f w _ hw := ⟨trivial,hw.trans (h.abandon f w)⟩
  applyOutcome _ _ _ _ _ _ hw hr := ⟨trivial,hw.trans (h.applyOutcome _ _ _ _ _ hr)⟩

end Rule

namespace SequenceFrame
section Steps
variable (setup : Setup) {β κ : Type} (f : SequenceFrame β κ) (w : World) {runBody : RunBodyFn β κ}
  {step : NamedTask β}

def BodyActs (runBody : RunBodyFn β κ) : Prop :=
  ∀ step input f w, step ∈ f.steps → Acts setup w (runBody step input f w).2.2

variable {setup f w} in
lemma Resume.acts {r : SequenceFrame β κ × World} (h : Resume f w r) : Acts setup w r.2 := by
  have hf : f.Orderly (fun _ => True) (fun _ => True) (fun _ => True) := f.orderly_acts fun _ => trivial
  exact (h.orderly Rule.acts_lawful (fun _ _ _ _ _ _ _ h => .tail h (.record rfl)) hf .refl).2

variable (hrun : BodyActs setup runBody)
include hrun

lemma takenUp_acts (hstep : step ∈ f.steps) :
    Acts setup (f.takenUp w step) (f.takeStep setup w runBody step).2.2 := by
  have hinput : Acts setup (f.takenUp w step) (f.transforming (f.takenUp w step) step) :=
    recordIf_acts _ _ _ rfl
  simp only [takeStep]
  split
  · exact .refl
  · exact .single (.record rfl)
  split
  · exact hinput
  · exact hinput.trans (hrun _ _ _ _ hstep)

lemma takeStep_acts (hstep : step ∈ f.steps) : Acts setup w (f.takeStep setup w runBody step).2.2 :=
  .head (.record rfl) ((recordIf_acts _ _ _ rfl).trans (takenUp_acts setup f w hrun hstep))

lemma advanceLoop_acts (k : ℕ) : Acts setup w (advanceLoop setup runBody k f w).2.2 := by
  have hbody : ∀ step input f w', step ∈ f.steps → f.Orderly (fun _ => True) (fun _ => True) (fun _ => True) →
      Acts setup w w' → (Rule.acts setup w).Passed (Orderly (fun _ => True) (fun _ => True) (fun _ => True))
        (runBody step input f w') := fun _ _ _ _ hstep _ hw =>
    Rule.acts_passed (orderly_acts fun _ => trivial) (hw.trans (hrun _ _ _ _ hstep))
  exact (Orderly.advanceLoop Rule.acts_lawful hbody (f.orderly_acts fun _ => trivial) .refl k).world

end Steps
end SequenceFrame

section Containers
variable {setup : Setup} {β κ : Type} {ops : FrameOps β κ} (hops : ops.Bounded setup)
include hops

namespace ForkFrame

lemma advanceBranches_acts (compete : Bool) (branches : List (ForkBranch β κ)) (w : World) :
    Acts setup w (advanceBranches ops compete branches w).2.2 :=
  (advanceBranches_orderly Rule.acts_lawful hops.orderly trivial compete (fun _ _ => trivial) .refl).2.2

lemma abandonBranches_acts (branches : List (ForkBranch β κ)) (w : World) :
    Acts setup w (abandonBranches ops branches w).2 :=
  (abandonBranches_orderly hops.orderly trivial (fun _ _ => trivial) .refl).2

lemma pass_acts {f : ForkFrame β κ} (hstate : f.state ≠ .abandoned) (hbranches : ¬f.branches.isEmpty = true)
    (w : World) : Acts setup (advanceBranches ops f.compete f.branches w).2.2 (f.advance setup ops w).2.2 := by
  rw [advance,if_neg hstate,if_neg hbranches]
  split <;> rename_i heq <;> rw [heq]
  · exact abandonBranches_acts hops _ _
  · split
    · exact .refl
    split
    · exact abandonBranches_acts hops _ _
    · exact .refl

end ForkFrame

namespace ForFrame

lemma finishIteration_acts (f : ForFrame β κ) (w : World) : Acts setup w (f.finishIteration setup ops w).2.2 :=
  ((f.orderly_acts fun _ => trivial).finishIteration Rule.acts_lawful hops.orderly .refl).world

lemma advanceLoop_acts (k : ℕ) (f : ForFrame β κ) (w : World) :
    Acts setup w (advanceLoop setup ops k f w).2.2 :=
  ((f.orderly_acts fun _ => trivial).advanceLoop Rule.acts_lawful hops.orderly .refl k).world

end ForFrame

omit hops in
lemma Container.materialize_acts {name : String} {scope : Scope} {budget : ℕ} {input : StepDataValue}
    {w : World} {body : TaskBody (NamedTask β)} {r : Container β κ × World}
    (h : materialize name scope budget input w body = some r) : Acts setup w r.2 := by
  cases body <;> simp only [materialize,reduceCtorEq,Option.some.injEq] at h <;> subst h
  · exact .single (.frames 1)
  · exact .refl
  · exact .single (.frames _)

namespace SequenceFrame

omit hops in
lemma afterContainer_acts (step : NamedTask (TaskBody (NamedTask β)))
    (f : SequenceFrame (TaskBody (NamedTask β)) (Container β κ))
    (r : FrameResult × Container β κ × World) : Acts setup r.2.2 (afterContainer setup step f r).2.2 := by
  obtain ⟨result,child,w⟩ := r
  cases result with
  | completed value =>
    have hf : ({ f with child := none } : SequenceFrame _ (Container β κ)).Orderly (fun _ => True) (fun _ => True)
      (fun _ => True) := orderly_acts (fun _ => trivial) _
    exact ((applyCompletedStep_finish setup _ _ step value _).orderly Rule.acts_lawful
      (fun _ _ _ h => .tail h (.record rfl)) hf (.single (.record rfl))).2.2
  | _ => exact .refl

lemma runBody_acts : BodyActs setup (runBody setup ops) := fun step input f w hstep =>
  (Orderly.runBody Rule.acts_lawful hops.orderly Rule.acts_descends step input f w hstep
    (f.orderly_acts (Container.orderly_acts fun _ => trivial)) .refl).world

end SequenceFrame
end Containers

lemma Contained.orderly_acts (n : ℕ) (c : Contained n) :
    Contained.Orderly (fun _ _ => True) (fun _ => True) True n c := by
  induction n with
  | zero => trivial
  | succ n ih => exact Container.orderly_acts (SequenceFrame.orderly_acts ih) c

theorem frameOps_bounded (setup : Setup) (n : ℕ) : (frameOps setup n).Bounded setup := by
  have hgood := fun f : Frame n => f.orderly_acts (Contained.orderly_acts n)
  have hops (w : World) : (frameOps setup n).Orderly (Rule.acts setup w) (fun _ => True) _ :=
    @frameOps_orderly (fun _ _ => True) setup _ Rule.acts_lawful (fun _ => Rule.acts_descends) n
  exact {
    advance := fun f w => ((hops w).advance f w (hgood f) .refl).world
    abandon := fun f w => ((hops w).abandon trivial f w (hgood f) .refl).2
    applyOutcome := fun _ _ f w _ h => ((hops w).applyOutcome _ _ f w _ (hgood f) .refl h).2 }

lemma Act.log_suffix {w w' : World} (h : Act setup w w') : w.log <:+ w'.log := by
  cases h with
  | record => exact List.suffix_cons _ _
  | ask => exact List.suffix_cons _ _
  | detach => exact List.suffix_cons _ _
  | converse =>
    refine World.converse_keeps (P := fun w' => w.log <:+ w'.log) (fun _ _ h => h) (fun w' x h => ?_) List.suffix_rfl
    refine h.trans ?_
    rw [World.deliver]
    split <;> exact List.suffix_cons _ _
  | _ => exact List.suffix_rfl

lemma Acts.log_suffix {w w' : World} (h : Acts setup w w') : w.log <:+ w'.log := by
  induction h with
  | refl => exact List.suffix_rfl
  | tail _ hact ih => exact ih.trans hact.log_suffix

section WorkLeft
open WorkflowInterpreter (workLeft)
variable {setup : Setup} {w : World}

lemma keys_insert_length (pending : AList (fun _ : String => ChildOutcome)) (id : String)
    (outcome : ChildOutcome) : (pending.insert id outcome).keys.length ≤ pending.keys.length+1 := by
  rw [AList.keys_insert,List.length_cons]
  exact Nat.succ_le_succ (List.length_erase_le)

lemma deliverAll_workLeft (outcomes : List (String × ChildOutcome)) (w : World) :
    workLeft (outcomes.foldl World.deliver w) ≤ workLeft w+outcomes.length := by
  induction outcomes generalizing w with
  | nil => exact le_rfl
  | cons x outcomes ih =>
    have hx : workLeft (w.deliver x) ≤ workLeft w+1 := by
      rw [World.deliver]
      split
      · have h := keys_insert_length w.pending x.1 x.2
        simp only [workLeft,World.record]
        omega
      · exact Nat.le_succ _
    have h := ih (w.deliver x)
    rw [List.foldl_cons,List.length_cons]
    omega

lemma Act.workLeft {w' : World} (h : Act setup w w') : workLeft w' ≤ workLeft w := by
  cases h with
  | converse =>
    rw [World.converse]
    split
    · exact le_rfl
    next r rest hscript =>
    have h := deliverAll_workLeft r.outcomes { w with script := rest }
    simp only [WorkflowInterpreter.workLeft,hscript,List.map_cons,List.sum_cons] at h ⊢
    omega
  | drop id =>
    simp only [WorkflowInterpreter.workLeft,World.drop,AList.keys_erase]
    exact Nat.add_le_add_right List.length_erase_le _
  | _ => exact le_rfl

lemma Acts.workLeft {w' : World} (h : Acts setup w w') : workLeft w' ≤ workLeft w := by
  induction h with
  | refl => exact le_rfl
  | tail _ h ih => exact h.workLeft.trans ih

end WorkLeft
end Strij.OpenWorkflow
