import Strij.OpenWorkflow.Lifecycle
import Strij.OpenWorkflow.Passes

/-! Every `Advance` returns. The loops of the frames are given by rules here, as the source writes them: their
counters go up, and nothing bounds the number of their passes. -/
namespace Strij.OpenWorkflow
open Strij.Wire (TaskStatus)

/-- The calls of `Advance` that return: the frame and the world, the passes of the loops, and the result. -/
abbrev Returning (α : Type) := α → World → ℕ → FrameResult × α × World → Prop

section Nested
variable (setup : Setup) {β κ : Type} (ops : FrameOps β κ) (returns : Returning (SequenceFrame β κ))

namespace ForkFrame

inductive Visits (compete : Bool) :
    List (ForkBranch β κ) → World → ℕ → Pass × List (ForkBranch β κ) × World → Prop
  | done {w} : Visits compete [] w 0 (.through,[],w)
  | resolved {b rest w t r} (hb : b.result.isSome = true) (h : Visits compete rest w t r) :
      Visits compete (b :: rest) w (t+1) (r.1,b :: r.2.1,r.2.2)
  | goesOn {b rest w s x b' t r} (hb : b.result.isSome = false) (hx : returns b.frame w s x)
      (hj : judge compete b x.2.1 x.1 = .inl b') (h : Visits compete rest x.2.2 t r) :
      Visits compete (b :: rest) w (s+t+1) (r.1,b' :: r.2.1,r.2.2)
  | stops {b rest w s x result} (hb : b.result.isSome = false) (hx : returns b.frame w s x)
      (hj : judge compete b x.2.1 x.1 = .inr result) :
      Visits compete (b :: rest) w (s+1) (.stopped result,{ b with frame := x.2.1 } :: rest,x.2.2)

inductive Returns (f : ForkFrame β κ) (w : World) : ℕ → FrameResult × ForkFrame β κ × World → Prop
  | abandoned (h : f.state = .abandoned) : Returns f w 0 (.suspended,f,w)
  | empty (h : f.state ≠ .abandoned) (hb : f.branches.isEmpty = true) : Returns f w 0
      (.completed (.fromBytes setup.engine.lib "[]"),{ f with state := .completed },w)
  | visited {t r} (h : f.state ≠ .abandoned) (hb : f.branches.isEmpty = false)
      (hvisits : Visits returns f.compete f.branches w t r) : Returns f w t (f.conclude setup ops r)

end ForkFrame

namespace ForFrame

inductive Finishes (f : ForFrame β κ) (w : World) : ℕ → Option FrameResult × ForFrame β κ × World → Prop
  | idle (h : f.bodyFrame = none) : Finishes f w 0 (none,f,w)
  | body {body s x} (h : f.bodyFrame = some body) (hx : returns body w s x) :
      Finishes f w s (f.afterBody setup x)

/-- `while (true)`, with `iterations_` at `k`. -/
inductive Loops : ℕ → Returning (ForFrame β κ)
  | result {k f w s r g w'} (h : Finishes setup returns f w s (some r,g,w')) : Loops k f w (s+1) (r,g,w')
  | done {k f w s g w'} (h : Finishes setup returns f w s (none,g,w'))
      (hitem : g.items[g.nextIndex]? = none) :
      Loops k f w (s+1) (.completed g.accumulator,{ g with state := .completed },w')
  | budget {k f w s g w' item} (h : Finishes setup returns f w s (none,g,w'))
      (hitem : g.items[g.nextIndex]? = some item) (hk : k+1 > g.iterationBudget) :
      Loops k f w (s+1) (g.fail (w'.record .budget) g.budgetMessage)
  | again {k f w s g w' item t r} (h : Finishes setup returns f w s (none,g,w'))
      (hitem : g.items[g.nextIndex]? = some item) (hk : ¬ k+1 > g.iterationBudget)
      (hrest : Loops (k+1) (g.beginIteration setup w' item).1 (g.beginIteration setup w' item).2 t r) :
      Loops k f w (s+t+1) r

inductive Returns : Returning (ForFrame β κ)
  | opened {f w r} (h : f.opening setup w = .inl r) : Returns f w 0 r
  | loops {f w g t r} (h : f.opening setup w = .inr g) (hloops : Loops setup returns 0 g w t r) :
      Returns f w t r

/-- So many iterations are begun, each after the one before it has finished. -/
inductive Begins : ℕ → ForFrame β κ → World → ForFrame β κ → World → Prop
  | refl {f w} : Begins 0 f w f w
  | step {k f w s g w' item h v} (hfinishes : Finishes setup returns f w s (none,g,w'))
      (hitem : g.items[g.nextIndex]? = some item)
      (hrest : Begins k (g.beginIteration setup w' item).1 (g.beginIteration setup w' item).2 h v) :
      Begins (k+1) f w h v

/-- How a loop ends that has begun `k` iterations. -/
inductive Ends (f : ForFrame β κ) (w : World) (k : ℕ) : FrameResult × ForFrame β κ × World → Prop
  | result {s r g w'} (h : Finishes setup returns f w s (some r,g,w')) : Ends f w k (r,g,w')
  | done {s g w'} (h : Finishes setup returns f w s (none,g,w')) (hitem : g.items[g.nextIndex]? = none) :
      Ends f w k (.completed g.accumulator,{ g with state := .completed },w')
  | budget {s g w' item} (h : Finishes setup returns f w s (none,g,w')) (hitem : g.items[g.nextIndex]? = some item)
      (hk : k = f.iterationBudget) : Ends f w k (g.fail (w'.record .budget) g.budgetMessage)

end ForFrame

inductive Container.Returns : Returning (Container β κ)
  | sequence {f w t r} (h : returns f w t r) : Returns (.sequence f) w t (r.1,.sequence r.2.1,r.2.2)
  | fork {f w t r} (h : ForkFrame.Returns setup ops returns f w t r) :
      Returns (.fork f) w t (r.1,.fork r.2.1,r.2.2)
  | for_ {f w t r} (h : ForFrame.Returns setup returns f w t r) :
      Returns (.for_ f) w t (r.1,.for_ r.2.1,r.2.2)

/-- The body of a step: a nested frame is advanced, and the other kinds have no loop. -/
inductive SequenceFrame.BodyReturns (step : NamedTask (TaskBody (NamedTask β))) (input : StepDataValue)
    (f : SequenceFrame (TaskBody (NamedTask β)) (Container β κ)) (w : World) :
    ℕ → Option FrameResult × SequenceFrame (TaskBody (NamedTask β)) (Container β κ) × World → Prop
  | leaf (h : step.task.body.isContainer = false) :
      BodyReturns step input f w 0 (runBody setup ops step input f w)
  | nested {c w' s x} (h : step.task.body.isContainer = true) (hc : nestedFor step input f w = some (c,w'))
      (hx : Container.Returns setup ops returns c w' s x) :
      BodyReturns step input f w s (afterContainer setup step f x)

end Nested

namespace SequenceFrame
section Rules
variable (setup : Setup) {β κ : Type} (bodyReturns : NamedTask β → StepDataValue → SequenceFrame β κ →
  World → ℕ → Option FrameResult × SequenceFrame β κ × World → Prop)

inductive StepReturns (f : SequenceFrame β κ) (w : World) (step : NamedTask β) :
    ℕ → Option FrameResult × SequenceFrame β κ × World → Prop
  | settled {o} (h : f.prepare setup w step = .inl o) : StepReturns f w step 0 o
  | body {x s o} (h : f.prepare setup w step = .inr x)
      (hbody : bodyReturns step x.1 (f.taking x.1) x.2 s o) : StepReturns f w step s o

/-- `while (cursor_ < steps_.size())`, with `transitions_` at `k`. -/
inductive Loops : ℕ → Returning (SequenceFrame β κ)
  | stop {k f w r g} (h : f.loopHead = .stop r g) : Loops k f w 0 (r,g,w)
  | budget {k f w step} (h : f.loopHead = .take step) (hk : k+1 > kDefaultSynchronousTransitionBudget) :
      Loops k f w 1 (f.failBudget w step)
  | result {k f w step s r g w'} (h : f.loopHead = .take step)
      (hk : ¬ k+1 > kDefaultSynchronousTransitionBudget)
      (hstep : StepReturns setup bodyReturns f w step s (some r,g,w')) : Loops k f w (s+1) (r,g,w')
  | again {k f w step s g w' t r} (h : f.loopHead = .take step)
      (hk : ¬ k+1 > kDefaultSynchronousTransitionBudget)
      (hstep : StepReturns setup bodyReturns f w step s (none,g,w')) (hrest : Loops (k+1) g w' t r) :
      Loops k f w (s+t+1) r

inductive Returns : Returning (SequenceFrame β κ)
  | pending {f w r} (h : f.pendingResult = some r) : Returns f w 0 (r,{ f with pendingResult := none },w)
  | terminal {f w r} (hpending : f.pendingResult = none) (h : f.terminalResult = some r) :
      Returns f w 0 (r,f,w)
  | loops {f w t r} (hpending : f.pendingResult = none) (hterminal : f.terminalResult = none)
      (h : Loops setup bodyReturns 0 f w t r) : Returns f w t r

/-- So many passes of the loop, none of which returns. -/
inductive Stretch : ℕ → SequenceFrame β κ → World → SequenceFrame β κ → World → Prop
  | refl {f w} : Stretch 0 f w f w
  | step {k f w step s g w' g' w''} (h : f.loopHead = .take step)
      (hstep : StepReturns setup bodyReturns f w step s (none,g,w')) (hrest : Stretch k g w' g' w'') :
      Stretch (k+1) f w g' w''

end Rules
end SequenceFrame

def bodyReturns (setup : Setup) : (n : ℕ) → NamedTask (Body n) → StepDataValue → Frame n → World → ℕ →
    Option FrameResult × Frame n × World → Prop
  | 0 => fun step => step.task.body.elim
  | n+1 => SequenceFrame.BodyReturns setup (frameOps setup n) (SequenceFrame.Returns setup (bodyReturns setup n))

abbrev frameReturns (setup : Setup) (n : ℕ) : Returning (Frame n) :=
  SequenceFrame.Returns setup (bodyReturns setup n)

section Adequacy
variable {setup : Setup} {β κ : Type} {ops : FrameOps β κ} {returns : Returning (SequenceFrame β κ)}

/-- The calls that return are those of this function. -/
structure Computes {α : Type} (advance : α → World → FrameResult × α × World) (returns : Returning α) :
    Prop where
  total : ∀ f w, ∃ t, returns f w t (advance f w)
  only : ∀ {f w t r}, returns f w t r → advance f w = r

variable (hops : Computes ops.advance returns)
include hops

namespace ForkFrame

lemma visits_total (compete : Bool) (branches : List (ForkBranch β κ)) (w : World) :
    ∃ t, Visits returns compete branches w t (advanceBranches ops compete branches w) := by
  induction branches generalizing w with
  | nil => exact ⟨0,.done⟩
  | cons b rest ih =>
    rw [advanceBranches_cons]
    split
    · next hb =>
      obtain ⟨t,ht⟩ := ih w
      exact ⟨_,.resolved hb ht⟩
    next hb =>
    obtain ⟨s,hs⟩ := hops.total b.frame w
    dsimp only
    split
    · next b' hj =>
      obtain ⟨t,ht⟩ := ih (ops.advance b.frame w).2.2
      exact ⟨_,.goesOn (by simpa using hb) hs hj ht⟩
    · next hj => exact ⟨_,.stops (by simpa using hb) hs hj⟩

lemma visits_only {compete : Bool} {branches : List (ForkBranch β κ)} {w : World} {t : ℕ}
    {r : Pass × List (ForkBranch β κ) × World} (h : Visits returns compete branches w t r) :
    advanceBranches ops compete branches w = r := by
  induction h with
  | done => rfl
  | resolved hb _ ih => rw [advanceBranches_cons,if_pos hb,ih]
  | goesOn hb hx hj _ ih =>
    rw [advanceBranches_cons,hb,if_neg Bool.false_ne_true,hops.only hx]
    dsimp only
    rw [hj,ih]
  | stops hb hx hj =>
    rw [advanceBranches_cons,hb,if_neg Bool.false_ne_true,hops.only hx]
    dsimp only
    rw [hj]

lemma advance_computes : Computes (advance setup ops) (Returns setup ops returns) where
  total f w := by
    rw [advance_eq]
    split
    · next h => exact ⟨0,.abandoned h⟩
    next h =>
    split
    · next hb => exact ⟨0,.empty h hb⟩
    · next hb =>
      obtain ⟨t,ht⟩ := visits_total hops f.compete f.branches w
      exact ⟨t,.visited h (by simpa using hb) ht⟩
  only h := by
    rw [advance_eq]
    cases h with
    | abandoned h => rw [if_pos h]
    | empty h hb => rw [if_neg h,if_pos hb]
    | visited h hb hvisits => rw [if_neg h,hb,if_neg Bool.false_ne_true,visits_only hops hvisits]

end ForkFrame

namespace ForFrame
variable {f : ForFrame β κ} {w : World} {o : Option FrameResult × ForFrame β κ × World} {left k : ℕ}

lemma finishes_total (f : ForFrame β κ) (w : World) :
    ∃ s, Finishes setup returns f w s (f.finishIteration setup ops w) := by
  rw [finishIteration_eq]
  split
  · next h => exact ⟨0,.idle h⟩
  · next body h =>
    obtain ⟨s,hs⟩ := hops.total body w
    exact ⟨s,.body h hs⟩

lemma finishes_only {s : ℕ} (h : Finishes setup returns f w s o) : f.finishIteration setup ops w = o := by
  rw [finishIteration_eq]
  cases h with
  | idle h => rw [h]
  | body h hx =>
    rw [h]
    dsimp only
    rw [hops.only hx]

omit hops in
lemma afterBody_iterationBudget (x : FrameResult × SequenceFrame β κ × World) :
    (f.afterBody setup x).2.1.iterationBudget = f.iterationBudget := by
  obtain ⟨result,body,w⟩ := x
  cases result with
  | completed value =>
    simp only [afterBody]
    split <;> rfl
  | _ => rfl

omit hops in
lemma Finishes.iterationBudget {s : ℕ}
    (h : Finishes setup returns f w s o) : o.2.1.iterationBudget = f.iterationBudget := by
  cases h with
  | idle => rfl
  | body _ _ => exact afterBody_iterationBudget _

lemma loops_total (hleft : left+k = f.iterationBudget) :
    ∃ t, Loops setup returns k f w t (advanceLoop setup ops left f w) := by
  induction left generalizing k f w with
  | zero =>
    obtain ⟨s,hs⟩ := finishes_total hops f w
    rw [advanceLoop_eq]
    generalize f.finishIteration setup ops w = o at hs
    have hbudget := hs.iterationBudget
    obtain ⟨_ | r,g,w'⟩ := o
    · dsimp only
      split
      · next hitem => exact ⟨_,.done hs hitem⟩
      · next hitem => exact ⟨_,.budget hs hitem (by simp only at hbudget; omega)⟩
    · exact ⟨_,.result hs⟩
  | succ left ih =>
    obtain ⟨s,hs⟩ := finishes_total hops f w
    rw [advanceLoop_eq]
    generalize f.finishIteration setup ops w = o at hs
    have hbudget := hs.iterationBudget
    obtain ⟨_ | r,g,w'⟩ := o
    · dsimp only
      split
      · next hitem => exact ⟨_,.done hs hitem⟩
      · next item hitem =>
        simp only at hbudget
        obtain ⟨t,ht⟩ := ih (k := k+1) (f := (g.beginIteration setup w' item).1)
          (w := (g.beginIteration setup w' item).2) (by simp only [beginIteration]; omega)
        exact ⟨_,.again hs hitem (by omega) ht⟩
    · exact ⟨_,.result hs⟩

lemma loops_only {t : ℕ} {r : FrameResult × ForFrame β κ × World}
    (h : Loops setup returns k f w t r) (hleft : left+k = f.iterationBudget) :
    advanceLoop setup ops left f w = r := by
  induction h generalizing left with
  | result h => rw [advanceLoop_eq,finishes_only hops h]
  | done h hitem =>
    rw [advanceLoop_eq,finishes_only hops h]
    dsimp only
    rw [hitem]
  | budget h hitem hk =>
    have hbudget := h.iterationBudget
    simp only at hbudget
    obtain rfl : left = 0 := by omega
    rw [advanceLoop_eq,finishes_only hops h]
    dsimp only
    rw [hitem]
  | again h hitem hk _ ih =>
    have hbudget := h.iterationBudget
    simp only at hbudget
    obtain ⟨left,rfl⟩ : ∃ l, left = l+1 := ⟨left-1,by omega⟩
    rw [advanceLoop_eq,finishes_only hops h]
    dsimp only
    rw [hitem]
    exact ih (by simp only [beginIteration]; omega)

lemma advance_computes : Computes (fun f w => f.advance setup ops w) (Returns setup returns) where
  total f w := by
    rw [advance_eq]
    split
    · next h => exact ⟨0,.opened h⟩
    · next g h =>
      obtain ⟨t,ht⟩ := loops_total hops (f := g) (w := w) (k := 0)
        (opening_iterationBudget setup h).symm
      exact ⟨t,.loops h ht⟩
  only h := by
    rw [advance_eq]
    cases h with
    | opened h => rw [h]
    | loops h hloops =>
      rw [h]
      exact loops_only hops hloops (opening_iterationBudget setup h).symm

section
omit hops
variable {g : ForFrame β κ} {v : World} {j t s : ℕ} {r : FrameResult × ForFrame β κ × World}

lemma Loops.begins (h : Loops setup returns k f w t r) (hk : k ≤ f.iterationBudget) :
    ∃ j g v, Begins setup returns j f w g v ∧ Ends setup returns g v (k+j) r ∧ k+j ≤ f.iterationBudget := by
  induction h with
  | result h => exact ⟨0,_,_,.refl,.result h,hk⟩
  | done h hitem => exact ⟨0,_,_,.refl,.done h hitem,hk⟩
  | budget h hitem hover =>
    have hbudget := h.iterationBudget
    simp only at hbudget
    exact ⟨0,_,_,.refl,.budget h hitem (by omega),hk⟩
  | @again k f w s g w' item t r h hitem hunder _ ih =>
    have hbudget := h.iterationBudget
    simp only at hbudget
    obtain ⟨j,g',v,hbegins,hends,hj⟩ := ih (by simp only [beginIteration]; omega)
    simp only [beginIteration] at hj
    refine ⟨j+1,g',v,.step h hitem hbegins,?_,by omega⟩
    rwa [show k+(j+1) = k+1+j by omega]

end

lemma advance_begins (f : ForFrame β κ) (w : World) : f.opening setup w = .inl (f.advance setup ops w) ∨
    ∃ g k h v, f.opening setup w = .inr g ∧ Begins setup returns k g w h v ∧ k ≤ f.iterationBudget ∧
      Ends setup returns h v k (f.advance setup ops w) := by
  obtain ⟨t,ht⟩ := (advance_computes hops).total f w
  cases ht with
  | opened h => exact .inl h
  | @loops _ _ g _ _ hopen hloops =>
    obtain ⟨k,h,v,hbegins,hends,hk⟩ := hloops.begins (Nat.zero_le _)
    rw [Nat.zero_add] at hends hk
    exact .inr ⟨g,k,h,v,hopen,hbegins,hk.trans_eq (opening_iterationBudget setup hopen),hends⟩

end ForFrame

lemma Container.advance_computes :
    Computes (Container.advance setup ops) (Container.Returns setup ops returns) where
  total c w := by
    cases c with
    | sequence f =>
      obtain ⟨t,ht⟩ := hops.total f w
      exact ⟨t,.sequence ht⟩
    | fork f =>
      obtain ⟨t,ht⟩ := (ForkFrame.advance_computes hops).total f w
      exact ⟨t,.fork ht⟩
    | for_ f =>
      obtain ⟨t,ht⟩ := (ForFrame.advance_computes hops).total f w
      exact ⟨t,.for_ ht⟩
  only h := by
    cases h with
    | sequence h => rw [Container.advance,hops.only h]
    | fork h => rw [Container.advance,(ForkFrame.advance_computes hops).only h]
    | for_ h => rw [Container.advance,← (ForFrame.advance_computes hops).only h]

structure SequenceFrame.BodyComputes {β κ : Type} (runBody : RunBodyFn β κ) (bodyReturns : NamedTask β →
    StepDataValue → SequenceFrame β κ → World → ℕ → Option FrameResult × SequenceFrame β κ × World → Prop) :
    Prop where
  total : ∀ step input f w, ∃ t, bodyReturns step input f w t (runBody step input f w)
  only : ∀ {step input f w t o}, bodyReturns step input f w t o → runBody step input f w = o

lemma SequenceFrame.runBody_computes : SequenceFrame.BodyComputes (SequenceFrame.runBody setup ops)
    (SequenceFrame.BodyReturns setup ops returns) where
  total step input f w := by
    rcases runBody_cases setup ops step input f w with ⟨hcontainer,h⟩ | ⟨hleaf,-⟩
    · obtain ⟨⟨c,w'⟩,hc⟩ := nestedFor_isSome step input f w hcontainer
      obtain ⟨t,ht⟩ := (Container.advance_computes hops).total c w'
      rw [h,advanceContainer_eq,hc]
      exact ⟨t,.nested hcontainer hc ht⟩
    · exact ⟨0,.leaf hleaf⟩
  only h := by
    cases h with
    | leaf => rfl
    | @nested c w' s x hcontainer hc hx =>
      rcases runBody_cases setup ops _ _ _ _ with ⟨-,h⟩ | ⟨hleaf,-⟩
      · rw [h,advanceContainer_eq,hc]
        dsimp only
        rw [(Container.advance_computes hops).only hx]
      · cases hcontainer.symm.trans hleaf

end Adequacy

namespace SequenceFrame
section Adequacy
variable {setup : Setup} {β κ : Type} {runBody : RunBodyFn β κ} {bodyReturns : NamedTask β →
  StepDataValue → SequenceFrame β κ → World → ℕ → Option FrameResult × SequenceFrame β κ × World → Prop}
  (hbody : BodyComputes runBody bodyReturns) {f g : SequenceFrame β κ} {w w' : World} {step : NamedTask β}
  {left k : ℕ}
include hbody

lemma step_total (f : SequenceFrame β κ) (w : World) (step : NamedTask β) :
    ∃ s, StepReturns setup bodyReturns f w step s (f.takeStep setup w runBody step) := by
  rw [takeStep_eq]
  split
  · next h => exact ⟨0,.settled h⟩
  · next x h =>
    obtain ⟨s,hs⟩ := hbody.total step x.1 (f.taking x.1) x.2
    exact ⟨s,.body h hs⟩

lemma step_only {s : ℕ} {o : Option FrameResult × SequenceFrame β κ × World}
    (h : StepReturns setup bodyReturns f w step s o) : f.takeStep setup w runBody step = o := by
  rw [takeStep_eq]
  cases h with
  | settled h => rw [h]
  | body h hx =>
    rw [h]
    exact hbody.only hx

lemma loops_total (hleft : left+k = kDefaultSynchronousTransitionBudget) :
    ∃ t, Loops setup bodyReturns k f w t (advanceLoop setup runBody left f w) := by
  induction left generalizing k f w with
  | zero =>
    rw [advanceLoop]
    split
    · next hhead => exact ⟨0,.stop hhead⟩
    · next hhead => exact ⟨1,.budget hhead (by omega)⟩
  | succ left ih =>
    rw [advanceLoop]
    split
    · next hhead => exact ⟨0,.stop hhead⟩
    next step hhead =>
    obtain ⟨s,hs⟩ := step_total hbody f w step
    split <;> rename_i heq <;> rw [heq] at hs
    · exact ⟨_,.result hhead (by omega) hs⟩
    · obtain ⟨t,ht⟩ := ih (k := k+1) (by omega)
      exact ⟨_,.again hhead (by omega) hs ht⟩

lemma loops_only {t : ℕ} {r : FrameResult × SequenceFrame β κ × World}
    (h : Loops setup bodyReturns k f w t r) (hleft : left+k = kDefaultSynchronousTransitionBudget) :
    advanceLoop setup runBody left f w = r := by
  induction h generalizing left with
  | stop hhead => cases left <;> rw [advanceLoop,hhead]
  | budget hhead hk =>
    obtain rfl : left = 0 := by omega
    rw [advanceLoop,hhead]
  | result hhead hk hstep =>
    obtain ⟨left,rfl⟩ : ∃ l, left = l+1 := ⟨left-1,by omega⟩
    rw [advanceLoop,hhead]
    dsimp only
    rw [step_only hbody hstep]
  | again hhead hk hstep _ ih =>
    obtain ⟨left,rfl⟩ : ∃ l, left = l+1 := ⟨left-1,by omega⟩
    rw [advanceLoop,hhead]
    dsimp only
    rw [step_only hbody hstep]
    exact ih (by omega)

lemma advance_computes : Computes (fun f w => f.advance setup w runBody) (Returns setup bodyReturns) where
  total f w := by
    rw [advance]
    split
    · next hpending => exact ⟨0,.pending hpending⟩
    next hpending =>
    split
    · next hterminal => exact ⟨0,.terminal hpending hterminal⟩
    · next hterminal =>
      obtain ⟨t,ht⟩ := loops_total hbody (f := f) (w := w) (k := 0) (Nat.add_zero _)
      exact ⟨t,.loops hpending hterminal ht⟩
  only h := by
    rw [advance]
    cases h with
    | pending hpending => rw [hpending]
    | terminal hpending hterminal => rw [hpending,hterminal]
    | loops hpending hterminal h =>
      rw [hpending,hterminal]
      exact loops_only hbody h (Nat.add_zero _)

omit hbody in
lemma Stretch.loops (h : Stretch setup bodyReturns left f w g w')
    (hleft : left+k = kDefaultSynchronousTransitionBudget) (hhead : g.loopHead = .take step) :
    ∃ t, Loops setup bodyReturns k f w t (g.failBudget w' step) := by
  induction h generalizing k with
  | refl => exact ⟨1,.budget hhead (by omega)⟩
  | step hstep hs _ ih =>
    obtain ⟨t,ht⟩ := ih (k := k+1) (by omega) hhead
    exact ⟨_,.again hstep (by omega) hs ht⟩

lemma advance_of_stretch (hpending : f.pendingResult = none) (hterminal : f.terminalResult = none)
    (h : Stretch setup bodyReturns kDefaultSynchronousTransitionBudget f w g w')
    (hhead : g.loopHead = .take step) : f.advance setup w runBody = g.failBudget w' step := by
  obtain ⟨t,ht⟩ := h.loops (Nat.add_zero _) hhead
  exact (advance_computes hbody).only (.loops hpending hterminal ht)

end Adequacy
end SequenceFrame

theorem frameBody_computes (setup : Setup) (n : ℕ) :
    SequenceFrame.BodyComputes (frameBody setup n) (bodyReturns setup n) := by
  induction n with
  | zero => exact ⟨fun step => step.task.body.elim,fun {step} => step.task.body.elim⟩
  | succ n ih =>
    have hops : Computes (frameOps setup n).advance (frameReturns setup n) := by
      rw [frameOps_advance]
      exact SequenceFrame.advance_computes ih
    exact SequenceFrame.runBody_computes hops

lemma frameOps_computes (setup : Setup) (n : ℕ) :
    Computes (frameOps setup n).advance (frameReturns setup n) := by
  rw [frameOps_advance]
  exact SequenceFrame.advance_computes (frameBody_computes setup n)

/-- Every call of `Advance` returns, on a sequence and on a nested frame of any kind and in any state; and a
sequence that takes as many steps as its budget without returning, and comes to one more, fails at that one. -/
theorem advance_returns (setup : Setup) (n : ℕ) :
    (∀ (f : Frame n) (w : World), ∃ t, frameReturns setup n f w t ((frameOps setup n).advance f w)) ∧
    (∀ (c : Container (Body n) (Contained n)) (w : World), ∃ t, Container.Returns setup (frameOps setup n)
      (frameReturns setup n) c w t (c.advance setup (frameOps setup n) w)) ∧
    ∀ (f g : Frame n) (w w' : World) (step : NamedTask (Body n)),
      f.pendingResult = none → f.terminalResult = none →
      SequenceFrame.Stretch setup (bodyReturns setup n) kDefaultSynchronousTransitionBudget f w g w' →
      g.loopHead = .take step → ((frameOps setup n).advance f w).1 = .failed ⟨.internal,some g.id,step.name,
          "the sequence exceeded its synchronous step budget at step '" ++ step.name ++ "'",false⟩ := by
  refine ⟨(frameOps_computes setup n).total,
    (Container.advance_computes (frameOps_computes setup n)).total,?_⟩
  intro f g w w' step hpending hterminal hstretch hhead
  rw [frameOps_advance]
  dsimp only
  rw [SequenceFrame.advance_of_stretch (frameBody_computes setup n) hpending hterminal hstretch hhead]
  rfl

section Spinning

def spinningStep : NamedTask (Body 1) := ⟨"s",{ then_ := some "s", body := .set ⟨.inr .null⟩ }⟩

def spinning : Document 1 where
  do_ := [spinningStep]

structure SequenceFrame.Spins (f : Frame 1) : Prop where
  steps : f.steps = [spinningStep]
  cursor : f.cursor = 0
  pending : f.pendingResult = none
  waiting : f.waitingChildId = none
  failure : f.failure = none

namespace SequenceFrame.Spins
variable {f : Frame 1}

lemma loopHead (h : f.Spins) : f.loopHead = .take spinningStep := by
  simp [SequenceFrame.loopHead,h.steps,h.cursor,h.pending,h.waiting,h.failure]

lemma step (h : f.Spins) (w : World) : ∃ g w', g.Spins ∧
    StepReturns (miniSetup spinning) (bodyReturns (miniSetup spinning) 1) f w spinningStep 0 (none,g,w') := by
  let v := f.transforming (f.takenUp w spinningStep) spinningStep
  let g : Frame 1 := { f with data := .fromValue miniLib .null, stepInput := none, cursor := 0 }
  have hvalue : evaluateSet (miniSetup spinning).engine v.context f.scope ⟨.inr .null⟩ f.data =
      .ok (.fromValue miniLib .null) := by
    rw [evaluateSet,literalSubject]
    cases f.data.json <;> rfl
  have hjump : resolveFlowDirective (f.steps.map NamedTask.name) (stepThen spinningStep) =
      .ok (.jump 0) := by
    rw [h.steps]
    decide
  have hrun : runBody (miniSetup spinning) (frameOps (miniSetup spinning) 0) spinningStep f.data
      (f.taking f.data) v = (none,g,v) := by
    change advanceSet (miniSetup spinning) (f.taking f.data) v spinningStep ⟨.inr .null⟩ f.data = _
    rw [advanceSet,show (f.taking f.data).scope = f.scope from rfl,hvalue]
    change (applyFlowDirective { f with data := .fromValue miniLib .null, stepInput := none } v spinningStep
      (stepThen spinningStep)) = _
    rw [applyFlowDirective]
    dsimp only
    rw [hjump]
  refine ⟨g,v,⟨h.steps,rfl,h.pending,h.waiting,h.failure⟩,.body (x := (f.data,v)) rfl ?_⟩
  rw [← hrun]
  exact .leaf rfl

lemma stretch (h : f.Spins) (w : World) (k : ℕ) : ∃ g w', g.Spins ∧
    Stretch (miniSetup spinning) (bodyReturns (miniSetup spinning) 1) k f w g w' := by
  induction k generalizing f w with
  | zero => exact ⟨f,w,h,.refl⟩
  | succ k ih =>
    obtain ⟨g,w',hg,hstep⟩ := h.step w
    obtain ⟨g',w'',hg',hrest⟩ := ih hg w'
    exact ⟨g',w'',hg',.step h.loopHead hstep hrest⟩

end SequenceFrame.Spins

/-- The document's root frame spins until its budget is used up. -/
theorem advance_returns_spinning : ∃ origin, ((frameOps (miniSetup spinning) 1).advance
    (WorkflowInterpreter.rootFrame (miniSetup spinning) spinning .null 0) {}).1 = .failed
      ⟨.internal,origin,"s","the sequence exceeded its synchronous step budget at step 's'",false⟩ := by
  obtain ⟨g,w',hg,hstretch⟩ := SequenceFrame.Spins.stretch
    (f := WorkflowInterpreter.rootFrame (miniSetup spinning) spinning .null 0) ⟨rfl,rfl,rfl,rfl,rfl⟩ {}
    kDefaultSynchronousTransitionBudget
  exact ⟨_,(advance_returns (miniSetup spinning) 1).2.2 _ g {} w' spinningStep rfl rfl hstretch hg.loopHead⟩

end Spinning

/-- A `for` has its result before its loop, or begins at most as many iterations in one call as its budget. Then it
ends with what its body returned or with its elements used up, or it has begun as many as its budget and has an
element left, and fails. -/
theorem ForFrame.advance_within_budget (setup : Setup) (n : ℕ) (f : ForFrame (Body n) (Contained n)) (w : World) :
    f.opening setup w = .inl (f.advance setup (frameOps setup n) w) ∨
    ∃ g k h v, f.opening setup w = .inr g ∧ Begins setup (frameReturns setup n) k g w h v ∧ k ≤ f.iterationBudget ∧
      Ends setup (frameReturns setup n) h v k (f.advance setup (frameOps setup n) w) :=
  advance_begins (frameOps_computes setup n) f w

end Strij.OpenWorkflow
