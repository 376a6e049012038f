import Strij.OpenWorkflow.Transitions

/-! The operations of the frames, cut where they advance a nested frame: what comes before it, and what is
made of its result. -/
namespace Strij.OpenWorkflow

namespace SequenceFrame
section Steps
variable (setup : Setup) {β κ : Type} (f : SequenceFrame β κ) (w : World) (step : NamedTask β)

/-- What a step comes to before its body: a result without it, or the input and the world of the body. -/
def prepare : (Option FrameResult × SequenceFrame β κ × World) ⊕ (StepDataValue × World) :=
  let w := f.takenUp w step
  match evaluateCondition setup.engine w.context f.scope step f.data with
  | .error message => .inl (f.failStep w .internal step.name message)
  | .ok false => .inl (none,{ f with cursor := f.cursor+1 },w.record (.skip f.id f.cursor))
  | .ok true =>
    let w := f.transforming w step
    match transformTaskInput setup.engine w.context f.scope step f.data with
    | .error message => .inl (f.failStep w .internal step.name message)
    | .ok input => .inr (input,w)

def taking (input : StepDataValue) : SequenceFrame β κ := { f with stepInput := some input }

lemma takeStep_eq (runBody : RunBodyFn β κ) :
    f.takeStep setup w runBody step = match f.prepare setup w step with
      | .inl o => o
      | .inr x => runBody step x.1 (f.taking x.1) x.2 := by
  simp only [takeStep,prepare]
  cases evaluateCondition setup.engine (f.takenUp w step).context f.scope step f.data with
  | error message => rfl
  | ok b =>
    cases b with
    | false => rfl
    | true =>
      dsimp only
      cases transformTaskInput setup.engine (f.transforming (f.takenUp w step) step).context f.scope step
        f.data <;> rfl

end Steps

section Containers
variable (setup : Setup) {β κ : Type} (step : NamedTask (TaskBody (NamedTask β))) (input : StepDataValue)
  (f : SequenceFrame (TaskBody (NamedTask β)) (Container β κ)) (w : World)

/-- The nested frame that a container step advances, and the world in which it does. -/
def nestedFor : Option (Container β κ × World) :=
  match f.child with
  | some child => some (child,w.record (.advance f.id f.cursor))
  | none => (Container.materialize step.name f.scope f.forIterationBudget input w step.task.body).map
      fun x => (x.1,((x.2.record (.enter f.id f.cursor input step.task.if_.isSome
        (step.task.input.bind Input.from_).isSome)).record (.advance f.id f.cursor)).recordIf
          (Container.misnamesLoop step.task.body) (.defect .loopVariables))

lemma advanceContainer_eq (ops : FrameOps β κ) :
    advanceContainer setup ops step input f w = match nestedFor step input f w with
      | some x => afterContainer setup step f (x.1.advance setup ops x.2)
      | none => (none,f,w.record (.defect .materializeChild)) := by
  rw [advanceContainer,nestedFor]
  cases f.child with
  | some child => rfl
  | none =>
    dsimp only
    cases Container.materialize (κ := κ) step.name f.scope f.forIterationBudget input w step.task.body with
    | none => rfl
    | some x => rfl

lemma nestedFor_isSome (h : step.task.body.isContainer = true) : ∃ x, nestedFor step input f w = some x := by
  rw [nestedFor]
  cases f.child with
  | some child => exact ⟨_,rfl⟩
  | none =>
    cases hbody : step.task.body <;> rw [hbody] at h <;> first | exact ⟨_,rfl⟩ | cases h

end Containers
end SequenceFrame

namespace ForkFrame
variable (setup : Setup) {β κ : Type} (ops : FrameOps β κ)

/-- What the pass makes of a branch that was advanced: the branch as it goes on, or the result that stops
the fork. -/
def judge (compete : Bool) (b : ForkBranch β κ) (f : SequenceFrame β κ) :
    FrameResult → ForkBranch β κ ⊕ FrameResult
  | .suspended => .inl { b with frame := f }
  | .ended value => .inr (.ended value)
  | .completed value => if compete then .inr (.completed value) else .inl ⟨f,some value⟩
  | .failed failure => .inr (.failed (if failure.composed then failure else composeFailure f failure))

lemma advanceBranches_cons (compete : Bool) (b : ForkBranch β κ) (rest : List (ForkBranch β κ)) (w : World) :
    advanceBranches ops compete (b :: rest) w = if b.result.isSome then
        let r := advanceBranches ops compete rest w
        (r.1,b :: r.2.1,r.2.2)
      else
        let x := ops.advance b.frame w
        match judge compete b x.2.1 x.1 with
        | .inl b' =>
          let r := advanceBranches ops compete rest x.2.2
          (r.1,b' :: r.2.1,r.2.2)
        | .inr result => (.stopped result,{ b with frame := x.2.1 } :: rest,x.2.2) := by
  rw [advanceBranches]
  split
  · rfl
  · obtain ⟨result,f,w'⟩ := ops.advance b.frame w
    cases result with
    | completed value => cases compete <;> rfl
    | _ => rfl

def conclude (f : ForkFrame β κ) :
    Pass × List (ForkBranch β κ) × World → FrameResult × ForkFrame β κ × World
  | (.stopped result,branches,w) => { f with branches := branches }.stop ops result w
  | (.through,branches,w) =>
    if f.compete || !branches.all (fun b => b.result.isSome) then
      (.suspended,{ f with branches := branches },w)
    else match joinAllForkResult setup branches with
      | .error failure => { f with branches := branches }.stop ops (.failed failure) w
      | .ok value => (.completed value,{ f with branches := branches, state := .completed },w)

lemma advance_eq (f : ForkFrame β κ) (w : World) : f.advance setup ops w =
      if f.state = .abandoned then (.suspended,f,w) else if f.branches.isEmpty then
        (.completed (.fromBytes setup.engine.lib "[]"),{ f with state := .completed },w)
      else f.conclude setup ops (advanceBranches ops f.compete f.branches w) := by
  rw [advance]
  split
  · rfl
  split
  · rfl
  · obtain ⟨pass,branches,w'⟩ := advanceBranches ops f.compete f.branches w
    cases pass <;> rfl

end ForkFrame

namespace ForFrame
variable (setup : Setup) {β κ : Type} (ops : FrameOps β κ) (f : ForFrame β κ)

def afterBody : FrameResult × SequenceFrame β κ × World → Option FrameResult × ForFrame β κ × World
  | (.suspended,body,w) => (some .suspended,{ f with bodyFrame := some body },w)
  | (.failed failure,body,w) => (some (.failed failure),
      { f with bodyFrame := some body, failure := some failure, state := .failed },w)
  | (.ended value,_,w) => (some (.ended value),
      { f with bodyFrame := none, iterationScope := none, state := .completed },w)
  | (.completed value,_,w) =>
    let f := { f with accumulator := value, bodyFrame := none }
    match f.keepsGoing setup w with
    | .error message => let r := f.fail w message; (some r.1,r.2)
    | .ok false => (some (.completed f.accumulator),
        { f with iterationScope := none, state := .completed },w)
    | .ok true => (none,{ f with iterationScope := none },w)

lemma finishIteration_eq (w : World) : f.finishIteration setup ops w = match f.bodyFrame with
      | none => (none,f,w)
      | some body => f.afterBody setup (ops.advance body w) := by
  rw [finishIteration]
  cases f.bodyFrame with
  | none => rfl
  | some body =>
    dsimp only
    obtain ⟨result,body',w'⟩ := ops.advance body w
    cases result <;> rfl

lemma advanceLoop_eq (k : ℕ) (w : World) :
    advanceLoop setup ops k f w = match f.finishIteration setup ops w with
      | (some r,f,w) => (r,f,w)
      | (none,f,w) => match f.items[f.nextIndex]? with
        | none => (.completed f.accumulator,{ f with state := .completed },w)
        | some item => match k with
          | 0 => f.fail (w.record .budget) f.budgetMessage
          | k+1 => advanceLoop setup ops k (f.beginIteration setup w item).1 (f.beginIteration setup w item).2 := by
  cases k <;> rfl

def withItems (items : List Value) : ForFrame β κ := { f with started := true, items := items }

/-- What `Advance` finds before its loop: a result, or the frame that enters the loop. -/
def opening (w : World) : (FrameResult × ForFrame β κ × World) ⊕ ForFrame β κ :=
  if f.state = .abandoned then .inl (.suspended,f,w)
  else match f.failure with
    | some failure => .inl (.failed failure,{ f with state := f.state.failActive },w)
    | none =>
      if f.started then .inr f
      else match f.startCollection setup w with
        | .error message => .inl (f.fail w message)
        | .ok items => .inr (f.withItems items)

lemma opening_iterationBudget {f g : ForFrame β κ} {w : World} (h : f.opening setup w = .inr g) :
    g.iterationBudget = f.iterationBudget := by
  rw [opening] at h
  split at h
  · cases h
  split at h
  · cases h
  split at h
  · cases h
    rfl
  split at h <;> cases h
  rfl

lemma advance_eq (w : World) : f.advance setup ops w = match f.opening setup w with
      | .inl r => r
      | .inr g => advanceLoop setup ops f.iterationBudget g w := by
  rw [advance,opening]
  split
  · rfl
  cases hfailure : f.failure with
  | some failure => rfl
  | none =>
    dsimp only
    split
    · rfl
    cases f.startCollection setup w with
    | error message => rfl
    | ok items => simp only [withItems,hfailure]

end ForFrame

def frameBody (setup : Setup) : (n : ℕ) → SequenceFrame.RunBodyFn (Body n) (Contained n)
  | 0 => fun step => step.task.body.elim
  | n+1 => SequenceFrame.runBody setup (frameOps setup n)

lemma frameOps_advance (setup : Setup) (n : ℕ) :
    (frameOps setup n).advance = fun f w => f.advance setup w (frameBody setup n) := by
  cases n <;> rfl

end Strij.OpenWorkflow
