import Strij.OpenWorkflow.Refinement

/-! Nested frames and the direct style: a fork is bound for the array of its branches' values, a loop for
the fold over the elements that are left, and the frames of each level follow the evaluator once those of
the level below do. -/
namespace Strij.OpenWorkflow
open Reference (Result Yield fromStep proceed loop goOn)

section Containers
variable (setup : Setup) (answer : ChildTask → String) (limit : ℕ) {β κ : Type} (P : Plan β κ)
  (log : List Event)

structure FrameOps.Follows (ops : FrameOps β κ) : Prop where
  bounded : ops.Bounded setup
  advance : ∀ f w r, f.BoundFor setup answer P w.log r → w.Queued → w.context = emptyContext →
    Fair answer (ops.advance f w).2.2.log →
      SequenceFrame.Advances setup answer P r (ops.advance f w).1 (ops.advance f w).2.1 (ops.advance f w).2.2
  applyOutcome : ∀ fid id outcome f (w : World) r out, f.BoundFor setup answer P w.log r →
    (∀ v ∈ f.views P.views, v.slot.1 = fid → v.slot.2 = some id) →
    (∀ child, .submit id child ∈ w.log → outcome.status = .ok ∧ outcome.body = answer child) →
    w.context = emptyContext → ops.applyOutcome fid outcome f w = some out →
      out.2 = w ∧ out.1.BoundFor setup answer P w.log r
  idle : ∀ fid outcome f w out, f.Idle → ops.applyOutcome fid outcome f w = some out → f.id = fid

def Plan.tasks : Reference.TasksEval β := fun scope steps data =>
  fromStep setup.engine scope steps P.body limit 0 data

def ForkBranch.BoundFor (b : ForkBranch β κ) (value : StepDataValue) : Prop :=
  value.json.isSome = true ∧ (b.result = some value ∧ b.frame.Idle ∨
    b.result = none ∧ b.frame.BoundFor setup answer P log (.completed value))

structure ForkFrame.BoundFor (f : ForkFrame β κ) (r : Result) : Prop where
  active : f.state = .active
  joins : f.compete = false
  branches : ∃ values, r = .completed (Reference.join setup.engine values) ∧
    List.Forall₂ (ForkBranch.BoundFor setup answer P log) f.branches values

def ForFrame.rest (f : ForFrame β κ) : StepDataValue → Option Result :=
  loop setup.engine (P.tasks setup limit) f.body f.scope (f.items.drop f.nextIndex) f.nextIndex

inductive ForFrame.Stage (f : ForFrame β κ) (r : Result) : Prop
  | start {items : List Value} (hstarted : f.started = false) (hbody : f.bodyFrame = none)
      (hindex : f.nextIndex = 0)
      (hitems : Reference.items setup.engine f.body f.scope f.accumulator = some items)
      (h : loop setup.engine (P.tasks setup limit) f.body f.scope items 0 f.accumulator = some r)
  | between (hstarted : f.started = true) (hbody : f.bodyFrame = none)
      (h : f.rest setup limit P f.accumulator = some r)
  | within (hstarted : f.started = true) {body : SequenceFrame β κ} {node : LexicalScope} {inner : Result}
      (hbody : f.bodyFrame = some body) (hscope : f.iterationScope = some node)
      (hbound : body.BoundFor setup answer P log inner)
      (h : goOn setup.engine (f.rest setup limit P) (node :: f.scope) f.body.while_ inner = some r)

structure ForFrame.BoundFor (f : ForFrame β κ) (r : Result) : Prop where
  active : f.state = .active
  failure : f.failure = none
  names : f.names = Container.loopNames f.body.for_
  stage : f.Stage setup answer limit P log r

def Container.BoundFor (c : Container β κ) (r : Result) : Prop :=
  match c with
  | .sequence f => f.BoundFor setup answer P log r
  | .fork f => f.BoundFor setup answer P log r
  | .for_ f => f.BoundFor setup answer limit P log r

inductive Container.Advances (r : Result) : FrameResult → Container β κ → World → Prop
  | suspended {c : Container β κ} {w : World} (hcontext : w.context = emptyContext)
      (h : c.BoundFor setup answer limit P w.log r)
      (hwaits : ∃ v ∈ c.views P.views, v.slot.2.isSome = true) : Container.Advances r .suspended c w
  | completed {c : Container β κ} {w : World} (hcontext : w.context = emptyContext)
      {value : StepDataValue} (h : r = .completed value) : Container.Advances r (.completed value) c w
  | ended {c : Container β κ} {w : World} (hcontext : w.context = emptyContext)
      {value : StepDataValue} (h : r = .ended value) : Container.Advances r (.ended value) c w

variable {setup answer limit P log} {log' : List Event} {ops : FrameOps β κ} {w : World} {r : Result}

lemma ForkBranch.BoundFor.mono {b : ForkBranch β κ} {value : StepDataValue}
    (h : b.BoundFor setup answer P log value) (hlog : log ⊆ log') : b.BoundFor setup answer P log' value :=
  ⟨h.1,h.2.imp_right fun h => ⟨h.1,h.2.mono hlog⟩⟩

lemma Container.BoundFor.mono {c : Container β κ} (h : c.BoundFor setup answer limit P log r)
    (hlog : log ⊆ log') : c.BoundFor setup answer limit P log' r := by
  cases c with
  | sequence f => exact SequenceFrame.BoundFor.mono h hlog
  | fork f =>
    obtain ⟨hactive,hjoins,values,hr,hbranches⟩ := h
    exact ⟨hactive,hjoins,values,hr,hbranches.imp fun _ _ h => h.mono hlog⟩
  | for_ f =>
    obtain ⟨hactive,hfailure,hnames,hstage⟩ := h
    refine ⟨hactive,hfailure,hnames,?_⟩
    cases hstage with
    | start hstarted hbody hindex hitems h => exact .start hstarted hbody hindex hitems h
    | between hstarted hbody h => exact .between hstarted hbody h
    | within hstarted hbody hscope hbound h => exact .within hstarted hbody hscope (hbound.mono hlog) h


namespace ForkFrame
variable {branches : List (ForkBranch β κ)} {values : List StepDataValue}

variable (hops : ops.Follows setup answer P)
include hops

lemma advanceBranches_bound
    (hb : List.Forall₂ (ForkBranch.BoundFor setup answer P w.log) branches values) (hqueued : w.Queued)
    (hcontext : w.context = emptyContext) (hfair : Fair answer (advanceBranches ops false branches w).2.2.log) :
    ∃ bs w', advanceBranches ops false branches w = (.through,bs,w') ∧ w'.context = emptyContext ∧
      List.Forall₂ (ForkBranch.BoundFor setup answer P w'.log) bs values ∧
      ∀ b ∈ bs, b.result = none → b.frame.Waits P := by
  induction branches generalizing w values with
  | nil =>
    cases hb
    exact ⟨[],w,rfl,hcontext,.nil,by simp⟩
  | cons b branches ih =>
    cases hb with
    | @cons _ value _ values hb hbranches =>
    obtain ⟨hjson,hb⟩ := hb
    rw [advanceBranches] at hfair ⊢
    rcases hb with ⟨hresult,hidle⟩ | ⟨hresult,hbound⟩
    · rw [hresult] at hfair ⊢
      obtain ⟨bs,w',heq,hcontext',hbs,hwaits⟩ := ih hbranches hqueued hcontext hfair
      refine ⟨b :: bs,w',by rw [heq]; rfl,hcontext',.cons ⟨hjson,.inl ⟨hresult,hidle⟩⟩ hbs,?_⟩
      exact List.forall_mem_cons.mpr ⟨by simp [hresult],hwaits⟩
    · rw [hresult,if_neg (by simp)] at hfair ⊢
      have hadvances := hops.advance b.frame w _ hbound hqueued hcontext
      have hacts := hops.bounded.advance b.frame w
      generalize ops.advance b.frame w = out at hadvances hacts hfair ⊢
      obtain ⟨result,f,w₁⟩ := out
      have hrest : List.Forall₂ (ForkBranch.BoundFor setup answer P w₁.log) branches values :=
        hbranches.imp fun _ _ h => h.mono hacts.log_suffix.subset
      have hfair₁ : Fair answer w₁.log := by
        cases result with
        | suspended => exact hfair.of_suffix (advanceBranches_acts hops.bounded false branches w₁).log_suffix
        | completed => exact hfair.of_suffix (advanceBranches_acts hops.bounded false branches w₁).log_suffix
        | ended => exact hfair
        | failed => exact hfair
      cases hadvances hfair₁ with
      | ended _ h => cases h
      | suspended hcontext₁ hbound₁ hwaits₁ =>
        obtain ⟨bs,w',heq,hcontext',hbs,hwaits⟩ := ih hrest (hqueued.acts hacts) hcontext₁ hfair
        have hlog := (advanceBranches_acts hops.bounded false branches w₁).log_suffix.subset
        rw [heq] at hlog
        refine ⟨⟨f,none⟩ :: bs,w',by simp only [heq],hcontext',
          .cons ⟨hjson,.inr ⟨rfl,hbound₁.mono hlog⟩⟩ hbs,?_⟩
        exact List.forall_mem_cons.mpr ⟨fun _ => hwaits₁,hwaits⟩
      | completed hcontext₁ hidle h =>
        cases h
        obtain ⟨bs,w',heq,hcontext',hbs,hwaits⟩ := ih hrest (hqueued.acts hacts) hcontext₁ hfair
        refine ⟨⟨f,some value⟩ :: bs,w',by simp only [heq]; rfl,hcontext',.cons ⟨hjson,.inl ⟨rfl,hidle⟩⟩ hbs,?_⟩
        exact List.forall_mem_cons.mpr ⟨by simp,hwaits⟩

omit hops in
lemma resultTexts_bound (hb : List.Forall₂ (ForkBranch.BoundFor setup answer P log) branches values)
    (hall : ∀ b ∈ branches, b.result.isSome = true) :
    resultTexts branches = .ok (values.map StepDataValue.bytes) := by
  induction hb with
  | nil => rfl
  | @cons b value branches values hb _ ih =>
    obtain ⟨hresult,hall⟩ := List.forall_mem_cons.mp hall
    obtain ⟨hjson,⟨hvalue,-⟩ | ⟨hnone,-⟩⟩ := hb
    · rw [resultTexts,hvalue]
      dsimp only
      rw [if_pos hjson,ih hall]
      rfl
    · simp [hnone] at hresult

lemma advance_bound {f : ForkFrame β κ}
    (h : f.BoundFor setup answer P w.log r) (hqueued : w.Queued) (hcontext : w.context = emptyContext)
    (hfair : Fair answer (f.advance setup ops w).2.2.log) :
    Container.Advances setup answer limit P r (f.advance setup ops w).1 (.fork (f.advance setup ops w).2.1)
      (f.advance setup ops w).2.2 := by
  obtain ⟨hactive,hjoins,values,hr,hb⟩ := h
  have hstate : f.state ≠ .abandoned := by simp [hactive]
  by_cases hempty : f.branches.isEmpty = true
  · rw [advance,if_neg hstate,if_pos hempty]
    rw [List.isEmpty_iff.mp hempty] at hb
    cases hb
    exact .completed hcontext hr
  have hlast := hfair.of_suffix (pass_acts hops.bounded hstate hempty w).log_suffix
  rw [advance,if_neg hstate,if_neg hempty]
  rw [hjoins] at hlast ⊢
  obtain ⟨bs,w',heq,hcontext',hbs,hwaits⟩ := advanceBranches_bound hops hb hqueued hcontext hlast
  rw [heq]
  dsimp only
  by_cases hall : ∀ b ∈ bs, b.result.isSome = true
  · rw [if_neg (by simpa [Option.isSome_iff_ne_none] using hall),joinAllForkResult,resultTexts_bound hbs hall]
    exact .completed hcontext' hr
  · rw [if_pos (by simpa [Option.isSome_iff_ne_none] using hall)]
    push Not at hall
    obtain ⟨b,hmem,hnone⟩ := hall
    obtain ⟨v,hv,hslot⟩ := hwaits b hmem (Option.not_isSome_iff_eq_none.mp hnone)
    refine .suspended hcontext' ⟨hactive,rfl,values,hr,hbs⟩ ⟨v,?_,hslot⟩
    exact List.mem_flatMap.mpr ⟨b,hmem,hv⟩

lemma applyOutcomeIn_bound {fid : FrameId} {id : String}
    {outcome : ChildOutcome} {out : List (ForkBranch β κ) × World}
    (hb : List.Forall₂ (ForkBranch.BoundFor setup answer P w.log) branches values)
    (hslots : ∀ v ∈ branchViews P.views branches, v.slot.1 = fid → v.slot.2 = some id)
    (houtcome : ∀ child, .submit id child ∈ w.log → outcome.status = .ok ∧ outcome.body = answer child)
    (hcontext : w.context = emptyContext) (happly : applyOutcomeIn ops fid outcome branches w = some out) :
    out.2 = w ∧ List.Forall₂ (ForkBranch.BoundFor setup answer P w.log) out.1 values := by
  induction hb generalizing out with
  | nil => cases happly
  | @cons b value branches values hb hbranches ih =>
    have hfirst : ∀ v ∈ b.frame.views P.views, v.slot.1 = fid → v.slot.2 = some id := fun v hv =>
      hslots v (List.mem_append_left _ hv)
    rw [applyOutcomeIn] at happly
    split at happly
    · next r hr =>
      cases happly
      obtain ⟨hjson,⟨hresult,hidle⟩ | ⟨hresult,hbound⟩⟩ := hb
      · have hslot := hfirst b.frame.view List.mem_cons_self (hops.idle _ _ _ _ _ hidle hr)
        simp [SequenceFrame.view,hidle.2] at hslot
      · obtain ⟨hw,hbound'⟩ := hops.applyOutcome fid id outcome _ _ _ _ hbound hfirst houtcome hcontext hr
        exact ⟨hw,.cons ⟨hjson,.inr ⟨hresult,hbound'⟩⟩ hbranches⟩
    · obtain ⟨r,hr,rfl⟩ := Option.map_eq_some_iff.mp happly
      obtain ⟨hw,hrest⟩ := ih (fun v hv => hslots v (List.mem_append_right _ hv)) hr
      exact ⟨hw,.cons hb hrest⟩

end ForkFrame

namespace ForFrame
variable {f : ForFrame β κ}

inductive IterationAdvances (setup : Setup) (answer : ChildTask → String) (limit : ℕ) (P : Plan β κ) (r : Result) :
    Option FrameResult × ForFrame β κ × World → Prop
  | next {f : ForFrame β κ} {w : World} (hcontext : w.context = emptyContext) (hactive : f.state = .active)
      (hfailure : f.failure = none) (hnames : f.names = Container.loopNames f.body.for_)
      (hstarted : f.started = true) (hbody : f.bodyFrame = none)
      (h : f.rest setup limit P f.accumulator = some r) : IterationAdvances setup answer limit P r (none,f,w)
  | stop {result : FrameResult} {f : ForFrame β κ} {w : World}
      (h : Container.Advances setup answer limit P r result (.for_ f) w) :
      IterationAdvances setup answer limit P r (some result,f,w)

lemma finishIteration_world {body : SequenceFrame β κ} (hbody : f.bodyFrame = some body) :
    (f.finishIteration setup ops w).2.2 = (ops.advance body w).2.2 := by
  rw [finishIteration,hbody]
  dsimp only
  generalize ops.advance body w = out
  obtain ⟨result,body',w'⟩ := out
  cases result with
  | completed value =>
    dsimp only
    split <;> rfl
  | _ => rfl

lemma finishIteration_bound (hops : ops.Follows setup answer P) (h : f.BoundFor setup answer limit P w.log r)
    (hstarted : f.started = true) (hqueued : w.Queued) (hcontext : w.context = emptyContext)
    (hfair : Fair answer (f.finishIteration setup ops w).2.2.log) :
    IterationAdvances setup answer limit P r (f.finishIteration setup ops w) := by
  obtain ⟨hactive,hfailure,hnames,hstage⟩ := h
  cases hstage with
  | start hnot => cases hnot.symm.trans hstarted
  | between _ hbody h =>
    rw [finishIteration,hbody]
    exact .next hcontext hactive hfailure hnames hstarted hbody h
  | @within _ body node inner hbody hscope hbound h =>
    rw [finishIteration_world hbody] at hfair
    have hadvances := hops.advance body w inner hbound hqueued hcontext hfair
    rw [finishIteration,hbody]
    dsimp only
    generalize ops.advance body w = out at hadvances ⊢
    obtain ⟨result,body',w'⟩ := out
    cases hadvances with
    | suspended hcontext' hbound' hwaits =>
      exact .stop (.suspended hcontext' ⟨hactive,hfailure,hnames,.within hstarted rfl hscope hbound' h⟩ hwaits)
    | ended hcontext' hinner =>
      subst hinner
      exact .stop (.ended hcontext' (Option.some.inj h).symm)
    | @completed _ _ hcontext' _ value hinner =>
      subst hinner
      have hkeeps : keepsGoing setup ({ f with accumulator := value, bodyFrame := none } : ForFrame β κ) w' =
          evaluateForWhile setup.engine emptyContext (node :: f.scope) f.body.while_ value := by
        rw [keepsGoing,hcontext',hscope]
        rfl
      dsimp only
      rw [hkeeps]
      rw [goOn] at h
      cases hwhile : evaluateForWhile setup.engine emptyContext (node :: f.scope) f.body.while_ value with
      | error message =>
        rw [hwhile] at h
        cases h
      | ok goes =>
        rw [hwhile] at h
        cases goes with
        | false => exact .stop (.completed hcontext' (Option.some.inj h).symm)
        | true => exact .next hcontext' hactive hfailure hnames hstarted rfl h

lemma beginIteration_bound (log : List Event) {item : Value} (hactive : f.state = .active)
    (hfailure : f.failure = none) (hnames : f.names = Container.loopNames f.body.for_)
    (hstarted : f.started = true) (hitem : f.items[f.nextIndex]? = some item)
    (h : f.rest setup limit P f.accumulator = some r) :
    (f.beginIteration setup w item).1.BoundFor setup answer limit P log r := by
  obtain ⟨hlt,hitem⟩ := List.getElem?_eq_some_iff.mp hitem
  rw [rest,List.drop_eq_getElem_cons hlt,hitem,loop] at h
  obtain ⟨inner,hinner,h⟩ := Option.bind_eq_some_iff.mp h
  rw [← hnames] at hinner h
  refine ⟨hactive,hfailure,hnames,.within hstarted rfl rfl (.ready ⟨rfl,rfl,rfl⟩ ⟨rfl,rfl⟩ limit hinner) h⟩

lemma rest_eq_completed (hitem : f.items[f.nextIndex]? = none) (h : f.rest setup limit P f.accumulator = some r) :
    r = .completed f.accumulator := by
  rw [rest,List.drop_eq_nil_of_le (List.getElem?_eq_none_iff.mp hitem)] at h
  exact (Option.some.inj h).symm

lemma advanceLoop_bound (hops : ops.Follows setup answer P) (k : ℕ)
    (h : f.BoundFor setup answer limit P w.log r) (hstarted : f.started = true) (hqueued : w.Queued)
    (hcontext : w.context = emptyContext) (hfair : Fair answer (advanceLoop setup ops k f w).2.2.log) :
    Container.Advances setup answer limit P r (advanceLoop setup ops k f w).1
      (.for_ (advanceLoop setup ops k f w).2.1) (advanceLoop setup ops k f w).2.2 := by
  induction k generalizing f w with
  | zero =>
    rw [advanceLoop] at hfair ⊢
    have hfinish := finishIteration_bound hops h hstarted hqueued hcontext
    generalize f.finishIteration setup ops w = out at hfinish hfair ⊢
    obtain ⟨result,f',w'⟩ := out
    cases result with
    | some result =>
      cases hfinish hfair with
      | stop h => exact h
    | none =>
      dsimp only at hfair ⊢
      cases hitem : f'.items[f'.nextIndex]? with
      | none =>
        rw [hitem] at hfair
        cases hfinish hfair with
        | next hcontext' _ _ _ _ _ h => exact .completed hcontext' (rest_eq_completed hitem h)
      | some item =>
        rw [hitem] at hfair
        exact absurd List.mem_cons_self hfair.budget
  | succ k ih =>
    rw [advanceLoop] at hfair ⊢
    have hfinish := finishIteration_bound hops h hstarted hqueued hcontext
    have hacts := finishIteration_acts hops.bounded f w
    generalize f.finishIteration setup ops w = out at hfinish hacts hfair ⊢
    obtain ⟨result,f',w'⟩ := out
    cases result with
    | some result =>
      cases hfinish hfair with
      | stop h => exact h
    | none =>
      dsimp only at hfair ⊢
      cases hitem : f'.items[f'.nextIndex]? with
      | none =>
        rw [hitem] at hfair
        cases hfinish hfair with
        | next hcontext' _ _ _ _ _ h => exact .completed hcontext' (rest_eq_completed hitem h)
      | some item =>
        rw [hitem] at hfair
        dsimp only at hfair ⊢
        have hbegin : Acts setup w' (f'.beginIteration setup w' item).2 := .single (.frames 1)
        have hrest := advanceLoop_acts hops.bounded k (f'.beginIteration setup w' item).1
          (f'.beginIteration setup w' item).2
        cases hfinish (hfair.of_suffix (Acts.log_suffix (hbegin.trans hrest))) with
        | next hcontext' hactive hfailure hnames hstarted hbody h =>
          exact ih (beginIteration_bound _ hactive hfailure hnames hstarted hitem h) hstarted
            (hqueued.acts (hacts.trans hbegin)) hcontext' hfair

lemma startCollection_eq {items : List Value} (hcontext : w.context = emptyContext)
    (h : Reference.items setup.engine f.body f.scope f.accumulator = some items) :
    f.startCollection setup w = .ok items := by
  rw [startCollection,hcontext]
  rw [Reference.items] at h
  split at h
  · cases h
  next value hvalue =>
  rw [hvalue]
  change collection value = .ok items
  cases hcollection : collection value with
  | error message => simp [hcollection,Except.toOption] at h
  | ok found =>
    rw [hcollection] at h
    exact congrArg Except.ok (Option.some.inj h)

lemma advance_bound (hops : ops.Follows setup answer P) (h : f.BoundFor setup answer limit P w.log r)
    (hqueued : w.Queued) (hcontext : w.context = emptyContext)
    (hfair : Fair answer (f.advance setup ops w).2.2.log) :
    Container.Advances setup answer limit P r (f.advance setup ops w).1 (.for_ (f.advance setup ops w).2.1)
      (f.advance setup ops w).2.2 := by
  obtain ⟨hactive,hfailure,hnames,hstage⟩ := h
  have hgoing : f.started = true → Container.Advances setup answer limit P r (f.advance setup ops w).1
      (.for_ (f.advance setup ops w).2.1) (f.advance setup ops w).2.2 := by
    intro hstarted
    have heq : f.advance setup ops w = advanceLoop setup ops f.iterationBudget f w := by
      simp [advance,hactive,hfailure,hstarted]
    rw [heq] at hfair ⊢
    exact advanceLoop_bound hops _ ⟨hactive,hfailure,hnames,hstage⟩ hstarted hqueued hcontext hfair
  cases hstage with
  | between hstarted => exact hgoing hstarted
  | within hstarted => exact hgoing hstarted
  | @start items hstarted hbody hindex hitems h =>
    let g : ForFrame β κ := { f with started := true, items := items }
    have heq : f.advance setup ops w = advanceLoop setup ops f.iterationBudget g w := by
      simp [advance,hactive,hfailure,hstarted,startCollection_eq hcontext hitems,g]
    rw [heq] at hfair ⊢
    have hrest : g.rest setup limit P g.accumulator = some r := by
      change loop _ _ _ _ (items.drop f.nextIndex) f.nextIndex f.accumulator = some r
      rw [hindex]
      exact h
    exact advanceLoop_bound hops _ ⟨hactive,hfailure,hnames,.between rfl hbody hrest⟩ rfl hqueued hcontext hfair

end ForFrame

namespace Container
variable {c : Container β κ}

lemma advance_bound (hops : ops.Follows setup answer P)
    (h : c.BoundFor setup answer limit P w.log r) (hqueued : w.Queued) (hcontext : w.context = emptyContext)
    (hfair : Fair answer (c.advance setup ops w).2.2.log) :
    Container.Advances setup answer limit P r (c.advance setup ops w).1 (c.advance setup ops w).2.1
      (c.advance setup ops w).2.2 := by
  cases c with
  | fork f => exact ForkFrame.advance_bound hops h hqueued hcontext hfair
  | for_ f => exact ForFrame.advance_bound hops h hqueued hcontext hfair
  | sequence f =>
    have hadvances := hops.advance f w r h hqueued hcontext hfair
    rw [advance]
    generalize ops.advance f w = out at hadvances ⊢
    obtain ⟨result,f',w'⟩ := out
    cases hadvances with
    | suspended hcontext' hbound hwaits => exact .suspended hcontext' hbound hwaits
    | completed hcontext' _ h => exact .completed hcontext' h
    | ended hcontext' h => exact .ended hcontext' h

lemma applyOutcome_bound (hops : ops.Follows setup answer P) {fid : FrameId} {id : String}
    {outcome : ChildOutcome} {out : Container β κ × World} (h : c.BoundFor setup answer limit P w.log r)
    (hslots : ∀ v ∈ c.views P.views, v.slot.1 = fid → v.slot.2 = some id)
    (houtcome : ∀ child, .submit id child ∈ w.log → outcome.status = .ok ∧ outcome.body = answer child)
    (hcontext : w.context = emptyContext) (happly : c.applyOutcome ops fid outcome w = some out) :
    out.2 = w ∧ out.1.BoundFor setup answer limit P w.log r := by
  cases c with
  | sequence f =>
    obtain ⟨out,hout,rfl⟩ := Option.map_eq_some_iff.mp happly
    exact hops.applyOutcome fid id outcome f w r out h hslots houtcome hcontext hout
  | fork f =>
    obtain ⟨out,hout,rfl⟩ := Option.map_eq_some_iff.mp happly
    obtain ⟨hactive,hjoins,values,hr,hb⟩ := h
    obtain ⟨hw,hb'⟩ := ForkFrame.applyOutcomeIn_bound hops hb hslots houtcome hcontext hout
    exact ⟨hw,hactive,hjoins,values,hr,hb'⟩
  | for_ f =>
    obtain ⟨hactive,hfailure,hnames,hstage⟩ := h
    rw [applyOutcome] at happly
    split at happly
    · cases happly
    next body hbody =>
    obtain ⟨out,hout,rfl⟩ := Option.map_eq_some_iff.mp happly
    cases hstage with
    | start _ hnone => cases hnone.symm.trans hbody
    | between _ hnone => cases hnone.symm.trans hbody
    | within hstarted hsome hscope hbound h =>
      cases hsome.symm.trans hbody
      have hviews : ∀ v ∈ body.views P.views, v.slot.1 = fid → v.slot.2 = some id := by
        rw [Container.views,hbody] at hslots
        exact hslots
      obtain ⟨hw,hbound'⟩ := hops.applyOutcome fid id outcome body w _ out hbound hviews houtcome hcontext hout
      exact ⟨hw,hactive,hfailure,hnames,.within hstarted rfl hscope hbound' h⟩

end Container

variable (setup answer limit P) in
def Plan.succ : Plan (TaskBody (NamedTask β)) (Container β κ) where
  body := Reference.stepBody setup.engine answer (P.tasks setup limit)
  nests step := step.task.body.isContainer = true
  bound log c r := c.BoundFor setup answer limit P log r
  views := Container.views P.views
  mono hlog h := h.mono hlog

lemma ForkFrame.branchesFor_bound (log : List Event) (scope : Scope) (budget : ℕ) (input : StepDataValue)
    {tasks : List (NamedTask β)} {values : List StepDataValue} (index : ℕ) (id : FrameId)
    (h : Reference.branches (P.tasks setup limit) scope input tasks = some values) :
    List.Forall₂ (ForkBranch.BoundFor setup answer P log)
      (ForkFrame.branchesFor scope budget input tasks index id) values := by
  induction tasks generalizing values index id with
  | nil =>
    cases h
    exact .nil
  | cons task tasks ih =>
    rw [Reference.branches] at h
    split at h
    · next value hvalue =>
      split at h
      · next hjson =>
        obtain ⟨values,hvalues,rfl⟩ := Option.map_eq_some_iff.mp h
        exact .cons ⟨hjson,.inr ⟨rfl,.ready ⟨rfl,rfl,rfl⟩ ⟨rfl,rfl⟩ limit hvalue⟩⟩ (ih _ _ hvalues)
      · cases h
    · cases h

lemma Container.materialize_bound {step : NamedTask (TaskBody (NamedTask β))} {scope : Scope}
    {input : StepDataValue} {y : Yield} (log : List Event) (name : String) (budget : ℕ) (w : World)
    (hcontainer : step.task.body.isContainer = true)
    (h : Reference.stepBody setup.engine answer (P.tasks setup limit) scope step input = some y) :
    ∃ c w' inner, Container.materialize (κ := κ) name scope budget input w step.task.body = some (c,w') ∧
      c.BoundFor setup answer limit P log inner ∧ y = inner.yield (stepThen step) ∧
      w'.context = w.context := by
  rw [Reference.stepBody] at h
  cases hbody : step.task.body with
  | do_ tasks =>
    rw [hbody] at h
    obtain ⟨inner,hinner,rfl⟩ := Option.map_eq_some_iff.mp h
    exact ⟨_,_,inner,rfl,.ready ⟨rfl,rfl,rfl⟩ ⟨rfl,rfl⟩ limit hinner,rfl,rfl⟩
  | for_ body =>
    rw [hbody] at h
    dsimp only at h
    split at h
    · cases h
    next items hitems =>
    obtain ⟨inner,hinner,rfl⟩ := Option.map_eq_some_iff.mp h
    exact ⟨_,_,inner,rfl,⟨rfl,rfl,rfl,.start rfl rfl rfl hitems hinner⟩,rfl,rfl⟩
  | fork body =>
    rw [hbody] at h
    dsimp only at h
    split at h
    · cases h
    next hcompete =>
    obtain ⟨values,hvalues,rfl⟩ := Option.map_eq_some_iff.mp h
    exact ⟨_,_,.completed (Reference.join setup.engine values),rfl,
      ⟨rfl,by simpa using hcompete,values,rfl,ForkFrame.branchesFor_bound log _ _ _ _ _ hvalues⟩,rfl,rfl⟩
  | _ => simp [hbody,TaskBody.isContainer] at hcontainer

namespace SequenceFrame
variable {f : SequenceFrame (TaskBody (NamedTask β)) (Container β κ)} {step : NamedTask (TaskBody (NamedTask β))}
  {input : StepDataValue}

lemma afterContainer_bound (hf : f.Unbroken) (hwaiting : f.waitingChildId = none) (hup : f.Up setup step input)
    (hinput : f.stepInput = some input) (hcontainer : step.task.body.isContainer = true) {inner : Result}
    {result : FrameResult} {c : Container β κ} (hc : Container.Advances setup answer limit P inner result c w)
    {k : ℕ} (h : proceed setup.engine f.scope f.steps (f.rest setup (P.succ setup answer limit) k) f.cursor step
      input (inner.yield (stepThen step)) = some r) :
    StepAdvances setup answer (P.succ setup answer limit) r (afterContainer setup step f (result,c,w)) := by
  cases hc with
  | suspended hcontext hbound hwaits =>
    obtain ⟨v,hv,hslot⟩ := hwaits
    refine .stop (.suspended hcontext (.nested ⟨hf.active,hf.failure,hf.pending⟩ hwaiting
      ⟨hup.current,hup.condition,hup.input⟩ hcontainer rfl hbound k h) ⟨v,?_,hslot⟩)
    exact List.mem_cons_of_mem _ hv
  | @completed _ _ hcontext value hinner =>
    subst hinner
    let g : SequenceFrame (TaskBody (NamedTask β)) (Container β κ) := { f with child := none }
    have hg : g.Unbroken := ⟨hf.active,hf.failure,hf.pending⟩
    let left : World := w.record (.leave f.id f.cursor f.stepInput)
    have hleft : left.context = emptyContext := hcontext
    obtain ⟨f',heq,hbound,-⟩ := applyCompletedStep_bound answer left.log hg ⟨rfl,hwaiting⟩ hup.current hinput
      hleft h
    rw [afterContainer,heq]
    exact .next hcontext hbound
  | ended hcontext hinner =>
    subst hinner
    exact .stop (.ended hcontext (Option.some.inj h).symm)

lemma advanceContainer_bound (hops : ops.Follows setup answer P) (hf : f.Unbroken)
    (hup : f.Up setup step input) (hinput : f.stepInput = some input)
    (hcontainer : step.task.body.isContainer = true)
    (hdue : Due setup (P.succ setup answer limit) w.log step input f r) (hqueued : w.Queued)
    (hcontext : w.context = emptyContext)
    (hfair : Fair answer (advanceContainer setup ops step input f w).2.2.log) :
    StepAdvances setup answer (P.succ setup answer limit) r (advanceContainer setup ops step input f w) := by
  -- the nested frame is advanced in a world that is further on
  have hadvance : ∀ (c : Container β κ) (w' : World) inner k, Acts setup w w' → w'.context = emptyContext →
      f.waitingChildId = none → c.BoundFor setup answer limit P w'.log inner →
      proceed setup.engine f.scope f.steps (f.rest setup (P.succ setup answer limit) k) f.cursor step input
        (inner.yield (stepThen step)) = some r →
      advanceContainer setup ops step input f w = afterContainer setup step f (c.advance setup ops w') →
      StepAdvances setup answer (P.succ setup answer limit) r (advanceContainer setup ops step input f w) := by
    intro c w' inner k hacts hcontext' hwaiting hc h heq
    rw [heq] at hfair ⊢
    have hafter : Acts setup (c.advance setup ops w').2.2
        (afterContainer setup step f (c.advance setup ops w')).2.2 := afterContainer_acts step f _
    exact afterContainer_bound hf hwaiting hup hinput hcontainer (Container.advance_bound hops hc
      (hqueued.acts hacts) hcontext' (hfair.of_suffix hafter.log_suffix)) h
  cases hdue with
  | again hwaiting _ hchild hc k h =>
    refine hadvance _ (w.record (.advance f.id f.cursor)) _ k (.single (.record rfl)) hcontext hwaiting
      (hc.mono (List.subset_cons_self _ _)) h ?_
    rw [advanceContainer,hchild]
  | fresh hidle hbody k h =>
    obtain ⟨c,w₁,inner,hmaterialize,hc,rfl,hcontext₁⟩ := Container.materialize_bound w.log step.name
      f.forIterationBudget w hcontainer hbody
    let entered : World := (w₁.record (.enter f.id f.cursor input step.task.if_.isSome
      (step.task.input.bind Input.from_).isSome)).record (.advance f.id f.cursor)
    let w' : World := entered.recordIf (Container.misnamesLoop step.task.body) (.defect .loopVariables)
    have hentered : Acts setup w₁ entered := .head (.record rfl) (.single (.record rfl))
    have hacts : Acts setup w w' :=
      ((Container.materialize_acts hmaterialize).trans hentered).trans (recordIf_acts _ _ _ rfl)
    have hcontext' : w'.context = emptyContext := by
      refine (recordIf_context _ _ _).trans ?_
      exact hcontext₁.trans hcontext
    refine hadvance c w' inner k hacts hcontext' hidle.2 (hc.mono (Acts.log_suffix hacts).subset) h ?_
    rw [advanceContainer,hidle.1]
    dsimp only
    rw [hmaterialize]

lemma runBody_bound (hops : ops.Follows setup answer P) :
    BodyFollows setup answer (P.succ setup answer limit) (runBody setup ops) := by
  intro step input f w r hf hup hinput hdue hqueued hcontext hfair
  by_cases hcontainer : step.task.body.isContainer = true
  · have heq : runBody setup ops step input f w = advanceContainer setup ops step input f w := by
      rcases runBody_cases setup ops step input f w with ⟨-,heq⟩ | ⟨hnot,-⟩
      · exact heq
      · cases hnot.symm.trans hcontainer
    rw [heq] at hfair ⊢
    exact advanceContainer_bound hops hf hup hinput hcontainer hdue hqueued hcontext hfair
  · cases hdue with
    | again _ hnests => exact absurd hnests hcontainer
    | @fresh hidle y hbody k h =>
      -- a step that completes at once
      have hcompletes : ∀ raw then_, y = .output raw then_ →
          runBody setup ops step input f w = f.applyCompletedStep setup w step raw then_ →
          StepAdvances setup answer (P.succ setup answer limit) r (runBody setup ops step input f w) := by
        rintro raw then_ rfl heq
        obtain ⟨f',happly,hbound,-⟩ := applyCompletedStep_bound answer w.log hf hidle hup.current hinput
          hcontext h
        rw [heq,happly]
        exact .next hcontext hbound
      change Reference.stepBody setup.engine answer (P.tasks setup limit) f.scope step input = some y at hbody
      rw [Reference.stepBody] at hbody
      cases hkind : step.task.body with
      | call call =>
        rw [hkind] at hbody
        dsimp only at hbody
        split at hbody
        · cases hbody
        next p hproject =>
        cases hbody
        have heq : runBody setup ops step input f w = f.advanceCall setup w step call input := by
          rw [runBody,hkind]
        rw [heq] at hfair ⊢
        exact advanceCall_bound hf hidle hup.current hinput hproject h hqueued hcontext hfair
      | set body =>
        rw [hkind] at hbody
        dsimp only at hbody
        split at hbody
        · cases hbody
        next value hvalue =>
        cases hbody
        refine hcompletes value (stepThen step) rfl ?_
        rw [runBody,hkind]
        dsimp only
        rw [advanceSet,hcontext,hvalue]
      | switch body =>
        rw [hkind] at hbody
        dsimp only at hbody
        split at hbody
        · cases hbody
        next selected hselected =>
        cases hbody
        refine hcompletes input (selected.getD (stepThen step)) rfl ?_
        rw [runBody,hkind]
        dsimp only
        rw [advanceSwitch,hcontext,hselected]
      | do_ _ => simp [hkind,TaskBody.isContainer] at hcontainer
      | for_ _ => simp [hkind,TaskBody.isContainer] at hcontainer
      | fork _ => simp [hkind,TaskBody.isContainer] at hcontainer
      | _ => simp [hkind] at hbody

end SequenceFrame

theorem FrameOps.Follows.succ (hops : ops.Follows setup answer P) (hbounded : (ops.succ setup).Bounded setup) :
    (ops.succ setup).Follows setup answer (P.succ setup answer limit) where
  bounded := hbounded
  advance _ _ _ h hqueued hcontext hfair := SequenceFrame.advance_bound (SequenceFrame.runBody_bound hops)
    (SequenceFrame.runBody_acts hops.bounded) h hqueued hcontext hfair
  applyOutcome _ _ _ _ _ _ _ h hslots houtcome hcontext happly :=
    SequenceFrame.applyOutcomeTo_bound h hslots houtcome hcontext
      (fun _ _ _ hc hviews hout => Container.applyOutcome_bound hops hc hviews houtcome hcontext hout) happly
  idle _ _ _ _ _ hidle happly := SequenceFrame.applyOutcomeTo_idle hidle happly

end Containers

section Levels
variable (setup : Setup) (answer : ChildTask → String) (limit : ℕ)

def Plan.zero : Plan Empty Empty where
  body _ step _ := step.task.body.elim
  nests _ := False
  bound _ c _ := c.elim
  views c := c.elim
  mono {_ _ c _} := c.elim

def plan : (n : ℕ) → Plan (Body n) (Contained n)
  | 0 => Plan.zero
  | n+1 => (plan n).succ setup answer limit

lemma plan_body (n : ℕ) : (plan setup answer limit n).body = Reference.bodies setup.engine answer limit n := by
  induction n with
  | zero => rfl
  | succ n ih =>
    rw [Reference.bodies,← ih]
    rfl

lemma plan_views (n : ℕ) : (plan setup answer limit n).views = Contained.views n := by
  induction n with
  | zero => rfl
  | succ n ih =>
    change Container.views (plan setup answer limit n).views = _
    rw [ih]
    rfl

theorem frameOps_follows (n : ℕ) : (frameOps setup n).Follows setup answer (plan setup answer limit n) := by
  induction n with
  | succ n ih => exact ih.succ (frameOps_bounded setup (n+1))
  | zero => exact {
      bounded := frameOps_bounded setup 0
      advance := fun f w r h hqueued hcontext hfair => SequenceFrame.advance_bound
        (fun step => step.task.body.elim) (fun step => step.task.body.elim) h hqueued hcontext hfair
      applyOutcome := fun fid id outcome f w r out h hslots houtcome hcontext happly =>
        SequenceFrame.applyOutcomeTo_bound h hslots houtcome hcontext (fun c => c.elim) happly
      idle := fun fid outcome f w out hidle happly => SequenceFrame.applyOutcomeTo_idle hidle happly }

end Levels
end Strij.OpenWorkflow
