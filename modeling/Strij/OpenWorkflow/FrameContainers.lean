import Strij.OpenWorkflow.FrameSteps

/-! Nested frames: what sequences, forks and loops do to the frames in them, level by level. -/
namespace Strij.OpenWorkflow
open SequenceFrame (Live Kept KeptStep Idle Going Ready Rests BodyKeeps slotsOf)
variable {setup : Setup}

section Containers
variable {setup : Setup} {β κ : Type} (A : Account setup) (L : Level β κ)

structure FrameOps.Exact (ops : FrameOps β κ) : Prop where
  bounded : ops.Bounded setup
  advance : ∀ R f w, Live A L f → A.Agrees w (f.views L.childViews ++ R) →
    Kept A L R (ops.advance f w).1 (ops.advance f w).2.1 (ops.advance f w).2.2
  abandon : ∀ R f w, Live A L f → A.Agrees w (f.views L.childViews ++ R) →
    A.Agrees (ops.abandon f w).2 R
  abandon_ended : ∀ f w, A.Ended w → A.Ended (ops.abandon f w).2
  miss : ∀ fid outcome f w, fid ∉ (slotsOf (f.views L.childViews)).map Prod.fst →
    ops.applyOutcome fid outcome f w = none
  hit : ∀ R fid id outcome f (w : World), Live A L f → A.Agrees w (f.views L.childViews ++ R) →
    (fid,some id) ∈ slotsOf (f.views L.childViews) →
      ∃ r, ops.applyOutcome fid outcome f (w.forgetChild id) = some r ∧ Live A L r.1 ∧
        A.Agrees r.2 (r.1.views L.childViews ++ R)

def ForkFrame.branchViews (childViews : κ → List FrameView) (branches : List (ForkBranch β κ)) :
    List FrameView := branches.flatMap (fun b => b.frame.views childViews)

def ForkBranch.Live (b : ForkBranch β κ) : Prop :=
  SequenceFrame.Live A L b.frame ∧ (b.result.isSome → b.frame.Idle)

structure ForFrame.Live (f : ForFrame β κ) : Prop where
  active : f.state = .active
  failure : f.failure = none
  plain : ∀ s ∈ f.body.do_, A.plain s ∧ L.plain s
  body : ∀ body ∈ f.bodyFrame, SequenceFrame.Live A L body

def ForFrame.views (childViews : κ → List FrameView) (f : ForFrame β κ) : List FrameView :=
  f.bodyFrame.elim [] (fun body => body.views childViews)

def Container.Live : Container β κ → Prop
  | .sequence f => SequenceFrame.Live A L f
  | .fork f => f.state = .active ∧ ∀ b ∈ f.branches, b.Live A L
  | .for_ f => f.Live A L

inductive Container.Kept (R : List FrameView) : FrameResult → Container β κ → World → Prop
  | spoiled {r c w} (h : A.Spoiled w) : Container.Kept R r c w
  | suspended {c w} (hc : c.Live A L) (h : A.Agrees w (c.views L.childViews ++ R)) :
      Container.Kept R .suspended c w
  | completed {v c w} (h : A.Agrees w R) : Container.Kept R (.completed v) c w
  | ended {v c w} (h : A.Ended w) : Container.Kept R (.ended v) c w
  | failed {failure c w} (h : A.Ended w) : Container.Kept R (.failed failure) c w

inductive ForkFrame.PassKept (R : List FrameView) : Pass → List (ForkBranch β κ) → World → Prop
  | spoiled {pass bs w} (h : A.Spoiled w) : PassKept R pass bs w
  | through {bs w} (hb : ∀ b ∈ bs, b.Live A L) (h : A.Agrees w (branchViews L.childViews bs ++ R)) :
      PassKept R .through bs w
  | completed {v bs w} (hb : ∀ b ∈ bs, b.Live A L) (h : A.Agrees w (branchViews L.childViews bs ++ R)) :
      PassKept R (.stopped (.completed v)) bs w
  | ended {v bs w} (h : A.Ended w) : PassKept R (.stopped (.ended v)) bs w
  | failed {failure bs w} (h : A.Ended w) : PassKept R (.stopped (.failed failure)) bs w

def Level.succ : Level (TaskBody (NamedTask β)) (Container β κ) where
  childViews := Container.views L.childViews
  fits step c := step.task.body.isContainer = true ∧ c.Live A L
  plain step := ∀ t ∈ step.task.body.nested, A.plain t ∧ L.plain t

variable {A L} {ops : FrameOps β κ} (hops : ops.Exact A L) {R : List FrameView} {w : World}

lemma SequenceFrame.live_enter (A : Account setup) (L : Level β κ) (f : SequenceFrame β κ)
    (data : StepDataValue) (hplain : ∀ s ∈ f.steps, A.plain s ∧ L.plain s) (hchild : f.child = none)
    (hwaiting : f.waitingChildId = none) : Live A L (f.enter data) ∧ (f.enter data).Idle :=
  ⟨⟨hplain,Idle.nesting ⟨hchild,hwaiting⟩,fun _ => .inl rfl⟩,hchild,hwaiting⟩

lemma SequenceFrame.Idle.giveUp {f : SequenceFrame β κ} (hidle : f.Idle)
    (h : A.Agrees w (f.views L.childViews ++ R)) : A.Agrees w R := by
  rw [hidle.views] at h
  exact h.drop rfl

include hops

namespace ForkFrame
variable {branches : List (ForkBranch β κ)} {f : ForkFrame β κ} {fid : FrameId}

omit hops in
lemma PassKept.cons {pass : Pass} {b : ForkBranch β κ} (hb : b.Live A L)
    (h : PassKept A L (b.frame.views L.childViews ++ R) pass branches w) :
    PassKept A L R pass (b :: branches) w := by
  have hviews : ∀ {w : World},
      A.Agrees w (branchViews L.childViews branches ++ (b.frame.views L.childViews ++ R)) →
        A.Agrees w (branchViews L.childViews (b :: branches) ++ R) := by
    intro w h
    rw [branchViews,List.flatMap_cons,List.append_assoc]
    exact h.swap
  cases h with
  | spoiled h => exact .spoiled h
  | through hrest h => exact .through (List.forall_mem_cons.mpr ⟨hb,hrest⟩) (hviews h)
  | completed hrest h => exact .completed (List.forall_mem_cons.mpr ⟨hb,hrest⟩) (hviews h)
  | ended h => exact .ended h
  | failed h => exact .failed h

lemma PassKept.of_spoiled (h : A.Spoiled w) (compete : Bool) (b : ForkBranch β κ)
    (branches : List (ForkBranch β κ)) : PassKept A L R (advanceBranches ops compete branches w).1
      (b :: (advanceBranches ops compete branches w).2.1) (advanceBranches ops compete branches w).2.2 :=
  .spoiled (Account.spoiled_acts h (advanceBranches_acts hops.bounded compete branches w))

lemma advanceBranches_kept (compete : Bool) (hb : ∀ b ∈ branches, b.Live A L)
    (h : A.Agrees w (branchViews L.childViews branches ++ R)) :
    PassKept A L R (advanceBranches ops compete branches w).1
      (advanceBranches ops compete branches w).2.1 (advanceBranches ops compete branches w).2.2 := by
  induction branches generalizing w R with
  | nil => exact .through (by simp [advanceBranches]) h
  | cons b rest ih =>
    obtain ⟨hb,hrest⟩ := List.forall_mem_cons.mp hb
    rw [branchViews,List.flatMap_cons,List.append_assoc] at h
    have hadvance := hops.advance _ b.frame w hb.1 h
    rw [advanceBranches]
    split
    · exact .cons hb (ih hrest h.swap)
    next hresult =>
    split <;> rename_i heq <;> rw [heq] at hadvance
    · cases hadvance with
      | spoiled h => exact .of_spoiled hops h compete _ rest
      | suspended hlive h => exact .cons ⟨hlive,fun h => absurd h hresult⟩ (ih hrest h.swap)
    · cases hadvance with
      | spoiled h => exact .spoiled h
      | ended h => exact .ended h
    · cases hadvance with
      | spoiled h =>
        split
        · exact .spoiled h
        · exact .of_spoiled hops h compete _ rest
      | completed hlive hidle h =>
        split
        · exact .cons ⟨hlive,fun _ => hidle⟩ (.completed hrest h.swap)
        · exact .cons ⟨hlive,fun _ => hidle⟩ (ih hrest h.swap)
    · cases hadvance with
      | spoiled h => exact .spoiled h
      | failed h => exact .failed h

lemma abandonBranches_agrees (hb : ∀ b ∈ branches, b.Live A L)
    (h : A.Agrees w (branchViews L.childViews branches ++ R)) :
    A.Agrees (abandonBranches ops branches w).2 R := by
  induction branches generalizing w with
  | nil => exact h
  | cons b rest ih =>
    obtain ⟨hb,hrest⟩ := List.forall_mem_cons.mp hb
    rw [branchViews,List.flatMap_cons,List.append_assoc] at h
    exact ih hrest (hops.abandon _ b.frame w hb.1 h)

lemma abandonBranches_ended (branches : List (ForkBranch β κ)) (h : A.Ended w) :
    A.Ended (abandonBranches ops branches w).2 := by
  induction branches generalizing w with
  | nil => exact h
  | cons b rest ih => exact ih (hops.abandon_ended b.frame w h)

omit hops in
lemma branchViews_free (hb : ∀ b ∈ branches, b.Live A L)
    (hall : branches.all (fun b => b.result.isSome) = true) :
    ∀ x ∈ branchViews L.childViews branches, x.slot.2 = none := by
  intro x hx
  obtain ⟨b,hmem,hx⟩ := List.mem_flatMap.mp hx
  have hidle := (hb b hmem).2 (List.all_eq_true.mp hall b hmem)
  rw [hidle.views,List.mem_singleton] at hx
  rw [hx]
  rfl

lemma stop_kept {result : FrameResult} (h : PassKept A L R (.stopped result) f.branches w) :
    Container.Kept A L R (f.stop ops result w).1 (.fork (f.stop ops result w).2.1)
      (f.stop ops result w).2.2 := by
  cases h with
  | spoiled h => exact .spoiled (Account.spoiled_acts h (abandonBranches_acts hops.bounded _ w))
  | completed hb h => exact .completed (abandonBranches_agrees hops hb h)
  | ended h => exact .ended (abandonBranches_ended hops _ h)
  | failed h => exact .failed (abandonBranches_ended hops _ h)

lemma advance_kept (hactive : f.state = .active)
    (hb : ∀ b ∈ f.branches, b.Live A L) (h : A.Agrees w (branchViews L.childViews f.branches ++ R)) :
    Container.Kept A L R (f.advance setup ops w).1 (.fork (f.advance setup ops w).2.1)
      (f.advance setup ops w).2.2 := by
  have hpass := advanceBranches_kept hops f.compete hb h
  rw [advance,if_neg (by simp [hactive])]
  split
  · next hempty =>
    rw [List.isEmpty_iff.mp hempty] at h
    exact .completed h
  split <;> rename_i heq <;> rw [heq] at hpass
  · exact stop_kept hops (f := { f with branches := _ }) hpass
  cases hpass with
  | spoiled h =>
    split
    · exact .spoiled h
    split
    · exact .spoiled (Account.spoiled_acts h (abandonBranches_acts hops.bounded _ _))
    · exact .spoiled h
  | through hb h =>
    split
    · exact .suspended ⟨hactive,hb⟩ h
    next hall =>
    simp only [Bool.or_eq_true,Bool.not_eq_true',not_or,Bool.not_eq_false] at hall
    split
    · exact .failed (abandonBranches_ended hops _ h.ended)
    · exact .completed (h.dropAll (branchViews_free hb hall.2))

lemma applyOutcomeIn_miss {outcome : ChildOutcome}
    (hfid : fid ∉ (slotsOf (branchViews L.childViews branches)).map Prod.fst) :
    applyOutcomeIn ops fid outcome branches w = none := by
  induction branches with
  | nil => rfl
  | cons b rest ih =>
    rw [branchViews,List.flatMap_cons,slotsOf,List.map_append,List.map_append,List.mem_append,
      not_or] at hfid
    rw [applyOutcomeIn,hops.miss fid outcome b.frame w hfid.1,ih hfid.2]
    rfl

lemma applyOutcomeIn_hit {id : String} (outcome : ChildOutcome)
    (hb : ∀ b ∈ branches, b.Live A L) (h : A.Agrees w (branchViews L.childViews branches ++ R))
    (hid : (fid,some id) ∈ slotsOf (branchViews L.childViews branches)) :
    ∃ r, applyOutcomeIn ops fid outcome branches (w.forgetChild id) = some r ∧
      (∀ b ∈ r.1, b.Live A L) ∧ A.Agrees r.2 (branchViews L.childViews r.1 ++ R) := by
  induction branches generalizing R with
  | nil => cases hid
  | cons b rest ih =>
    obtain ⟨hb,hrest⟩ := List.forall_mem_cons.mp hb
    have hroutes := h.owns.routes
    rw [branchViews,List.flatMap_cons,List.append_assoc] at h
    rw [applyOutcomeIn]
    by_cases hmem : fid ∈ (slotsOf (b.frame.views L.childViews)).map Prod.fst
    · obtain ⟨⟨_,waits⟩,hslot,rfl⟩ := List.mem_map.mp hmem
      have hwaits : waits = some id := by
        rw [List.map_append] at hroutes
        refine hroutes.eq_of_mem (List.mem_append_left _ ?_) (List.mem_append_left _ hid)
        rw [branchViews,List.flatMap_cons,List.map_append]
        exact List.mem_append_left _ hslot
      subst hwaits
      obtain ⟨r,hr,hlive,h'⟩ := hops.hit _ _ id outcome b.frame w hb.1 h hslot
      rw [hr]
      refine ⟨_,rfl,List.forall_mem_cons.mpr ⟨⟨hlive,?_⟩,hrest⟩,?_⟩
      · intro hresult
        rw [(hb.2 hresult).views] at hslot
        simp [FrameView.free] at hslot
      · rw [branchViews,List.flatMap_cons,List.append_assoc]
        exact h'
    · rw [hops.miss fid outcome b.frame _ hmem]
      have hid : (fid,some id) ∈ slotsOf (branchViews L.childViews rest) := by
        rw [branchViews,List.flatMap_cons,slotsOf,List.map_append,List.mem_append] at hid
        exact hid.resolve_left fun h => hmem (List.mem_map_of_mem (f := Prod.fst) h)
      obtain ⟨r,hr,hlive,h'⟩ := ih hrest h.swap hid
      rw [hr]
      refine ⟨_,rfl,List.forall_mem_cons.mpr ⟨hb,hlive⟩,?_⟩
      rw [branchViews,List.flatMap_cons,List.append_assoc]
      exact h'.swap

end ForkFrame

namespace ForFrame
variable {f : ForFrame β κ}

omit hops in
inductive PassKept (A : Account setup) (L : Level β κ) (R : List FrameView) :
    Option FrameResult × ForFrame β κ × World → Prop
  | spoiled {r} (h : A.Spoiled r.2.2) : PassKept A L R r
  | stop {r g w} (h : Container.Kept A L R r (.for_ g) w) : PassKept A L R (some r,g,w)
  | next {g w} (hg : ForFrame.Live A L g) (hbody : g.bodyFrame = none) (h : A.Agrees w R) :
      PassKept A L R (none,g,w)

lemma finishIteration_kept (hf : f.Live A L) (h : A.Agrees w (f.views L.childViews ++ R)) :
    PassKept A L R (f.finishIteration setup ops w) := by
  rw [finishIteration]
  split
  · next hbody =>
    rw [views,hbody] at h
    exact .next hf hbody h
  next body hbody =>
  rw [views,hbody] at h
  have hadvance := hops.advance R body w (hf.body _ hbody) h
  split <;> rename_i heq <;> rw [heq] at hadvance
  · cases hadvance with
    | spoiled h => exact .spoiled h
    | suspended hlive h =>
      refine .stop (.suspended ⟨hf.active,hf.failure,hf.plain,?_⟩ h)
      rintro _ ⟨⟩
      exact hlive
  · cases hadvance with
    | spoiled h => exact .spoiled h
    | failed h => exact .stop (.failed h)
  · cases hadvance with
    | spoiled h => exact .spoiled h
    | ended h => exact .stop (.ended h)
  · cases hadvance with
    | spoiled h =>
      dsimp only
      split <;> exact .spoiled h
    | completed _ hidle h =>
      have h := hidle.giveUp h
      dsimp only
      split
      · exact .stop (.failed h.ended)
      · exact .stop (.completed h)
      · exact .next ⟨hf.active,hf.failure,hf.plain,by simp⟩ rfl h

omit hops in
lemma beginIteration_kept (hf : f.Live A L) (h : A.Agrees w R) (item : Value) :
    (f.beginIteration setup w item).1.Live A L ∧ A.Agrees (f.beginIteration setup w item).2
      ((f.beginIteration setup w item).1.views L.childViews ++ R) := by
  obtain ⟨hlive,hidle⟩ := SequenceFrame.live_enter A L
    ⟨w.nextFrame,f.body.do_,none,f.scopeAt setup item :: f.scope,
      kDefaultSynchronousIterationBudget,.pending,0,.null,none,none,none,none,none⟩
    f.accumulator hf.plain rfl rfl
  refine ⟨⟨hf.active,hf.failure,hf.plain,?_⟩,?_⟩
  · rintro _ ⟨⟩
    exact hlive
  · change A.Agrees _ (SequenceFrame.views L.childViews _ ++ R)
    rw [hidle.views]
    exact h.newFrame

lemma advanceLoop_kept (hf : f.Live A L) (h : A.Agrees w (f.views L.childViews ++ R)) (k : ℕ) :
    Container.Kept A L R (advanceLoop setup ops k f w).1 (.for_ (advanceLoop setup ops k f w).2.1)
      (advanceLoop setup ops k f w).2.2 := by
  induction k generalizing f w with
  | zero =>
    have hpass := finishIteration_kept hops hf h
    rw [advanceLoop]
    split <;> rename_i heq <;> rw [heq] at hpass
    · cases hpass with
      | spoiled h => exact .spoiled h
      | stop h => exact h
    · cases hpass with
      | spoiled h =>
        split
        · exact .spoiled h
        · exact .spoiled (A.spoiled (List.suffix_cons _ _) h)
      | next _ _ h =>
        split
        · exact .completed h
        · exact .failed (A.ended_silent (.record rfl) h.ended)
  | succ k ih =>
    have hpass := finishIteration_kept hops hf h
    rw [advanceLoop]
    split <;> rename_i heq <;> rw [heq] at hpass
    · cases hpass with
      | spoiled h => exact .spoiled h
      | stop h => exact h
    · cases hpass with
      | spoiled h =>
        split
        · exact .spoiled h
        · exact .spoiled (Account.spoiled_acts h (.head (.frames 1)
            (advanceLoop_acts hops.bounded k _ _)))
      | next hlive _ h =>
        split
        · exact .completed h
        · obtain ⟨hlive',h'⟩ := beginIteration_kept hlive h _
          exact ih hlive' h'

lemma advance_kept (hf : f.Live A L) (h : A.Agrees w (f.views L.childViews ++ R)) :
    Container.Kept A L R (f.advance setup ops w).1 (.for_ (f.advance setup ops w).2.1)
      (f.advance setup ops w).2.2 := by
  rw [advance,if_neg (by simp [hf.active])]
  split
  · exact .failed h.ended
  split
  · exact advanceLoop_kept hops hf h _
  split
  · exact .failed h.ended
  · exact advanceLoop_kept hops (f := { f with started := true, items := _ })
      ⟨hf.active,hf.failure,hf.plain,hf.body⟩ h _

end ForFrame

namespace Container
variable {c : Container β κ} {body : TaskBody (NamedTask β)} {outcome : ChildOutcome} {scope : Scope}

lemma advance_kept (hc : c.Live A L) (h : A.Agrees w (c.views L.childViews ++ R)) :
    Container.Kept A L R (c.advance setup ops w).1 (c.advance setup ops w).2.1
      (c.advance setup ops w).2.2 := by
  cases c with
  | sequence f =>
    have hadvance := hops.advance R f w hc h
    rw [advance]
    generalize ops.advance f w = r at hadvance
    obtain ⟨result,f',w'⟩ := r
    cases hadvance with
    | spoiled h => exact .spoiled h
    | suspended hlive h => exact .suspended hlive h
    | completed _ hidle h => exact .completed (hidle.giveUp h)
    | ended h => exact .ended h
    | failed h => exact .failed h
  | fork f => exact ForkFrame.advance_kept hops hc.1 hc.2 h
  | for_ f => exact ForFrame.advance_kept hops hc h

lemma abandon_agrees (hc : c.Live A L) (h : A.Agrees w (c.views L.childViews ++ R)) :
    A.Agrees (c.abandon ops w).2 R := by
  cases c with
  | sequence f => exact hops.abandon R f w hc h
  | fork f =>
    rw [abandon,ForkFrame.abandon,if_neg (by simp [hc.1,FrameState.isTerminal])]
    exact ForkFrame.abandonBranches_agrees hops hc.2 h
  | for_ f =>
    rw [abandon,ForFrame.abandon,if_neg (by simp [hc.active,FrameState.isTerminal])]
    change A.Agrees w (ForFrame.views L.childViews f ++ R) at h
    rw [ForFrame.views] at h
    split <;> rename_i hbody <;> rw [hbody] at h
    · exact h
    · exact hops.abandon R _ w (hc.body _ hbody) h

lemma abandon_ended (c : Container β κ) (h : A.Ended w) : A.Ended (c.abandon ops w).2 := by
  cases c with
  | sequence f => exact hops.abandon_ended f w h
  | fork f =>
    rw [abandon,ForkFrame.abandon]
    split
    · exact h
    · exact ForkFrame.abandonBranches_ended hops _ h
  | for_ f =>
    rw [abandon,ForFrame.abandon]
    split
    · exact h
    split
    · exact h
    · exact hops.abandon_ended _ w h

lemma applyOutcome_miss {fid : FrameId} (hfid : fid ∉ (slotsOf (c.views L.childViews)).map Prod.fst) :
    c.applyOutcome ops fid outcome w = none := by
  cases c with
  | sequence f => simp [applyOutcome,hops.miss fid outcome f w hfid]
  | fork f => simp [applyOutcome,ForkFrame.applyOutcomeIn_miss hops (w := w) hfid]
  | for_ f =>
    rw [applyOutcome]
    split
    · rfl
    · next body hbody =>
      have hbody : fid ∉ (slotsOf (body.views L.childViews)).map Prod.fst := by
        simpa only [views,hbody,Option.elim_some] using hfid
      simp [hops.miss fid outcome body w hbody]

lemma applyOutcome_hit {fid : FrameId} {id : String} (hc : c.Live A L)
    (h : A.Agrees w (c.views L.childViews ++ R)) (hid : (fid,some id) ∈ slotsOf (c.views L.childViews)) :
    ∃ r, c.applyOutcome ops fid outcome (w.forgetChild id) = some r ∧ r.1.Live A L ∧
      A.Agrees r.2 (r.1.views L.childViews ++ R) := by
  cases c with
  | sequence f =>
    obtain ⟨r,hr,hlive,h'⟩ := hops.hit R fid id outcome f w hc h hid
    exact ⟨(.sequence r.1,r.2),by rw [applyOutcome,hr]; rfl,hlive,h'⟩
  | fork f =>
    obtain ⟨r,hr,hlive,h'⟩ := ForkFrame.applyOutcomeIn_hit hops outcome hc.2 h hid
    exact ⟨(.fork { f with branches := r.1 },r.2),by rw [applyOutcome,hr]; rfl,⟨hc.1,hlive⟩,h'⟩
  | for_ f =>
    change A.Agrees w (ForFrame.views L.childViews f ++ R) at h
    change (fid,some id) ∈ slotsOf (ForFrame.views L.childViews f) at hid
    rw [ForFrame.views] at h hid
    rw [applyOutcome]
    cases hbody : f.bodyFrame with
    | none => simp [hbody] at hid
    | some body =>
      rw [hbody] at h hid
      obtain ⟨r,hr,hlive,h'⟩ := hops.hit R fid id outcome body w (hc.body _ hbody) h hid
      dsimp only
      rw [hr]
      refine ⟨_,rfl,⟨hc.active,hc.failure,hc.plain,?_⟩,h'⟩
      rintro _ ⟨⟩
      exact hlive

omit hops in
lemma branchesFor_kept {budget : ℕ} {data : StepDataValue} {tasks : List (NamedTask β)}
    (hplain : ∀ s ∈ tasks, A.plain s ∧ L.plain s) (index : ℕ) (h : A.Agrees w R) :
    (∀ b ∈ ForkFrame.branchesFor (κ := κ) scope budget data tasks index w.nextFrame, b.Live A L) ∧
    A.Agrees { w with nextFrame := w.nextFrame+tasks.length } (ForkFrame.branchViews L.childViews
      (ForkFrame.branchesFor scope budget data tasks index w.nextFrame) ++ R) := by
  induction tasks generalizing w R index with
  | nil => exact ⟨by simp [ForkFrame.branchesFor],h⟩
  | cons t rest ih =>
    obtain ⟨ht,hrest⟩ := List.forall_mem_cons.mp hplain
    obtain ⟨hlive,hrestagrees⟩ := ih hrest (index+1) h.newFrame
    obtain ⟨hframe,hidle⟩ := SequenceFrame.live_enter A L
      ⟨w.nextFrame,[t],some ⟨index,t.name⟩,scope,budget,.pending,0,.null,none,none,none,none,none⟩
      data (by simpa using ht) rfl rfl
    rw [ForkFrame.branchesFor]
    refine ⟨List.forall_mem_cons.mpr ⟨⟨hframe,by simp⟩,hlive⟩,?_⟩
    rw [ForkFrame.branchViews,List.flatMap_cons,hidle.views,List.append_assoc]
    have hswapped : A.Agrees _ ([.free w.nextFrame] ++ (_ ++ R)) := hrestagrees.swap
    exact hswapped.same rfl rfl (Nat.add_right_comm w.nextFrame rest.length 1) rfl rfl

omit hops in
lemma materialize_kept {name : String} {budget : ℕ} {input : StepDataValue}
    {r : Container β κ × World} {e e' : Event}
    (hplain : ∀ s ∈ body.nested, A.plain s ∧ L.plain s) (h : A.Agrees ((w.record e).record e') R)
    (hr : materialize name scope budget input w body = some r) :
    r.1.Live A L ∧ A.Agrees ((r.2.record e).record e') (r.1.views L.childViews ++ R) := by
  cases body with
  | do_ tasks =>
    cases hr
    obtain ⟨hlive,hidle⟩ := SequenceFrame.live_enter A L
      ⟨w.nextFrame,tasks,none,scope,budget,.pending,0,.null,none,none,none,none,none⟩
      input hplain rfl rfl
    refine ⟨hlive,?_⟩
    rw [views,hidle.views]
    exact h.newFrame
  | fork body =>
    cases hr
    obtain ⟨hlive,h'⟩ := branchesFor_kept hplain 0 h
    exact ⟨⟨rfl,hlive⟩,h'⟩
  | for_ body =>
    cases hr
    exact ⟨⟨rfl,rfl,hplain,by simp⟩,h⟩
  | _ => cases hr

omit hops in
lemma materialize_isSome {name : String} {budget : ℕ} {input : StepDataValue} (h : body.isContainer = true) :
    (materialize (κ := κ) name scope budget input w body).isSome = true := by
  cases body <;> first | rfl | cases h

end Container

namespace SequenceFrame
variable {f : SequenceFrame (TaskBody (NamedTask β)) (Container β κ)}
  {step : NamedTask (TaskBody (NamedTask β))}

omit hops in
lemma afterContainer_kept (hready : f.Ready step) (hplain : ∀ s ∈ f.steps, A.plain s ∧ (L.succ A).plain s)
    (hcontainer : step.task.body.isContainer = true) (hchild : f.child.isSome = true)
    (hsteady : A.steady step f) {r : FrameResult × Container β κ × World}
    (hr : Container.Kept A L (f.view :: R) r.1 r.2.1 r.2.2) :
    KeptStep A (L.succ A) R (afterContainer setup step f r) := by
  obtain ⟨result,child,w⟩ := r
  cases hr with
  | spoiled h => exact .spoiled (Account.spoiled_acts h (afterContainer_acts step f _))
  | failed h => exact .stop (.failed h)
  | ended h => exact .stop (.ended h)
  | suspended hc h =>
    have hview : ({ f with child := some child } : SequenceFrame _ _).view = f.view := by
      obtain ⟨c,hc⟩ := Option.isSome_iff_exists.mp hchild
      simp [view,hc]
    refine .stop (.suspended ⟨hplain,?_,fun _ => .inl hready.active⟩ ?_)
    · refine .some child step rfl ?_ ⟨hcontainer,hc⟩ (A.steady_child _ hsteady)
      exact ⟨hready.step,hready.active,hready.failure,hready.pending,hready.waiting⟩
    · change A.Agrees w (({ f with child := some child } : SequenceFrame _ _).view :: _ ++ R)
      rw [hview]
      exact h.perm List.perm_middle
  | completed h =>
    have hrests : Rests A (L.succ A) R { f with child := none }
        (w.record (.leave f.id f.cursor f.stepInput)) := by
      refine ⟨⟨⟨hplain,Idle.nesting ⟨rfl,hready.waiting⟩,fun _ => .inl hready.active⟩,
        fun _ _ => hready.active⟩,⟨rfl,hready.waiting⟩,?_⟩
      have hholds := A.leave hchild hsteady h.holds
      have howns := h.owns.record (.leave f.id f.cursor f.stepInput)
      rw [hready.view_slot] at hholds
      rw [List.map_cons,hready.view_slot] at howns
      exact ⟨howns,hholds⟩
    obtain ⟨hrests,hr⟩ := (applyCompletedStep_finish setup _ _ step _ (stepThen step)).rests
      (hplain _ (List.mem_of_getElem? hready.step)).1 hrests
    exact hrests.keptStep hr

lemma advanceContainer_kept {input : StepDataValue} (hready : f.Ready step)
    (hinput : f.stepInput = some input) (hplain : ∀ s ∈ f.steps, A.plain s ∧ (L.succ A).plain s)
    (hcontainer : step.task.body.isContainer = true) (hfits : ∀ c ∈ f.child, (L.succ A).fits step c)
    (htaken : A.Taken w step f (f.child.elim [] (L.succ A).childViews ++ R))
    (howns : w.Owns setup (slotsOf (f.views (L.succ A).childViews ++ R))) :
    KeptStep A (L.succ A) R (advanceContainer setup ops step input f w) := by
  rw [advanceContainer]
  split
  · next child hchild =>
    have hsome : f.child.isSome = true := by rw [hchild]; rfl
    obtain ⟨hsteady,hholds⟩ := A.again htaken hsome
    have h : A.Agrees (w.record (.advance f.id f.cursor)) (f.view :: (f.child.elim [] _ ++ R)) :=
      ⟨howns.record _,hholds⟩
    rw [hchild] at h
    exact afterContainer_kept hready hplain hcontainer hsome hsteady
      (Container.advance_kept hops (hfits child hchild).2 (h.perm List.perm_middle.symm))
  · next hchild =>
    rw [hchild] at htaken
    rw [Idle.views ⟨hchild,hready.waiting⟩] at howns
    split
    · next hnone =>
      exact absurd hnone (Option.isSome_iff_ne_none.mp (Container.materialize_isSome hcontainer))
    · next child w' hmaterialize =>
      obtain ⟨hsteady,hholds⟩ := A.enter child htaken hchild hinput
      have hready' : ({ f with child := some child } : SequenceFrame _ _).Ready step :=
        ⟨hready.step,hready.active,hready.failure,hready.pending,hready.waiting⟩
      have hslots : w.Owns setup (slotsOf (({ f with child := some child } : SequenceFrame _ _).view :: R)) := by
        rw [slotsOf,List.map_cons,hready'.view_slot]
        exact howns
      obtain ⟨hlive,h'⟩ := Container.materialize_kept (hplain _ (List.mem_of_getElem? hready.step)).2
        ⟨(hslots.record _).record _,hholds⟩ hmaterialize
      exact afterContainer_kept (f := { f with child := some child }) hready' hplain hcontainer rfl hsteady
        (Container.advance_kept hops hlive (h'.recordIf _ rfl))

lemma runBody_keeps (hfresh : Function.Injective setup.freshId) :
    BodyKeeps A (L.succ A) (runBody setup ops) := by
  intro R step input f w hready hinput hplain hfits htaken howns
  rcases runBody_cases setup ops step input f w with ⟨hcontainer,h⟩ | ⟨hleaf,h⟩
  · rw [h]
    exact advanceContainer_kept hops hready hinput hplain hcontainer hfits htaken howns
  · have hchild : f.child = none := by
      rw [Option.eq_none_iff_forall_ne_some]
      intro c hc
      cases hleaf.symm.trans (hfits c hc).1
    have hidle : f.Idle := ⟨hchild,hready.waiting⟩
    have hholds := A.taken htaken
    rw [hidle.views] at howns
    rw [hchild,hidle.view] at hholds
    refine h.kept hfresh ⟨⟨⟨hplain,hidle.nesting,fun _ => .inl hready.active⟩,fun _ _ => hready.active⟩,
      hidle,howns,hholds⟩ hready

end SequenceFrame

theorem FrameOps.Exact.succ (hfresh : Function.Injective setup.freshId)
    (hbounded : (ops.succ setup).Bounded setup) : (ops.succ setup).Exact A (L.succ A) where
  bounded := hbounded
  advance _ _ _ hf h := SequenceFrame.advance_kept (SequenceFrame.runBody_acts hops.bounded)
    (SequenceFrame.runBody_keeps hops hfresh) hf h
  abandon _ _ _ hf h := SequenceFrame.abandon_agrees (L := L.succ A)
    (fun _ _ _ _ hfits h => Container.abandon_agrees hops hfits.2 h) hf h
  abandon_ended _ _ h := SequenceFrame.abandon_ended (fun c _ h => Container.abandon_ended hops c h) h
  miss _ _ _ _ hfid := SequenceFrame.applyOutcomeTo_miss
    (fun _ _ h => Container.applyOutcome_miss hops h) hfid
  hit _ _ _ _ _ _ hf h hid := SequenceFrame.applyOutcomeTo_hit (L := L.succ A)
    (fun _ _ _ _ hfits h hmem =>
      have ⟨r,hr,hlive,h'⟩ := Container.applyOutcome_hit hops hfits.2 h hmem
      ⟨r,hr,⟨hfits.1,hlive⟩,h'⟩) hf h hid

end Containers

def level {setup : Setup} (A : Account setup) : (n : ℕ) → Level (Body n) (Contained n)
  | 0 => ⟨fun c => c.elim,fun _ c => c.elim,fun _ => True⟩
  | n+1 => (level A n).succ A

lemma level_childViews (A : Account setup) (n : ℕ) : (level A n).childViews = Contained.views n := by
  induction n with
  | zero => rfl
  | succ n ih =>
    funext c
    change Container.views (level A n).childViews c = Container.views (Contained.views n) c
    rw [ih]

theorem frameOps_exact (hfresh : Function.Injective setup.freshId) (A : Account setup)
    (n : ℕ) : (frameOps setup n).Exact A (level A n) := by
  induction n with
  | zero => exact {
      bounded := frameOps_bounded setup 0
      advance := fun _ _ _ hf h => SequenceFrame.advance_kept (fun step => step.task.body.elim)
        (fun _ step => step.task.body.elim) hf h
      abandon := fun _ _ _ hf h => SequenceFrame.abandon_agrees (fun _ _ c => c.elim) hf h
      abandon_ended := fun _ _ h => SequenceFrame.abandon_ended (fun c => c.elim) h
      miss := fun _ _ _ _ hfid => SequenceFrame.applyOutcomeTo_miss (fun c => c.elim) hfid
      hit := fun _ _ _ _ _ _ hf h hid =>
        SequenceFrame.applyOutcomeTo_hit (fun _ _ c => c.elim) hf h hid }
  | succ n ih => exact ih.succ hfresh (frameOps_bounded setup (n+1))

end Strij.OpenWorkflow
