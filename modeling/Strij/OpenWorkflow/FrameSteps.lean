import Strij.OpenWorkflow.FrameTree

/-! The steps of one sequence frame. Whatever its step does, the routing table and the account go on
agreeing with the tree, up to the end of the run. -/
namespace Strij.OpenWorkflow
open Relation

/-- What is fixed while the frames of one level run: what is seen of nested frames, which nested frame
fits a step, and which tasks may occur. -/
structure Level (β κ : Type) where
  childViews : κ → List FrameView
  fits : NamedTask β → κ → Prop
  plain : NamedTask β → Prop

namespace SequenceFrame
variable {setup : Setup} {β κ : Type} (A : Account setup) (L : Level β κ)

/-- Only an active frame with a step to do waits or holds a nested frame, and the nested frame belongs
to the step at the cursor. -/
inductive Nesting (f : SequenceFrame β κ) : Prop
  | none (hchild : f.child = .none) (hwaiting : f.waitingChildId.isSome → f.state = .active ∧
      f.failure = .none ∧ f.pendingResult = .none ∧ (f.steps[f.cursor]?).isSome)
  | some (c : κ) (step : NamedTask β) (hchild : f.child = .some c) (hready : f.Ready step)
      (hfits : L.fits step c) (hsteady : A.steady step f)

structure Live (f : SequenceFrame β κ) : Prop where
  plain : ∀ s ∈ f.steps, A.plain s ∧ L.plain s
  nesting : f.Nesting A L
  state : f.failure = none → f.state = .active ∨ f.state = .completed ∨ f.state = .abandoned

structure Going (f : SequenceFrame β κ) : Prop extends Live A L f where
  active : f.failure = none → f.pendingResult = none → f.state = .active

inductive Kept (R : List FrameView) : FrameResult → SequenceFrame β κ → World → Prop
  | spoiled {r f w} (h : A.Spoiled w) : Kept R r f w
  | suspended {f w} (hf : Live A L f) (h : A.Agrees w (f.views L.childViews ++ R)) : Kept R .suspended f w
  | completed {v f w} (hf : Live A L f) (hidle : f.Idle)
      (h : A.Agrees w (f.views L.childViews ++ R)) : Kept R (.completed v) f w
  | ended {v f w} (h : A.Ended w) : Kept R (.ended v) f w
  | failed {failure f w} (h : A.Ended w) : Kept R (.failed failure) f w

inductive KeptStep (R : List FrameView) : Option FrameResult × SequenceFrame β κ × World → Prop
  | spoiled {r} (h : A.Spoiled r.2.2) : KeptStep R r
  | next {f w} (hf : Going A L f) (h : A.Agrees w (f.views L.childViews ++ R)) : KeptStep R (none,f,w)
  | stop {r f w} (h : Kept A L R r f w) : KeptStep R (some r,f,w)

structure Rests (R : List FrameView) (f : SequenceFrame β κ) (w : World) : Prop where
  going : Going A L f
  idle : f.Idle
  agrees : A.Agrees w (.free f.id :: R)

variable {A L} {R : List FrameView} {T : Terms} {then_ : String} {step : NamedTask β}
  {f : SequenceFrame β κ} {w : World}

lemma Idle.view (h : f.Idle) : f.view = .free f.id := by
  simp [SequenceFrame.view,FrameView.free,h.1,h.2]

lemma Idle.views (h : f.Idle) {childViews : κ → List FrameView} : f.views childViews = [.free f.id] := by
  rw [SequenceFrame.views,h.view,h.1]
  rfl

lemma Idle.nesting (h : f.Idle) : f.Nesting A L := .none h.1 (by simp [h.2])

lemma Ready.view_slot (h : f.Ready step) : f.view.slot = (f.id,none) := by
  simp [SequenceFrame.view,h.waiting]

lemma Rests.views (h : Rests A L R f w) : A.Agrees w (f.views L.childViews ++ R) := by
  rw [h.idle.views]
  exact h.agrees

lemma Finish.rests {r : Option FrameResult × SequenceFrame β κ × World} (h : Finish then_ step f w r)
    (hplain : A.plain step) (hf : Rests A L R f w) :
    Rests A L R r.2.1 r.2.2 ∧ ∀ result ∈ r.1, ∃ failure, result = .failed failure := by
  obtain ⟨⟨⟨hsteps,-,hstate⟩,hactive⟩,hidle,howns,hholds⟩ := hf
  cases h with
  | stuck => exact ⟨⟨⟨⟨hsteps,hidle.nesting,hstate⟩,hactive⟩,hidle,howns,hholds⟩,by simp⟩
  | fail =>
    refine ⟨⟨⟨⟨hsteps,Idle.nesting hidle,nofun⟩,nofun⟩,hidle,howns,hholds⟩,?_⟩
    rintro _ ⟨⟩
    exact ⟨_,rfl⟩
  | misdirect data _ hc =>
    refine ⟨⟨⟨⟨hsteps,Idle.nesting hidle,nofun⟩,nofun⟩,hidle,howns.same rfl rfl rfl,
      A.silent (.record rfl) (A.context hplain hc hholds)⟩,?_⟩
    rintro _ ⟨⟩
    exact ⟨_,rfl⟩
  | next data hc cursor =>
    exact ⟨⟨⟨⟨hsteps,Idle.nesting hidle,hstate⟩,hactive⟩,hidle,howns.same rfl rfl rfl,
      A.context hplain hc hholds⟩,by simp⟩
  | last hc =>
    exact ⟨⟨⟨⟨hsteps,Idle.nesting hidle,fun _ => .inr (.inl rfl)⟩,nofun⟩,hidle,howns.same rfl rfl rfl,
      A.context hplain hc hholds⟩,by simp⟩

lemma Rests.keptStep {r : Option FrameResult × SequenceFrame β κ × World} (h : Rests A L R r.2.1 r.2.2)
    (hr : ∀ result ∈ r.1, ∃ failure, result = .failed failure) : KeptStep A L R r := by
  obtain ⟨result,f,w⟩ := r
  cases result with
  | none => exact .next h.going h.views
  | some result =>
    obtain ⟨failure,rfl⟩ := hr result rfl
    exact .stop (.failed h.agrees.ended)

lemma Resume.rests {r : SequenceFrame β κ × World} (h : Resume f w r)
    (hf : Rests A L R { f with waitingChildId := none } w) : Rests A L R r.1 r.2 := by
  cases h with
  | fail failure =>
    exact ⟨⟨⟨hf.going.plain,Idle.nesting hf.idle,nofun⟩,nofun⟩,hf.idle,hf.agrees⟩
  | lost => exact hf
  | finish hstep h =>
    have hplain := (hf.going.plain _ (List.mem_of_getElem? hstep)).1
    exact (h.rests hplain hf).1

lemma Rests.afterExecute (hf : Rests A L R f w) : KeptStep A L R (f.afterExecute w) := by
  rw [SequenceFrame.afterExecute]
  split
  · exact .stop (.failed hf.agrees.ended)
  · rw [hf.idle.2]
    exact .next hf.going hf.views

section Leaf
variable (hfresh : Function.Injective setup.freshId) {e : Event}
include hfresh

lemma askedWorld_agrees (he : T.asks (some (setup.freshId w.nextChild)) e)
    (h : A.Agrees w (.free f.id :: R)) :
    A.Agrees (f.askedWorld setup w e) (⟨(f.id,some (setup.freshId w.nextChild)),none⟩ :: R) := by
  have hregistered := h.register hfresh
  exact Account.Agrees.converse ⟨hregistered.owns.record e,A.silent (World.record_asks (T.asksFor he))
    hregistered.holds⟩

omit hfresh in
lemma detached_agrees {l : List FrameView} (he : T.asks none e) (h : A.Agrees w l) :
    A.Agrees (w.record e).converse.2 l :=
  Account.Agrees.converse ⟨h.owns.record e,A.silent (World.record_asks (T.asksFor he)) h.holds⟩

lemma Ask.kept {r : SequenceFrame β κ × World} (h : Ask setup T f w r) (hf : Rests A L R f w)
    (hready : f.Ready step) : KeptStep A L R (r.1.afterExecute r.2) := by
  cases h with
  | wait he =>
    rw [SequenceFrame.afterExecute]
    simp only [hready.failure,Option.isSome_some,if_true]
    refine .stop (.suspended ⟨hf.going.plain,.none hf.idle.1 ?_,fun _ => .inl hready.active⟩ ?_)
    · intro _
      exact ⟨hready.active,rfl,hready.pending,by rw [hready.step]; rfl⟩
    · have hagrees := askedWorld_agrees hfresh he hf.agrees
      simpa [SequenceFrame.views,SequenceFrame.view,hready.active,hf.idle.1] using hagrees
  | resume he h hr =>
    apply Rests.afterExecute
    apply hr.rests
    refine ⟨⟨⟨hf.going.plain,Idle.nesting ⟨hf.idle.1,rfl⟩,hf.going.state⟩,hf.going.active⟩,
      ⟨hf.idle.1,rfl⟩,?_⟩
    exact (askedWorld_agrees hfresh he hf.agrees).forget.same rfl rfl rfl rfl rfl
  | detach he => exact Rests.afterExecute ⟨hf.going,hf.idle,detached_agrees he hf.agrees⟩

lemma Refuse.ended {w' : World} (h : Refuse setup T f w w') (hf : Rests A L R f w) : A.Ended w' := by
  cases h with
  | untouched => exact hf.agrees.ended
  | defect => exact A.ended_silent (.record rfl) hf.agrees.ended
  | start he => exact (askedWorld_agrees hfresh he hf.agrees).forget.ended
  | detach he => exact (detached_agrees he hf.agrees).ended

lemma Leaf.kept {r : Option FrameResult × SequenceFrame β κ × World} (h : Leaf setup T step f w r)
    (hf : Rests A L R f w) (hready : f.Ready step) : KeptStep A L R r := by
  have hplain := (hf.going.plain _ (List.mem_of_getElem? hready.step)).1
  cases h with
  | fail h => exact .stop (.failed (h.ended hfresh hf))
  | finish _ h =>
    obtain ⟨hrests,hr⟩ := h.rests hplain hf
    exact hrests.keptStep hr
  | ask h => exact h.kept hfresh hf hready
  | detach he h =>
    have hf' : Rests A L R f _ := ⟨hf.going,hf.idle,detached_agrees he hf.agrees⟩
    obtain ⟨hrests,hr⟩ := h.rests hplain hf'
    exact hrests.keptStep hr

end Leaf

section Loop
variable {runBody : RunBodyFn β κ} {r : FrameResult}

def BodyKeeps (A : Account setup) (L : Level β κ) (runBody : RunBodyFn β κ) : Prop :=
  ∀ R step input f w, f.Ready step → f.stepInput = some input → (∀ s ∈ f.steps, A.plain s ∧ L.plain s) →
    (∀ c ∈ f.child, L.fits step c) → A.Taken w step f (f.child.elim [] L.childViews ++ R) →
      w.Owns setup ((f.views L.childViews ++ R).map FrameView.slot) →
        KeptStep A L R (runBody step input f w)

lemma recordIf_context (w : World) (b : Bool) (e : Event) : (w.recordIf b e).context = w.context := by
  rw [World.recordIf]
  split <;> rfl

lemma recordIf_owns {l : List FrameSlot} (h : w.Owns setup l) (b : Bool) (e : Event) :
    (w.recordIf b e).Owns setup l := by
  rw [World.recordIf]
  split
  · exact h.record e
  · exact h

lemma takenUp_context (f : SequenceFrame β κ) (w : World) (step : NamedTask β) :
    (f.takenUp w step).context = w.context := recordIf_context _ _ _

lemma transforming_context (f : SequenceFrame β κ) (w : World) (step : NamedTask β) :
    (f.transforming w step).context = w.context := recordIf_context _ _ _

lemma Going.nested (hf : Going A L f) (hready : f.Ready step) :
    (f.child.isSome = true → A.steady step f) ∧ ∀ c ∈ f.child, L.fits step c := by
  cases hf.nesting with
  | none hchild => simp [hchild]
  | some c step' hchild hready' hfits hsteady =>
    cases hready.step.symm.trans hready'.step
    exact ⟨fun _ => hsteady,by simpa [hchild] using hfits⟩

lemma takeStep_kept (hacts : BodyActs setup runBody)
    (hrun : BodyKeeps A L runBody) (hready : f.Ready step) (hf : Going A L f)
    (h : A.Agrees w (f.views L.childViews ++ R)) : KeptStep A L R (f.takeStep setup w runBody step) := by
  obtain ⟨hsteady,hfits⟩ := hf.nested hready
  have howns : (f.takenUp w step).Owns setup _ := recordIf_owns (h.owns.record _) _ _
  rcases A.takeUp hready hsteady h.holds with hspoiled | ⟨hended,hskip,htaken⟩
  · exact .spoiled (Account.spoiled_acts hspoiled (takenUp_acts setup f w hacts (List.mem_of_getElem? hready.step)))
  simp only [takeStep,takenUp_context,transforming_context]
  split
  · exact .stop (.failed hended)
  · next hif =>
    obtain ⟨hchild,hholds⟩ := hskip hif
    have hidle : f.Idle := ⟨hchild,hready.waiting⟩
    have hagrees : A.Agrees ((f.takenUp w step).record (.skip f.id f.cursor)) (f.views L.childViews ++ R) :=
      ⟨howns.record _,hholds⟩
    rw [hidle.views] at hagrees
    refine Rests.keptStep (r := (none,_,_)) ⟨⟨⟨hf.plain,Idle.nesting hidle,hf.state⟩,hf.active⟩,hidle,?_⟩
      (by simp)
    exact hagrees
  · next hif =>
    obtain ⟨hended,htaken⟩ := htaken hif
    split
    · exact .stop (.failed hended)
    · next input hinput =>
      refine hrun R step input { f with stepInput := some input } _ ?_ rfl hf.plain hfits
        (htaken input hinput) ?_
      · exact ⟨hready.step,hready.active,hready.failure,hready.pending,hready.waiting⟩
      · have hslots : (({ f with stepInput := some input } : SequenceFrame β κ).views L.childViews ++ R).map
            FrameView.slot = (f.views L.childViews ++ R).map FrameView.slot := rfl
        rw [hslots]
        exact recordIf_owns howns _ _

lemma Live.kept (hf : Live A L f) (hidle : f.Idle) (h : A.Agrees w (.free f.id :: R)) (r : FrameResult) :
    Kept A L R r f w := by
  have hviews : A.Agrees w (f.views L.childViews ++ R) := by rwa [hidle.views]
  cases r with
  | suspended => exact .suspended hf hviews
  | completed value => exact .completed hf hidle hviews
  | ended value => exact .ended h.ended
  | failed failure => exact .failed h.ended

lemma Live.idle (hf : Live A L f) (h : f.state ≠ .active ∨ f.failure ≠ none ∨
    f.pendingResult ≠ none ∨ f.steps[f.cursor]? = none) : f.Idle := by
  cases hf.nesting with
  | none hchild hwaiting =>
    refine ⟨hchild,?_⟩
    cases hw : f.waitingChildId with
    | none => rfl
    | some id =>
      obtain ⟨hactive,hfailure,hpending,hstep⟩ := hwaiting (by rw [hw]; rfl)
      rcases h with h | h | h | h
      · exact absurd hactive h
      · exact absurd hfailure h
      · exact absurd hpending h
      · rw [h] at hstep
        cases hstep
  | some c step hchild hready =>
    rcases h with h | h | h | h
    · exact absurd hready.active h
    · exact absurd hready.failure h
    · exact absurd hready.pending h
    · cases hready.step.symm.trans h

lemma Live.pending (hf : Live A L f) (hr : f.pendingResult = some r)
    (h : A.Agrees w (f.views L.childViews ++ R)) : Kept A L R r { f with pendingResult := none } w := by
  have hidle := hf.idle (.inr (.inr (.inl (by simp [hr]))))
  rw [hidle.views] at h
  have hf' : Live A L { f with pendingResult := none } := ⟨hf.plain,Idle.nesting hidle,hf.state⟩
  exact hf'.kept hidle h r

lemma loopHead_kept {f' : SequenceFrame β κ} (hhead : f.loopHead = .stop r f')
    (hf : Going A L f) (h : A.Agrees w (f.views L.childViews ++ R)) : Kept A L R r f' w := by
  rw [loopHead] at hhead
  split at hhead
  · next hstep =>
    cases hhead
    have hidle := hf.idle (.inr (.inr (.inr hstep)))
    rw [hidle.views] at h
    have hf' : Live A L { f with state := .completed } :=
      ⟨hf.plain,Idle.nesting hidle,fun _ => .inr (.inl rfl)⟩
    exact hf'.kept hidle h _
  split at hhead
  · next hpending =>
    cases hhead
    exact hf.pending hpending h
  split at hhead
  · cases hhead
    exact .suspended hf.toLive h
  split at hhead
  · cases hhead
    exact .failed h.ended
  · cases hhead

lemma loopHead_ready (hhead : f.loopHead = .take step) (hf : Going A L f) : f.Ready step := by
  rw [loopHead] at hhead
  split at hhead
  · cases hhead
  next hstep =>
  split at hhead
  · cases hhead
  next hpending =>
  split at hhead
  · cases hhead
  next hwaiting =>
  split at hhead
  · cases hhead
  · next hfailure =>
    cases hhead
    exact ⟨hstep,hf.active hfailure hpending,hfailure,hpending,by simpa using hwaiting⟩

lemma advanceLoop_kept (hacts : BodyActs setup runBody)
    (hrun : BodyKeeps A L runBody) (hf : Going A L f) (h : A.Agrees w (f.views L.childViews ++ R))
    (k : ℕ) : Kept A L R (advanceLoop setup runBody k f w).1 (advanceLoop setup runBody k f w).2.1
      (advanceLoop setup runBody k f w).2.2 := by
  induction k generalizing f w with
  | zero =>
    rw [advanceLoop]
    split
    · next hhead => exact loopHead_kept hhead hf h
    · exact .failed (A.ended_silent (.record rfl) h.ended)
  | succ k ih =>
    rw [advanceLoop]
    split
    · next hhead => exact loopHead_kept hhead hf h
    next step hhead =>
    have hkept := takeStep_kept hacts hrun (loopHead_ready hhead hf) hf h
    split <;> rename_i heq <;> rw [heq] at hkept
    · cases hkept with
      | spoiled hspoiled => exact .spoiled hspoiled
      | stop hkept => exact hkept
    · cases hkept with
      | spoiled hspoiled =>
        exact .spoiled (Account.spoiled_acts hspoiled (advanceLoop_acts setup _ _ hacts k))
      | next hf' h' => exact ih hf' h'

lemma terminalResult_kept (hr : f.terminalResult = some r) (hf : Live A L f)
    (h : A.Agrees w (f.views L.childViews ++ R)) : Kept A L R r f w := by
  rw [terminalResult] at hr
  split at hr <;> cases hr
  · exact .failed h.ended
  · exact .suspended hf h
  · next hstate =>
    have hidle := hf.idle (.inl (by simp [hstate]))
    rw [hidle.views] at h
    exact hf.kept hidle h _

lemma Live.going (hf : Live A L f) (hterminal : f.terminalResult = none) : Going A L f := by
  refine ⟨hf,fun hfailure _ => ?_⟩
  rcases hf.state hfailure with h | h | h
  · exact h
  all_goals simp [terminalResult,h] at hterminal

lemma advance_kept (hacts : BodyActs setup runBody)
    (hrun : BodyKeeps A L runBody) (hf : Live A L f) (h : A.Agrees w (f.views L.childViews ++ R)) :
    Kept A L R (f.advance setup w runBody).1 (f.advance setup w runBody).2.1
      (f.advance setup w runBody).2.2 := by
  rw [advance]
  split
  · next hpending => exact hf.pending hpending h
  split
  · next hterminal => exact terminalResult_kept hterminal hf h
  · next hterminal => exact advanceLoop_kept hacts hrun (hf.going hterminal) h _

end Loop

section Abandon
variable {abandonChild : κ → World → κ × World}

lemma abandon_agrees (hchild : ∀ R step c w, L.fits step c → A.Agrees w (L.childViews c ++ R) →
      A.Agrees (abandonChild c w).2 R) (hf : Live A L f) (h : A.Agrees w (f.views L.childViews ++ R)) :
    A.Agrees (f.abandon w abandonChild).2 R := by
  rw [abandon]
  split
  · next hterminal =>
    have hidle := hf.idle (.inl (by rintro h; simp [h,FrameState.isTerminal] at hterminal))
    rw [hidle.views] at h
    exact h.drop rfl
  cases hf.nesting with
  | none hnone hwaiting =>
    simp only [hnone]
    cases hw : f.waitingChildId with
    | none =>
      rw [Idle.views ⟨hnone,hw⟩] at h
      exact h.drop rfl
    | some id =>
      have hactive := (hwaiting (by rw [hw]; rfl)).1
      simp only [views,view,hnone,hw,hactive,if_true,Option.elim_none,Option.map_none,List.cons_append,
        List.nil_append] at h
      exact h.forget.drop rfl
  | some c step hsome hready hfits =>
    simp only [hsome,hready.waiting]
    simp only [views,hsome,Option.elim_some] at h
    exact hchild R step c w hfits (h.drop (by rw [hready.view_slot]))

lemma abandon_ended (hchild : ∀ c w, A.Ended w → A.Ended (abandonChild c w).2) (h : A.Ended w) :
    A.Ended (f.abandon w abandonChild).2 := by
  rw [abandon]
  split
  · exact h
  have hforget : ∀ id, A.Ended (w.forgetChild id) :=
    fun id => A.ended_silent (w := w) (.same rfl rfl rfl) h
  cases f.waitingChildId <;> cases f.child
  · exact h
  · exact hchild _ _ h
  · exact hforget _
  · exact hchild _ _ (hforget _)

end Abandon

section Outcome
variable {applyChild : κ → World → Option (κ × World)} {fid : FrameId} {id : String}
  {outcome : ChildOutcome}

abbrev slotsOf (l : List FrameView) : List FrameSlot := l.map FrameView.slot

lemma applyOutcomeTo_miss
    (hchild : ∀ c w, fid ∉ (slotsOf (L.childViews c)).map Prod.fst → applyChild c w = none)
    (hfid : fid ∉ (slotsOf (f.views L.childViews)).map Prod.fst) :
    f.applyOutcomeTo setup w applyChild fid outcome = none := by
  simp only [slotsOf,views,view,List.map_cons,List.mem_cons,not_or] at hfid
  rw [applyOutcomeTo,if_neg (Ne.symm hfid.1)]
  split
  · rfl
  · next c hc => simp [hchild c w (by simpa [hc] using hfid.2)]

lemma applyOutcome_hit (hf : Live A L f) (h : A.Agrees w (f.views L.childViews ++ R))
    (hid : (f.id,some id) ∈ slotsOf (f.views L.childViews)) :
    Live A L (f.applyOutcome setup (w.forgetChild id) outcome).1 ∧
      A.Agrees (f.applyOutcome setup (w.forgetChild id) outcome).2
        ((f.applyOutcome setup (w.forgetChild id) outcome).1.views L.childViews ++ R) := by
  have hslot : (if f.state = .active then f.waitingChildId else none) = some id := by
    refine h.owns.routes.eq_of_mem (a := f.id) ?_ ?_
    · exact List.mem_map.mpr ⟨f.view,List.mem_append_left _ List.mem_cons_self,rfl⟩
    · rw [List.map_append]
      exact List.mem_append_left _ hid
  split at hslot
  · next hactive =>
    cases hf.nesting with
    | none hchild =>
      simp only [views,view,hchild,hslot,hactive,if_true,Option.elim_none,Option.map_none] at h
      have hrests : Rests A L R { f with waitingChildId := none } (w.forgetChild id) :=
        ⟨⟨⟨hf.plain,Idle.nesting ⟨hchild,rfl⟩,hf.state⟩,fun _ _ => hactive⟩,⟨hchild,rfl⟩,h.forget⟩
      have h := (applyOutcome_resume setup f (w.forgetChild id) outcome).rests hrests
      exact ⟨h.going.toLive,h.views⟩
    | some c step hchild hready => cases hready.waiting.symm.trans hslot
  · cases hslot

lemma applyOutcomeTo_hit (hchild : ∀ R step c (w : World), L.fits step c → A.Agrees w (L.childViews c ++ R) →
      (fid,some id) ∈ slotsOf (L.childViews c) → ∃ r, applyChild c (w.forgetChild id) = some r ∧
        L.fits step r.1 ∧ A.Agrees r.2 (L.childViews r.1 ++ R))
    (hf : Live A L f) (h : A.Agrees w (f.views L.childViews ++ R))
    (hid : (fid,some id) ∈ slotsOf (f.views L.childViews)) :
    ∃ r, f.applyOutcomeTo setup (w.forgetChild id) applyChild fid outcome = some r ∧
      Live A L r.1 ∧ A.Agrees r.2 (r.1.views L.childViews ++ R) := by
  rw [applyOutcomeTo]
  by_cases hown : f.id = fid
  · rw [if_pos hown]
    subst hown
    exact ⟨_,rfl,applyOutcome_hit hf h hid⟩
  rw [if_neg hown]
  have hid : (fid,some id) ∈ slotsOf (f.child.elim [] L.childViews) := by
    rcases List.mem_cons.mp hid with h | h
    · exact absurd (congrArg Prod.fst h).symm hown
    · exact h
  cases hf.nesting with
  | none hnone => simp [hnone] at hid
  | some c step hsome hready hfits hsteady =>
    simp only [hsome,Option.elim_some] at hid ⊢
    simp only [views,hsome,Option.elim_some] at h
    obtain ⟨r,hr,hfits',h'⟩ := hchild (f.view :: R) step c w hfits (h.perm List.perm_middle.symm) hid
    rw [hr]
    refine ⟨_,rfl,⟨hf.plain,?_,hf.state⟩,?_⟩
    · refine .some r.1 step rfl ?_ hfits' (A.steady_child _ hsteady)
      exact ⟨hready.step,hready.active,hready.failure,hready.pending,hready.waiting⟩
    · have hview : ({ f with child := some r.1 } : SequenceFrame β κ).view = f.view := by
        simp [view,hsome]
      change A.Agrees r.2 (({ f with child := some r.1 } : SequenceFrame β κ).view :: _ ++ R)
      rw [hview]
      exact h'.perm List.perm_middle

end Outcome
end SequenceFrame
end Strij.OpenWorkflow
