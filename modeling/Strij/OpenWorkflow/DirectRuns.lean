import Strij.OpenWorkflow.NestedRefinement

/-! Runs and the direct style: a run completes with the value that the evaluator has for its document, in
whatever order the outcomes arrive. -/
namespace Strij.OpenWorkflow
open Reference (Result)
variable {log : List Event} {id : String}

/-- The children that were asked for and whose outcomes have not arrived since. -/
def unanswered : List Event → List String
  | [] => []
  | .deliver id _ :: before => (unanswered before).filter (· ≠ id)
  | e :: before => e.asksFor.join.toList ++ unanswered before

lemma unanswered_deliver {id' : String} {outcome : ChildOutcome} (h : id ∈ unanswered log)
    (hne : id ≠ id') : id ∈ unanswered (.deliver id' outcome :: log) := by
  rw [unanswered]
  exact List.mem_filter.mpr ⟨h,by simpa using hne⟩

lemma unanswered_cons {e : Event} (he : ∀ id outcome, e ≠ .deliver id outcome)
    (h : id ∈ e.asksFor.join.toList ++ unanswered log) : id ∈ unanswered (e :: log) := by
  cases e with
  | deliver id outcome => exact absurd rfl (he id outcome)
  | _ => exact h

namespace World
variable {setup : Setup} {w w' : World}

/-- Whoever is routed and not queued is outstanding. -/
def Awaits (w : World) : Prop := ∀ id ∈ w.owners, id ∉ w.pending → id ∈ unanswered w.log

variable (h : w.Awaits)
include h

lemma Awaits.record {e : Event} (he : ∀ id outcome, e ≠ .deliver id outcome) :
    (w.record e).Awaits := fun id hid hpending =>
  unanswered_cons he (List.mem_append_right _ (h id hid hpending))

lemma Awaits.deliver (x : String × ChildOutcome) : (w.deliver x).Awaits := by
  have hlater : ∀ id ∈ w.owners, id ∉ w.pending → id ≠ x.1 → id ∈ unanswered (w.record (.deliver x.1 x.2)).log :=
    fun id hid hpending hne => unanswered_deliver (h id hid hpending) hne
  rw [World.deliver]
  split
  · intro id hid hpending
    have hnot : ¬(id = x.1 ∨ id ∈ w.pending) := fun h => hpending ((AList.mem_insert _).mpr h)
    push Not at hnot
    exact hlater id hid hnot.2 hnot.1
  · next hx =>
    intro id hid hpending
    refine hlater id hid hpending ?_
    rintro rfl
    exact hx hid

lemma Awaits.converse : w.converse.2.Awaits :=
  converse_keeps (fun _ _ h => h) (fun _ x h => h.deliver x) h

lemma Awaits.act (hact : Act setup w w') : w'.Awaits := by
  cases hact with
  | @record e he =>
    refine h.record ?_
    rintro _ _ rfl
    cases he
  | @ask e owner he =>
    have hdeliver : ∀ id outcome, e ≠ .deliver id outcome := by
      rintro _ _ rfl
      cases he
    intro id hid hpending
    refine unanswered_cons hdeliver ?_
    rcases (AList.mem_insert _).mp hid with rfl | hid
    · exact List.mem_append_left _ (by simp [he])
    · exact List.mem_append_right _ (h id hid hpending)
  | detach he =>
    refine h.record ?_
    rintro _ _ rfl
    cases he
  | forget id => exact fun id' hid hpending => h id' (AList.mem_erase.mp hid).2 hpending
  | converse => exact h.converse
  | drop id =>
    intro id' hid hpending
    obtain ⟨hne,hid⟩ := AList.mem_erase.mp hid
    exact h id' hid fun hmem => hpending (AList.mem_erase.mpr ⟨hne,hmem⟩)
  | context _ => exact h
  | frames _ => exact h

lemma Awaits.acts (hacts : Acts setup w w') : w'.Awaits := by
  induction hacts with
  | refl => exact h
  | tail _ hact ih => exact ih.act hact

end World

def Reference.Result.value : Result → StepDataValue
  | .completed value => value
  | .ended value => value

lemma Reference.evaluate_eq_some {setup : Setup} {answer : ChildTask → String} {limit n : ℕ}
    {document : Document n} {invocationInput : String} {value : StepDataValue}
    (h : evaluate setup answer limit document invocationInput = some value) :
    ∃ data r, WorkflowInterpreter.seed setup document invocationInput = .ok data ∧
      fromStep setup.engine [] document.do_ (bodies setup.engine answer limit n) limit 0 data = some r ∧
      documentOutput setup.engine (document.output.bind Output.as_) r.value = some value := by
  rw [evaluate] at h
  split at h
  · cases h
  next data hdata =>
  split at h
  · cases h
  · next inner hinner => exact ⟨data,.completed inner,hdata,hinner,h⟩
  · next inner hinner => exact ⟨data,.ended inner,hdata,hinner,h⟩

lemma LawfulLog.results (h : LawfulLog log) {result : TaskResult}
    (hresult : .complete result ∈ log) : log.filterMap Event.result? = [result] := by
  induction log with
  | nil => cases hresult
  | cons e before ih =>
    rcases List.mem_cons.mp hresult with rfl | hbefore
    · have hnone : before.filterMap Event.result? = [] := by
        refine List.filterMap_eq_nil_iff.mpr fun e he => ?_
        cases e with
        | complete r => exact absurd he (h.1.2.1 r)
        | _ => rfl
      exact congrArg (result :: ·) hnone
    · cases e with
      | complete r => exact absurd hbefore (h.1.2.1 result)
      | _ => exact ih h.2 hbefore

namespace WorkflowInterpreter
variable {setup : Setup} {answer : ChildTask → String} {limit : ℕ} {value : StepDataValue}
  {i : WorkflowInterpreter} {v : StepDataValue}

/-- The root frame is bound for a result from which the document's output is this value. -/
def HeadsFor (setup : Setup) (answer : ChildTask → String) (limit : ℕ) (value : StepDataValue)
    (i : WorkflowInterpreter) : Prop :=
  ∀ n (f : Frame n), i.root = some ⟨n,f⟩ →
    ∃ r, f.BoundFor setup answer (plan setup answer limit n) i.world.log r ∧
      Reference.documentOutput setup.engine i.documentOutput r.value = some value

def RootWaits (i : WorkflowInterpreter) : Prop :=
  ∀ n (f : Frame n), i.root = some ⟨n,f⟩ → ∃ v ∈ f.views, v.slot.2.isSome = true

structure Directed (setup : Setup) (answer : ChildTask → String) (limit : ℕ) (value : StepDataValue)
    (i : WorkflowInterpreter) : Prop where
  tracks : i.Tracks (contextAccount setup)
  heads : HeadsFor setup answer limit value i
  queued : i.world.Queued
  awaits : i.world.Awaits

structure Done (setup : Setup) (value : StepDataValue) (i : WorkflowInterpreter) : Prop where
  state : i.state = .succeeded
  result : .complete ⟨setup.parentId,value.bytes,.ok,true⟩ ∈ i.world.log

lemma HeadsFor.mono {j : WorkflowInterpreter} (h : HeadsFor setup answer limit value i) (hroot : j.root = i.root)
    (houtput : j.documentOutput = i.documentOutput) (hlog : i.world.log ⊆ j.world.log) :
    HeadsFor setup answer limit value j := by
  intro n f hf
  obtain ⟨r,hbound,hvalue⟩ := h n f (hroot ▸ hf)
  exact ⟨r,hbound.mono hlog,houtput ▸ hvalue⟩

lemma Directed.setState (h : Directed setup answer limit value i) (new : State) :
    Directed setup answer limit value (i.setState new) where
  tracks := h.tracks.setState new
  heads := h.heads.mono rfl rfl (List.subset_cons_self _ _)
  queued id outcome hid := List.mem_cons_of_mem _ (h.queued id outcome hid)
  awaits := h.awaits.record nofun

inductive Driving (setup : Setup) (answer : ChildTask → String) (limit : ℕ) (value : StepDataValue)
    (i : WorkflowInterpreter) : Prop
  | going (hstate : i.state = .advancing) (h : Directed setup answer limit value i) (hwaits : i.RootWaits)
  | done (h : Done setup value i)

lemma documentResult_eq (hcontext : i.world.context = emptyContext)
    (h : Reference.documentOutput setup.engine i.documentOutput v = some value) :
    i.documentResult setup v = .ok value := by
  rw [documentResult]
  cases has : i.documentOutput with
  | none =>
    rw [has] at h
    cases h
    rfl
  | some as_ =>
    rw [has,Reference.documentOutput] at h
    cases hsubject : v.json with
    | none =>
      rw [hsubject] at h
      cases h
    | some subject =>
      rw [hsubject] at h
      dsimp only at h
      rw [← hcontext] at h
      cases hresult : setup.engine.evaluateTypedSlot (slotValue as_) .documentOutput subject
          { context := some i.world.context } with
      | error message =>
        rw [hresult] at h
        cases h
      | ok result =>
        rw [hresult] at h
        cases h
        dsimp only
        rw [hresult]
        rfl

lemma finish_done (hcontext : i.world.context = emptyContext)
    (h : Reference.documentOutput setup.engine i.documentOutput v = some value) :
    Done setup value (i.finish setup v) := by
  have hresult := documentResult_eq (i := { i with world := i.world.record (.concluded v) }) hcontext h
  simp only [finish,hresult]
  exact ⟨rfl,List.mem_cons_self⟩

section Fresh
variable (hfresh : Function.Injective setup.freshId) {outcome : ChildOutcome}
include hfresh

lemma Directed.advanceRoot (h : Directed setup answer limit value i) (hstate : i.state = .advancing)
    (hfair : Fair answer (i.advanceRoot setup).world.log) :
    Driving setup answer limit value (i.advanceRoot setup) := by
  have hrouted := h.tracks.advanceRoot hfresh hstate
  obtain ⟨n,f,hroot,hlive,hagrees⟩ := h.tracks
  obtain ⟨r,hbound,hvalue⟩ := h.heads n f hroot
  have hacts := (frameOps_bounded setup n).advance f i.world
  have hadvances := (frameOps_follows setup answer limit n).advance f i.world r hbound h.queued hagrees.holds
  rw [WorkflowInterpreter.advanceRoot,hroot] at hrouted hfair ⊢
  dsimp only at hrouted hfair ⊢
  generalize (frameOps setup n).advance f i.world = out at hacts hadvances hrouted hfair ⊢
  obtain ⟨result,f',w'⟩ := out
  have hlog : w'.log <:+ (terminalize setup { i with root := some ⟨n,f'⟩, world := w' } result).world.log :=
    (log_maintained setup w'.log).terminalize (i := { i with root := some ⟨n,f'⟩, world := w' })
      List.suffix_rfl result
  cases hadvances (hfair.of_suffix hlog) with
  | suspended hcontext hbound' hwaits =>
    have htracks : ({ i with root := some ⟨n,f'⟩, world := w' } : WorkflowInterpreter).Tracks
        (contextAccount setup) := by
      cases hrouted with
      | spoiled h => exact h.elim
      | going h _ => exact h
      | ended hterminal => simp [terminalize,hstate,State.isTerminal] at hterminal
    refine .going hstate ⟨htracks,?_,h.queued.acts hacts,h.awaits.acts hacts⟩ ?_
    · rintro _ _ ⟨⟩
      exact ⟨r,hbound',hvalue⟩
    · rintro _ _ ⟨⟩
      rw [SequenceFrame.Waits,plan_views] at hwaits
      exact hwaits
  | completed hcontext _ hr =>
    subst hr
    exact .done (finish_done hcontext hvalue)
  | ended hcontext hr =>
    subst hr
    exact .done (finish_done hcontext hvalue)

lemma HeadsFor.applyOutcome (htracks : i.Tracks (contextAccount setup)) (h : HeadsFor setup answer limit value i)
    {id : String} {frame : FrameId} (hid : i.world.owners.lookup id = some frame)
    (houtcome : ∀ child, .submit id child ∈ i.world.log → outcome.status = .ok ∧ outcome.body = answer child) :
    HeadsFor setup answer limit value
        ({ i with world := i.world.forgetChild id }.applyOutcome setup id frame outcome) ∧
      ({ i with world := i.world.forgetChild id }.applyOutcome setup id frame outcome).world =
        i.world.forgetChild id := by
  obtain ⟨n,f,hroot,hlive,hagrees⟩ := htracks
  obtain ⟨r,hbound,hvalue⟩ := h n f hroot
  have hcontext : (i.world.forgetChild id).context = emptyContext := hagrees.holds
  have hmem := (hagrees.owns.routes.lookup id frame).mp hid
  -- no other frame has this address
  have hslots : ∀ v ∈ f.views, v.slot.1 = frame → v.slot.2 = some id := by
    rintro v hv rfl
    exact hagrees.owns.routes.eq_of_mem (List.mem_map.mpr ⟨v,hv,rfl⟩) hmem
  rw [Frame.views,← level_childViews (contextAccount setup)] at hagrees hmem
  obtain ⟨out,hout,-⟩ := (frameOps_exact hfresh (contextAccount setup) n).hit [] frame id outcome f i.world hlive
    (by rwa [List.append_nil]) hmem
  have hfollows := (frameOps_follows setup answer limit n).applyOutcome frame id outcome f (i.world.forgetChild id)
    r out hbound
  rw [plan_views] at hfollows
  obtain ⟨hworld,hbound'⟩ := hfollows hslots houtcome hcontext hout
  rw [WorkflowInterpreter.applyOutcome,hroot]
  dsimp only
  rw [hout]
  refine ⟨?_,hworld⟩
  rintro _ _ ⟨⟩
  refine ⟨r,?_,hvalue⟩
  change SequenceFrame.BoundFor _ _ _ out.2.log _ _
  rw [hworld]
  exact hbound'

lemma Directed.drainOne (h : Directed setup answer limit value i) (hstate : i.state = .advancing)
    (hwaits : i.RootWaits) {id : String} (hid : i.world.pending.lookup id = some outcome)
    (hfair : Fair answer (i.drainOne setup id outcome).world.log) :
    Driving setup answer limit value (i.drainOne setup id outcome) := by
  have hdelivered := h.queued id outcome hid
  have hlog : i.world.log <:+ (i.drainOne setup id outcome).world.log :=
    (log_maintained setup i.world.log).drainOne List.suffix_rfl id outcome
  have houtcome := (hfair.of_suffix hlog).answers id outcome
  let i' : WorkflowInterpreter := { i with world := { i.world with pending := i.world.pending.erase id } }
  have htracks : i'.Tracks (contextAccount setup) := h.tracks.same rfl fun _ h => h.same rfl rfl rfl rfl rfl
  have hheads : HeadsFor setup answer limit value i' := h.heads
  have hqueued : i'.world.Queued := fun id outcome hid =>
    h.queued id outcome (Strij.Lib.lookup_erase_eq_some hid).2
  rw [WorkflowInterpreter.drainOne] at hfair ⊢
  split at hfair
  · next hnone =>
    have hawaits : i'.world.Awaits := by
      intro id' hid' hpending
      refine h.awaits id' hid' fun hmem => hpending (AList.mem_erase.mpr ⟨?_,hmem⟩)
      rintro rfl
      exact AList.lookup_eq_none.mp hnone hid'
    exact .going hstate ⟨htracks,hheads,hqueued,hawaits⟩ hwaits
  · next frame hframe =>
    obtain ⟨hheads',hworld⟩ := hheads.applyOutcome hfresh htracks hframe fun child => houtcome child hdelivered
    refine Directed.advanceRoot hfresh ⟨htracks.applyOutcome hfresh hframe outcome,hheads',?_,?_⟩ ?_ hfair
    · rw [hworld]
      exact hqueued
    · rw [hworld]
      have hdrop : Act setup i.world (i.world.drop id) := .drop id
      exact h.awaits.act hdrop
    · rw [applyOutcome_state]
      exact hstate

lemma Driving.drain (h : Driving setup answer limit value i) (k : ℕ)
    (hfair : Fair answer (drain setup k i).world.log) : Driving setup answer limit value (drain setup k i) := by
  induction k generalizing i with
  | zero => exact h
  | succ k ih =>
    cases h with
    | done h =>
      rw [WorkflowInterpreter.drain,if_pos (by rw [h.state]; rfl)]
      exact .done h
    | going hstate h hwaits =>
      rw [WorkflowInterpreter.drain,if_neg (by simp [hstate,State.isTerminal])] at hfair ⊢
      split at hfair
      · exact .going hstate h hwaits
      split at hfair
      · exact .going hstate h hwaits
      · next outcome houtcome =>
        refine ih (h.drainOne hfresh hstate hwaits houtcome ?_) hfair
        exact hfair.of_suffix ((log_maintained setup _).drain List.suffix_rfl k)

end Fresh

inductive Rests (setup : Setup) (answer : ChildTask → String) (limit : ℕ) (value : StepDataValue)
    (i : WorkflowInterpreter) : Prop
  | ready (hstate : i.state = .ready) (h : Directed setup answer limit value i) (hwaits : i.RootWaits)
      (hpending : i.world.pending.keys = [])
  | done (h : Done setup value i)

lemma run_log_suffix (i : WorkflowInterpreter) (calls : List Call) :
    i.world.log <:+ (i.run setup calls).world.log := by
  induction calls generalizing i with
  | nil => exact List.suffix_rfl
  | cons call calls ih =>
    refine List.IsSuffix.trans ?_ (ih (i.step setup call))
    exact (log_maintained setup i.world.log).step List.suffix_rfl call fun text _ _ => log_roots _ _ text

section Fresh
variable (hfresh : Function.Injective setup.freshId)
include hfresh

lemma Directed.drive (h : Directed setup answer limit value i) (hready : i.state = .ready)
    (hfair : Fair answer (i.drive setup).world.log) : Rests setup answer limit value (i.drive setup) := by
  rw [WorkflowInterpreter.drive,if_pos hready] at hfair ⊢
  dsimp only at hfair ⊢
  have hdriving : Fair answer (drain setup (workLeft ((i.setState .advancing).advanceRoot setup).world)
      ((i.setState .advancing).advanceRoot setup)).world.log →
      Driving setup answer limit value (drain setup (workLeft ((i.setState .advancing).advanceRoot setup).world)
        ((i.setState .advancing).advanceRoot setup)) := by
    intro hfair
    refine ((h.setState .advancing).advanceRoot hfresh rfl ?_).drain hfresh _ hfair
    exact hfair.of_suffix ((log_maintained setup _).drain List.suffix_rfl _)
  split at hfair
  · next hterminal =>
    rw [if_pos hterminal]
    cases hdriving hfair with
    | going hstate => simp [hstate,State.isTerminal] at hterminal
    | done h => exact .done h
  · next hrunning =>
    rw [if_neg hrunning]
    cases hdriving (hfair.of_suffix (List.suffix_cons _ _)) with
    | going hstate h hwaits =>
      exact .ready rfl (h.setState .ready) hwaits (drain_pending le_rfl (by simpa using hrunning))
    | done h => simp [h.state,State.isTerminal] at hrunning

variable (h : Rests setup answer limit value i)
include h

lemma Rests.onChildOutcome (id : String) (outcome : ChildOutcome)
    (hfair : Fair answer (i.onChildOutcome setup id outcome).world.log) :
    Rests setup answer limit value (i.onChildOutcome setup id outcome) := by
  have hlog : .deliver id outcome ∈ (i.onChildOutcome setup id outcome).world.log :=
    ((log_maintained setup (.deliver id outcome :: i.world.log)).of_deliver (i := i) List.suffix_rfl).mem
      List.mem_cons_self
  have hsuffix : i.world.log <:+ (i.onChildOutcome setup id outcome).world.log :=
    (log_maintained setup i.world.log).onChildOutcome List.suffix_rfl id outcome
  cases h with
  | done h =>
    simp only [WorkflowInterpreter.onChildOutcome]
    rw [if_pos (by rw [h.state]; rfl)]
    exact .done ⟨h.state,List.mem_cons_of_mem _ h.result⟩
  | ready hstate h hwaits hpending =>
    let i' : WorkflowInterpreter := { i with world := i.world.record (.deliver id outcome) }
    have htracks : i'.Tracks (contextAccount setup) := h.tracks.same rfl fun _ h => h.record rfl
    have hheads : HeadsFor setup answer limit value i' := h.heads.mono rfl rfl (List.subset_cons_self _ _)
    have hqueued : i'.world.Queued := fun id outcome hid => List.mem_cons_of_mem _ (h.queued id outcome hid)
    have hothers : ∀ id' ∈ i.world.owners, id' ≠ id → id' ∉ i.world.pending → id' ∈ unanswered i'.world.log :=
      fun id' hid' hne hpending => unanswered_deliver (h.awaits id' hid' hpending) hne
    have houtcome : ∀ child, .submit id child ∈ i'.world.log →
        outcome.status = .ok ∧ outcome.body = answer child := by
      intro child hchild
      refine hfair.answers id outcome child hlog (hsuffix.mem ?_)
      rcases List.mem_cons.mp hchild with heq | hchild
      · cases heq
      · exact hchild
    simp only [WorkflowInterpreter.onChildOutcome] at hfair ⊢
    rw [if_neg (by simp [hstate,State.isTerminal])] at hfair ⊢
    split at hfair
    · next hnone =>
      refine .ready hstate ⟨htracks,hheads,hqueued,fun id' hid' hpending => ?_⟩ hwaits hpending
      refine hothers id' hid' ?_ hpending
      rintro rfl
      exact AList.lookup_eq_none.mp hnone hid'
    · next frame hframe =>
      rw [if_neg (by simp [hstate])] at hfair ⊢
      obtain ⟨hheads',hworld⟩ := hheads.applyOutcome hfresh htracks hframe houtcome
      refine Directed.drive hfresh ⟨htracks.applyOutcome hfresh hframe outcome,hheads',?_,?_⟩ ?_ hfair
      · rw [hworld]
        exact hqueued
      · rw [hworld]
        intro id' hid' hpending
        obtain ⟨hne,hid'⟩ := AList.mem_erase.mp hid'
        exact hothers id' hid' hne hpending
      · rw [applyOutcome_state]
        exact hstate

omit h in
lemma start_rests (script : List Reply) {documentText invocationInput : String} {document : AnyDocument}
    (hparse : setup.parse documentText = .ok document) (hmode : validateEvaluateMode document.2 = .ok ())
    (hvalid : validateDocument setup.engine setup.parse document.2 = .ok ()) (hexport : NoExport document.2.do_)
    (hvalue : Reference.evaluate setup answer limit document.2 invocationInput = some value)
    (hfair : Fair answer ((create script).start setup documentText invocationInput).world.log) :
    Rests setup answer limit value ((create script).start setup documentText invocationInput) := by
  obtain ⟨data,r,hdata,hr,hvalue⟩ := Reference.evaluate_eq_some hvalue
  rw [start,if_neg (by simp [create]),hparse] at hfair ⊢
  dsimp only at hfair ⊢
  simp only [startDocument,hmode,hvalid,hdata] at hfair ⊢
  refine Directed.drive hfresh (Directed.setState ⟨?_,?_,?_,?_⟩ .ready) rfl hfair
  · exact entered_tracks (i := create script) rfl rfl hexport.plain data rfl rfl
  · rintro _ _ ⟨⟩
    refine ⟨r,.ready ⟨rfl,rfl,rfl⟩ ⟨rfl,rfl⟩ limit ?_,hvalue⟩
    rw [SequenceFrame.rest,plan_body]
    exact hr
  · intro _ _ hid
    cases hid
  · exact fun _ hid => absurd hid (AList.notMem_empty _)

lemma Rests.run (outcomes : List (String × ChildOutcome))
    (hfair : Fair answer (i.run setup (outcomes.map fun x => .onChildOutcome x.1 x.2)).world.log) :
    Rests setup answer limit value (i.run setup (outcomes.map fun x => .onChildOutcome x.1 x.2)) := by
  induction outcomes generalizing i with
  | nil => exact h
  | cons x outcomes ih => exact ih (h.onChildOutcome hfresh x.1 x.2 (hfair.of_suffix (run_log_suffix _ _))) hfair

omit hfresh in
lemma Rests.isDone (hnone : unanswered i.world.log = []) : Done setup value i := by
  cases h with
  | done h => exact h
  | ready _ h hwaits hpending =>
    obtain ⟨n,f,hroot,-,hagrees⟩ := h.tracks
    obtain ⟨v,hv,hslot⟩ := hwaits n f hroot
    obtain ⟨id,hid⟩ := Option.isSome_iff_exists.mp hslot
    have hmem : (v.slot.1,some id) ∈ f.views.map FrameView.slot :=
      List.mem_map.mpr ⟨v,hv,Prod.ext rfl hid⟩
    have howner : id ∈ i.world.owners :=
      AList.lookup_isSome.mp (by rw [(hagrees.owns.routes.lookup id v.slot.1).mpr hmem]; rfl)
    have hnot : id ∉ i.world.pending := by
      rw [AList.mem_keys,hpending]
      exact List.not_mem_nil
    have hout := h.awaits id howner hnot
    simp [hnone] at hout

end Fresh

/-- A document without `export` for which the evaluator has a value, with children that answer as the
evaluator has it: in whatever order the outcomes arrive, inside a call or later, once no child is
unanswered the run has completed once, with that value. -/
theorem completes_as_evaluated (setup : Setup) (hfresh : Function.Injective setup.freshId)
    (answer : ChildTask → String) (limit : ℕ) (document : AnyDocument) (documentText invocationInput : String)
    (hparse : setup.parse documentText = .ok document) (hmode : validateEvaluateMode document.2 = .ok ())
    (hvalid : validateDocument setup.engine setup.parse document.2 = .ok ()) (hexport : NoExport document.2.do_)
    (value : StepDataValue)
    (hvalue : Reference.evaluate setup answer limit document.2 invocationInput = some value)
    (script : List Reply) (outcomes : List (String × ChildOutcome))
    (hfair : Fair answer ((create script).run setup (.start documentText invocationInput ::
      outcomes.map fun x => .onChildOutcome x.1 x.2)).world.log)
    (hnone : unanswered ((create script).run setup (.start documentText invocationInput ::
      outcomes.map fun x => .onChildOutcome x.1 x.2)).world.log = []) :
    ((create script).run setup (.start documentText invocationInput ::
        outcomes.map fun x => .onChildOutcome x.1 x.2)).state = .succeeded ∧
      ((create script).run setup (.start documentText invocationInput ::
        outcomes.map fun x => .onChildOutcome x.1 x.2)).world.log.filterMap Event.result? =
        [⟨setup.parentId,value.bytes,.ok,true⟩] := by
  have hstart := start_rests hfresh script hparse hmode hvalid hexport hvalue
    (hfair.of_suffix (run_log_suffix _ (outcomes.map fun x => .onChildOutcome x.1 x.2)))
  have hdone := (hstart.run hfresh outcomes hfair).isDone hnone
  exact ⟨hdone.state,((create_inv script).run _).lawful.results hdone.result⟩

end WorkflowInterpreter

section Miniature

def Event.answersTrue : Event → Bool
  | .budget => false
  | .deliver _ outcome => outcome.status = .ok && outcome.body = "true"
  | _ => true

lemma fair_of_answersTrue {log : List Event} (h : log.all Event.answersTrue = true) :
    Fair (fun _ => "true") log where
  budget hmem := nomatch List.all_eq_true.mp h _ hmem
  answers id outcome _ hdeliver _ := by
    simpa [Event.answersTrue] using List.all_eq_true.mp h _ hdeliver

end Miniature

namespace WorkflowInterpreter

/-- A fork of two calls; the second child answers inside its `Submit`, the first one later. -/
theorem completes_as_evaluated_twoCalls :
    let i := (create [{},{ outcomes := [("c",⟨"true","",.ok⟩)] }]).run (miniSetup twoCalls)
      [.start "" "",.onChildOutcome "" ⟨"true","",.ok⟩]
    i.state = .succeeded ∧ i.world.log.filterMap Event.result? = [⟨"w","[true,true]",.ok,true⟩] := by
  have hexport : NoExport twoCalls.do_ := by
    simp [NoExport,EveryTask,twoCalls,miniCall,TaskBody.nested]
  obtain ⟨value,hvalue,hbytes⟩ : ∃ value,
      Reference.evaluate (miniSetup twoCalls) (fun _ => "true") 2 twoCalls "" = some value ∧
        value.bytes = "[true,true]" := ⟨_,rfl,by decide +kernel⟩
  rw [← hbytes]
  exact completes_as_evaluated (miniSetup twoCalls) (miniSetup_fresh twoCalls) (fun _ => "true") 2 ⟨2,twoCalls⟩ "" ""
    rfl (by decide +kernel) (by decide +kernel) hexport value hvalue _ [("",⟨"true","",.ok⟩)]
    (fair_of_answersTrue (by decide +kernel)) (by decide +kernel)

end WorkflowInterpreter
end Strij.OpenWorkflow
