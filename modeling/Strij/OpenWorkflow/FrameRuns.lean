import Strij.OpenWorkflow.FrameContainers
import Strij.OpenWorkflow.Lifecycle
import Strij.OpenWorkflow.Upkeep

/-! Whole runs. The interpreter keeps its routing table and an account in agreement with the frame
tree, drive after drive, and a drive ends with an empty queue. -/
namespace Strij.OpenWorkflow
open Strij.Wire (TaskStatus)

namespace WorkflowInterpreter
variable {setup : Setup} {i : WorkflowInterpreter} {j : WorkflowInterpreter} {n : ℕ}

variable {A : Account setup}

def Tracks (A : Account setup) (i : WorkflowInterpreter) : Prop :=
  ∃ n, ∃ f : Frame n, i.root = some ⟨n,f⟩ ∧ SequenceFrame.Live A (level A n) f ∧ A.Agrees i.world f.views

inductive Routed (A : Account setup) (i : WorkflowInterpreter) : Prop
  | spoiled (h : A.Spoiled i.world)
  | going (h : i.Tracks A) (hstate : i.state = .advancing)
  | ended (hstate : i.state.isTerminal = true) (h : A.Ended i.world)

lemma Tracks.same (h : i.Tracks A) (hroot : j.root = i.root)
    (hworld : ∀ l, A.Agrees i.world l → A.Agrees j.world l) : j.Tracks A := by
  obtain ⟨n,f,hf,hlive,h⟩ := h
  exact ⟨n,f,hroot.trans hf,hlive,hworld _ h⟩

lemma Tracks.setState (h : i.Tracks A) (new : State) : (i.setState new).Tracks A :=
  h.same rfl fun _ h => h.record rfl

lemma ended_record {w : World} {e : Event} (h : A.Ended w) (he : e.silent = true) : A.Ended (w.record e) :=
  A.ended_silent (.record he) h

lemma ended_fail (h : A.Ended i.world) (status : TaskStatus) (step message : String) :
    A.Ended (i.fail setup status step message).world := ended_record (ended_record h rfl) rfl

lemma ended_finish (h : A.Ended i.world) (value : StepDataValue) : A.Ended (i.finish setup value).world := by
  rw [finish]
  split
  · exact ended_record (ended_record (ended_record h rfl) rfl) rfl
  · exact ended_fail (ended_record h rfl) _ _ _

section Fresh
variable (hfresh : Function.Injective setup.freshId)
include hfresh

lemma Tracks.advanceRoot (h : i.Tracks A) (hstate : i.state = .advancing) :
    Routed A (i.advanceRoot setup) := by
  obtain ⟨n,f,hroot,hlive,h⟩ := h
  have hkept := (frameOps_exact hfresh A n).advance [] f i.world hlive
    (by rwa [level_childViews,List.append_nil])
  rw [WorkflowInterpreter.advanceRoot,hroot]
  dsimp only
  generalize (frameOps setup n).advance f i.world = r at hkept
  obtain ⟨result,f',w'⟩ := r
  cases hkept with
  | spoiled h => exact .spoiled (A.spoiled ((log_maintained setup _).terminalize List.suffix_rfl result) h)
  | suspended hlive h =>
    rw [level_childViews,List.append_nil] at h
    exact .going ⟨n,f',rfl,hlive,h⟩ hstate
  | completed _ _ h => exact .ended (finish_isTerminal _ _) (ended_finish h.ended _)
  | ended h => exact .ended (finish_isTerminal _ _) (ended_finish h _)
  | failed h => exact .ended rfl (ended_fail h _ _ _)

lemma Tracks.applyOutcome (h : i.Tracks A) {id : String} {frame : FrameId}
    (hid : i.world.owners.lookup id = some frame) (outcome : ChildOutcome) :
    ({ i with world := i.world.forgetChild id }.applyOutcome setup id frame outcome).Tracks A := by
  obtain ⟨n,f,hroot,hlive,h⟩ := h
  have hmem := (h.owns.routes.lookup id frame).mp hid
  rw [Frame.views,← level_childViews A] at h hmem
  obtain ⟨r,hr,hlive',h'⟩ := (frameOps_exact hfresh A n).hit [] frame id outcome f i.world hlive
    (by rwa [List.append_nil]) hmem
  rw [level_childViews,List.append_nil] at h'
  rw [WorkflowInterpreter.applyOutcome,hroot]
  dsimp only
  rw [hr]
  exact ⟨n,r.1,rfl,hlive',h'⟩

lemma Tracks.drainOne (h : i.Tracks A) (hstate : i.state = .advancing) (id : String)
    (outcome : ChildOutcome) : Routed A (i.drainOne setup id outcome) := by
  have h' : ({ i with world := { i.world with pending := i.world.pending.erase id } } :
      WorkflowInterpreter).Tracks A := h.same rfl fun _ h => h.same rfl rfl rfl rfl rfl
  rw [WorkflowInterpreter.drainOne]
  split
  · exact .going h' hstate
  · next frame hid =>
    refine (h'.applyOutcome hfresh hid outcome).advanceRoot hfresh ?_
    rw [applyOutcome_state]
    exact hstate

end Fresh

section Queue
variable {id : String}

lemma terminalize_workLeft (i : WorkflowInterpreter) (r : FrameResult) :
    workLeft (i.terminalize setup r).world = workLeft i.world := by
  have hfinish : ∀ value, workLeft (i.finish setup value).world = workLeft i.world := by
    intro value
    rw [finish]
    split <;> rfl
  cases r with
  | completed value => exact hfinish value
  | ended value => exact hfinish value
  | _ => rfl

lemma advanceRoot_workLeft (i : WorkflowInterpreter) :
    workLeft (i.advanceRoot setup).world ≤ workLeft i.world := by
  rw [advanceRoot]
  split
  · exact le_rfl
  · rw [terminalize_workLeft]
    exact ((frameOps_bounded setup _).advance _ _).workLeft

lemma applyOutcome_workLeft (i : WorkflowInterpreter) (id : String) (frame : FrameId)
    (outcome : ChildOutcome) : workLeft (i.applyOutcome setup id frame outcome).world ≤ workLeft i.world := by
  rw [applyOutcome]
  split
  · exact le_rfl
  split
  · next hr => exact ((frameOps_bounded setup _).applyOutcome _ _ _ _ _ hr).workLeft
  · exact le_rfl

lemma drainOne_workLeft (hid : id ∈ i.world.pending) (outcome : ChildOutcome) :
    workLeft (i.drainOne setup id outcome).world < workLeft i.world := by
  have herase : workLeft { i.world with pending := i.world.pending.erase id } < workLeft i.world := by
    have hlength := List.length_erase_of_mem (AList.mem_keys.mp hid)
    have hpos := List.length_pos_of_mem (AList.mem_keys.mp hid)
    simp only [workLeft,AList.keys_erase]
    omega
  rw [drainOne]
  split
  · exact herase
  · exact ((advanceRoot_workLeft _).trans (applyOutcome_workLeft _ _ _ _)).trans_lt herase

lemma firstPending_mem {w : World} (h : firstPending w = some id) : id ∈ w.pending :=
  AList.mem_keys.mpr (List.min?_mem h)

end Queue

lemma Routed.drain (hfresh : Function.Injective setup.freshId) (h : Routed A i) (k : ℕ) :
    Routed A (drain setup k i) := by
  refine drain_keeps (fun i id outcome h hrunning _ => ?_) h k
  cases h with
  | spoiled h => exact .spoiled (A.spoiled ((log_maintained setup _).drainOne List.suffix_rfl id outcome) h)
  | ended hterminal => exact absurd hterminal (by simp [hrunning])
  | going h hstate => exact h.drainOne hfresh hstate id outcome

lemma drain_pending {k : ℕ} (hk : workLeft i.world ≤ k)
    (hrunning : (drain setup k i).state.isTerminal = false) : (drain setup k i).world.pending.keys = [] := by
  induction k generalizing i with
  | zero =>
    refine List.length_eq_zero_iff.mp ?_
    change i.world.pending.keys.length = 0
    simp only [workLeft] at hk
    omega
  | succ k ih =>
    rw [drain] at hrunning ⊢
    split at hrunning
    · next hterminal => simp [hterminal] at hrunning
    next hterminal =>
    rw [if_neg hterminal]
    split at hrunning
    · next hnone => exact List.min?_eq_none_iff.mp hnone
    next id hid =>
    have hmem := firstPending_mem hid
    split at hrunning
    · next hnone => exact absurd hmem (AList.lookup_eq_none.mp hnone)
    next outcome _ =>
    have hless : workLeft (i.drainOne setup id outcome).world < workLeft i.world :=
      drainOne_workLeft hmem outcome
    exact ih (by omega) hrunning

inductive Exact (A : Account setup) (i : WorkflowInterpreter) : Prop
  | spoiled (h : A.Spoiled i.world)
  | idle (hstate : i.state = .idle) (howners : i.world.owners = ∅) (hpending : i.world.pending.keys = [])
      (h : A.Holds i.world [])
  | ready (hstate : i.state = .ready) (h : i.Tracks A) (hpending : i.world.pending.keys = [])
  | ended (hstate : i.state.isTerminal = true) (h : A.Ended i.world)

def Plain (A : Account setup) {n : ℕ} (tasks : Tasks n) : Prop :=
  ∀ s ∈ tasks, A.plain s ∧ (level A n).plain s

lemma rootFrame_live {document : Document n} (hplain : Plain A document.do_)
    (data : StepDataValue) (id : FrameId) :
    SequenceFrame.Live A (level A n) (rootFrame setup document data id) ∧
      (rootFrame setup document data id).Idle :=
  SequenceFrame.live_enter _ _ _ _ hplain rfl rfl

lemma entered_tracks (howners : i.world.owners = ∅) (h : A.Holds i.world [])
    {document : Document n} (hplain : Plain A document.do_) (data : StepDataValue)
    (hroot : j.root = some ⟨n,rootFrame setup document data i.world.nextFrame⟩)
    (hworld : j.world = { i.world with context := .object [], nextFrame := i.world.nextFrame+1 }) :
    j.Tracks A := by
  obtain ⟨hlive,hidle⟩ := rootFrame_live (A := A) hplain data i.world.nextFrame
  have hempty : A.Agrees { i.world with context := .object [] } [] :=
    ⟨⟨by rw [howners]; exact .empty,by simp,by simp [howners]⟩,A.start h⟩
  refine ⟨n,_,hroot,hlive,?_⟩
  rw [hworld]
  change A.Agrees _ (SequenceFrame.views _ (rootFrame setup document data i.world.nextFrame))
  rw [hidle.views]
  exact hempty.newFrame

section Fresh
variable (hfresh : Function.Injective setup.freshId)
include hfresh

lemma Tracks.drive (h : i.Tracks A) (hready : i.state = .ready) : Exact A (i.drive setup) := by
  rw [WorkflowInterpreter.drive,if_pos hready]
  have hrouted := ((h.setState .advancing).advanceRoot hfresh rfl).drain hfresh
    (workLeft ((i.setState .advancing).advanceRoot setup).world)
  dsimp only
  split
  · next hterminal =>
    cases hrouted with
    | spoiled h => exact .spoiled h
    | going h hstate => simp [hstate,State.isTerminal] at hterminal
    | ended _ h => exact .ended hterminal h
  · next hrunning =>
    cases hrouted with
    | spoiled h => exact .spoiled (A.spoiled (List.suffix_cons _ _) h)
    | going h hstate => exact .ready rfl (h.setState _) (drain_pending le_rfl (by simpa using hrunning))
    | ended hterminal => exact absurd hterminal hrunning

lemma startDocument_exact (howners : i.world.owners = ∅) (h : A.Holds i.world [])
    {n : ℕ} {document : Document n} (hplain : Plain A document.do_) (invocationInput : String) :
    Exact A (i.startDocument setup document invocationInput) := by
  rw [startDocument]
  split
  · exact .ended rfl (ended_fail (A.ended h) _ _ _)
  split
  · exact .ended rfl (ended_fail (A.ended h) _ _ _)
  split
  · exact .ended rfl (ended_fail (A.ended h) _ _ _)
  next data _ =>
  exact ((entered_tracks howners h hplain data rfl rfl).setState .ready).drive hfresh rfl

lemma Exact.start (h : Exact A i) (documentText invocationInput : String)
    (hplain : ∀ document, setup.parse documentText = .ok document → Plain A document.2.do_) :
    Exact A (i.start setup documentText invocationInput) := by
  cases h with
  | spoiled h => exact .spoiled (A.spoiled ((log_maintained setup _).start List.suffix_rfl (log_roots _ _ _) _) h)
  | ready hready h hpending =>
    rw [WorkflowInterpreter.start,if_pos (by simp [hready])]
    exact .ready hready h hpending
  | ended hterminal h =>
    rw [WorkflowInterpreter.start,if_pos (by rintro hidle; simp [hidle,State.isTerminal] at hterminal)]
    exact .ended hterminal h
  | idle hidle howners _ h =>
    rw [WorkflowInterpreter.start,if_neg (by simp [hidle])]
    split
    · exact .ended rfl (ended_fail (A.ended h) _ _ _)
    · next document hparse => exact startDocument_exact hfresh howners h (hplain document hparse) _

lemma Exact.onChildOutcome (h : Exact A i) (id : String) (outcome : ChildOutcome) :
    Exact A (i.onChildOutcome setup id outcome) := by
  cases h with
  | spoiled h => exact .spoiled (A.spoiled ((log_maintained setup _).onChildOutcome List.suffix_rfl _ _) h)
  | ended hterminal h =>
    simp only [WorkflowInterpreter.onChildOutcome]
    rw [if_pos hterminal]
    exact .ended hterminal (ended_record h rfl)
  | idle hstate howners hpending h =>
    have hnone : (i.world.record (.deliver id outcome)).owners.lookup id = none := by
      change i.world.owners.lookup id = none
      rw [howners]
      rfl
    simp only [WorkflowInterpreter.onChildOutcome]
    rw [if_neg (by simp [hstate,State.isTerminal]),hnone]
    exact .idle hstate howners hpending (A.silent (.record rfl) h)
  | ready hstate h hpending =>
    have h' : ({ i with world := i.world.record (.deliver id outcome) } : WorkflowInterpreter).Tracks A :=
      h.same rfl fun _ h => h.record rfl
    simp only [WorkflowInterpreter.onChildOutcome]
    rw [if_neg (by simp [hstate,State.isTerminal])]
    split
    · exact .ready hstate h' hpending
    · next frame hid =>
      rw [if_neg (by simp [hstate])]
      refine (h'.applyOutcome hfresh hid outcome).drive hfresh ?_
      rw [applyOutcome_state]
      exact hstate

omit hfresh in
lemma ended_cancelRuns {w : World} (h : A.Ended w) : A.Ended (cancelRuns setup w) :=
  cancelRuns_keeps (fun _ _ h => ended_record h rfl) h

omit hfresh in
lemma Exact.cancel (h : Exact A i) : Exact A (i.cancel setup) := by
  have hcancel : A.Ended i.world → Exact A (i.cancel setup) := by
    intro h
    rw [WorkflowInterpreter.cancel]
    split
    · next hterminal => exact .ended hterminal h
    · have hruns : A.Ended (cancelRuns setup (i.setState .cancelled).world) :=
        ended_cancelRuns (ended_record h rfl)
      exact .ended rfl (A.ended_silent (w := cancelRuns setup _) (.same rfl rfl rfl) hruns)
  cases h with
  | spoiled h => exact .spoiled (A.spoiled ((log_maintained setup _).cancel List.suffix_rfl) h)
  | idle _ _ _ h => exact hcancel (A.ended h)
  | ready _ h =>
    obtain ⟨_,_,-,-,h⟩ := h
    exact hcancel h.ended
  | ended _ h => exact hcancel h

lemma Exact.step (h : Exact A i) (call : Call) (hplain : ∀ text input document, call = .start text input →
    setup.parse text = .ok document → Plain A document.2.do_) : Exact A (i.step setup call) := by
  cases call with
  | start text input => exact h.start hfresh text input fun document => hplain text input document rfl
  | onChildOutcome id outcome => exact h.onChildOutcome hfresh id outcome
  | cancel => exact h.cancel

theorem Exact.run (h : Exact A i) {calls : List Call}
    (hplain : ∀ text input document, .start text input ∈ calls → setup.parse text = .ok document →
      Plain A document.2.do_) : Exact A (i.run setup calls) := by
  induction calls generalizing i with
  | nil => exact h
  | cons call calls ih =>
    refine ih (h.step hfresh call ?_) fun text input document hmem =>
      hplain text input document (List.mem_cons_of_mem _ hmem)
    rintro text input document rfl
    exact hplain text input document List.mem_cons_self

end Fresh

lemma Exact.script (h : Exact A i) (script : List Reply) :
    Exact A { i with world := { i.world with script := script } } := by
  have hsilent : Silent i.world { i.world with script := script } := .same rfl rfl rfl
  cases h with
  | spoiled h => exact .spoiled (A.spoiled (w := i.world) List.suffix_rfl h)
  | idle hstate howners hpending h => exact .idle hstate howners hpending (A.silent hsilent h)
  | ready hstate h hpending =>
    exact .ready hstate (h.same rfl fun _ h => h.same rfl rfl rfl rfl rfl) hpending
  | ended hstate h => exact .ended hstate (A.ended_silent hsilent h)

end WorkflowInterpreter
end Strij.OpenWorkflow
