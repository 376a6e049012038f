import Strij.OpenWorkflow.Acts

/-! What every call keeps. A property of the frame tree and the world that the frames keep, and that
does not depend on what the interpreter itself records, holds throughout a run. -/
namespace Strij.OpenWorkflow
open Strij.Wire (TaskStatus)

namespace WorkflowInterpreter
variable {setup : Setup} {G : Option (Σ n, Frame n) → World → Prop}

structure Maintained (setup : Setup) (G : Option (Σ n, Frame n) → World → Prop) : Prop where
  record : ∀ {root w} {e : Event}, e.asksFor = none → e.isDefect = false → G root w →
    G root (w.record e)
  same : ∀ {root} {w w' : World}, w'.log = w.log → w'.nextChild = w.nextChild → G root w → G root w'
  advance : ∀ {n} {f : Frame n} {w}, G (some ⟨n,f⟩) w →
    G (some ⟨n,((frameOps setup n).advance f w).2.1⟩) ((frameOps setup n).advance f w).2.2
  applyOutcome : ∀ {n} {f : Frame n} {w id outcome r}, G (some ⟨n,f⟩) w →
    (frameOps setup n).applyOutcome id outcome f w = some r → G (some ⟨n,r.1⟩) r.2

abbrev Has (G : Option (Σ n, Frame n) → World → Prop) (i : WorkflowInterpreter) : Prop :=
  G i.root i.world

def Roots (setup : Setup) (G : Option (Σ n, Frame n) → World → Prop) (text : String) : Prop :=
  ∀ (document : AnyDocument) root w, setup.parse text = .ok document →
    validateDocument setup.engine setup.parse document.2 = .ok () → G root w →
      ∀ data id, G (some ⟨document.1,rootFrame setup document.2 data id⟩) w

namespace Maintained
variable (hG : Maintained setup G) {i : WorkflowInterpreter}
include hG

variable (h : i.Has G)
include h

lemma fail (status : TaskStatus) (step message : String) :
    (i.fail setup status step message).Has G := hG.record rfl rfl (hG.record rfl rfl h)

lemma finish (value : StepDataValue) : (i.finish setup value).Has G := by
  have hconcluded : G i.root (i.world.record (.concluded value)) := hG.record rfl rfl h
  rw [WorkflowInterpreter.finish]
  split
  · exact hG.record rfl rfl (hG.record rfl rfl hconcluded)
  · exact hG.fail (i := { i with world := _ }) hconcluded _ _ _

lemma terminalize (r : FrameResult) : (i.terminalize setup r).Has G := by
  cases r with
  | suspended => exact h
  | completed value => exact hG.finish h value
  | ended value => exact hG.finish h value
  | failed failure => exact hG.fail h _ _ _

lemma advanceRoot : (i.advanceRoot setup).Has G := by
  rw [WorkflowInterpreter.advanceRoot]
  split
  · exact h
  · next n f hroot =>
    rw [Has,hroot] at h
    exact hG.terminalize (i := { i with root := _, world := _ }) (hG.advance h) _

lemma applyOutcomeTo (id : String) (frame : FrameId) (outcome : ChildOutcome) :
    (i.applyOutcome setup id frame outcome).Has G := by
  rw [WorkflowInterpreter.applyOutcome]
  split
  · exact h
  next n f hroot =>
  split
  · next r hr =>
    rw [Has,hroot] at h
    exact hG.applyOutcome h hr
  · exact hG.record rfl rfl h

lemma drainOne (id : String) (outcome : ChildOutcome) : (i.drainOne setup id outcome).Has G := by
  rw [WorkflowInterpreter.drainOne]
  split
  · exact hG.same (w := i.world) rfl rfl h
  · apply hG.advanceRoot
    apply hG.applyOutcomeTo
    exact hG.same (w := i.world) rfl rfl h

lemma drain (k : ℕ) : (drain setup k i).Has G :=
  drain_keeps (P := Has G) (fun _ id outcome h _ _ => hG.drainOne h id outcome) h k

lemma drive : (i.drive setup).Has G := by
  rw [WorkflowInterpreter.drive]
  split
  · have h' : ((i.setState .advancing).advanceRoot setup).Has G := hG.advanceRoot (hG.record rfl rfl h)
    dsimp only
    split
    · exact hG.drain h' _
    · exact hG.record rfl rfl (hG.drain h' _)
  · exact h

lemma start {text : String} (hroots : Roots setup G text) (input : String) :
    (i.start setup text input).Has G := by
  rw [WorkflowInterpreter.start]
  split
  · exact h
  split
  · exact hG.fail h _ _ _
  next document hparse =>
  rw [startDocument]
  split
  · exact hG.fail (i := { i with documentOutput := _ }) h _ _ _
  split
  · exact hG.fail (i := { i with documentOutput := _ }) h _ _ _
  next hvalid =>
  split
  · exact hG.fail (i := { i with documentOutput := _ }) h _ _ _
  · apply hG.drive
    apply hG.record rfl rfl
    exact hG.same (w := i.world) rfl rfl (hroots _ _ _ hparse hvalid h _ _)

omit h in
lemma of_deliver {id : String} {outcome : ChildOutcome}
    (h : G i.root (i.world.record (.deliver id outcome))) : (i.onChildOutcome setup id outcome).Has G := by
  simp only [WorkflowInterpreter.onChildOutcome]
  split
  · exact h
  split
  · exact h
  split
  · exact hG.same (w := i.world.record (.deliver id outcome)) rfl rfl h
  · apply hG.drive
    apply hG.applyOutcomeTo
    exact hG.same (w := i.world.record (.deliver id outcome)) rfl rfl h

lemma onChildOutcome (id : String) (outcome : ChildOutcome) :
    (i.onChildOutcome setup id outcome).Has G := hG.of_deliver (hG.record rfl rfl h)

omit h in
lemma cancelRuns {root : Option (Σ n, Frame n)} {w : World} (h : G root w) :
    G root (cancelRuns setup w) := cancelRuns_keeps (P := G root) (fun _ _ h => hG.record rfl rfl h) h

lemma cancel : (i.cancel setup).Has G := by
  rw [WorkflowInterpreter.cancel]
  split
  · exact h
  · exact hG.same (w := WorkflowInterpreter.cancelRuns setup (i.setState .cancelled).world) rfl rfl
      (hG.cancelRuns (hG.record rfl rfl h))

theorem step (call : Call)
    (hroots : ∀ text input, call = .start text input → Roots setup G text) : (i.step setup call).Has G := by
  cases call with
  | start text input => exact hG.start h (hroots text input rfl) input
  | onChildOutcome id outcome => exact hG.onChildOutcome h id outcome
  | cancel => exact hG.cancel h

end Maintained

lemma log_maintained (setup : Setup) (l : List Event) : Maintained setup (fun _ w => l <:+ w.log) where
  record _ _ h := h.trans (List.suffix_cons _ _)
  same hlog _ h := hlog ▸ h
  advance h := h.trans ((frameOps_bounded setup _).advance _ _).log_suffix
  applyOutcome h hr := h.trans ((frameOps_bounded setup _).applyOutcome _ _ _ _ _ hr).log_suffix

lemma log_roots (setup : Setup) (l : List Event) (text : String) :
    Roots setup (fun _ w => l <:+ w.log) text := fun _ _ _ _ _ h _ _ => h

section Orderly
variable {ok : Event → Prop} {valid : (n : ℕ) → Tasks n → Prop}

def OrderlyTree (ok : Event → Prop) (valid : (n : ℕ) → Tasks n → Prop) (root : Option (Σ n, Frame n))
    (w : World) : Prop :=
  (∀ r ∈ root, Frame.Orderly valid True r.1 r.2) ∧ w.Clean ok

theorem orderly_maintained (setup : Setup) (hok : Permissive ok)
    (hdescends : ∀ n, Descends ok (valid (n+1)) (valid n)) : Maintained setup (OrderlyTree ok valid) where
  record hasks hdefect h := ⟨h.1,h.2.record (hok _ hasks hdefect)⟩
  same hlog _ h := ⟨h.1,by rw [World.Clean,hlog]; exact h.2⟩
  advance h := by
    obtain ⟨-,hframe,hclean⟩ := (frameOps_clean setup hok hdescends _).advance _ _
      (h.1 _ rfl) h.2
    refine ⟨?_,hclean⟩
    rintro _ ⟨⟩
    exact hframe
  applyOutcome h hr := by
    obtain ⟨hframe,hclean⟩ := (frameOps_clean setup hok hdescends _).applyOutcome
      _ _ _ _ _ (h.1 _ rfl) h.2 hr
    refine ⟨?_,hclean⟩
    rintro _ ⟨⟩
    exact hframe

lemma orderly_roots (setup : Setup) (hok : Permissive ok)
    (hdescends : ∀ n, Descends ok (valid (n+1)) (valid n)) {text : String}
    (htext : ∀ document : AnyDocument, setup.parse text = .ok document →
      validateDocument setup.engine setup.parse document.2 = .ok () → valid document.1 document.2.do_) :
    Roots setup (OrderlyTree ok valid) text := by
  intro document root w hparse hvalid h data id
  refine ⟨?_,h.2⟩
  rintro _ ⟨⟩
  exact (frameOps_clean setup hok hdescends _).fresh _
    (htext document hparse hvalid) rfl rfl rfl

end Orderly
end WorkflowInterpreter
end Strij.OpenWorkflow
