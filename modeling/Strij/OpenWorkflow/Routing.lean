import Strij.OpenWorkflow.FrameRuns

/-! The routing table of a run of a document without `export`. The context does not change, so a step
whose nested frame is live passes its `if` again whenever it is taken up. -/
namespace Strij.OpenWorkflow

abbrev emptyContext : Jv := .object []

def contextAccount (setup : Setup) : Account setup where
  Holds w _ := w.context = emptyContext
  Ended _ := True
  Spoiled _ := False
  plain step := step.task.export_ = none
  steady step f := evaluateCondition setup.engine emptyContext f.scope step f.data = .ok true
  Taken w step f _ := w.context = emptyContext ∧
    evaluateCondition setup.engine emptyContext f.scope step f.data = .ok true
  start _ := rfl
  perm h _ := h
  drop h := h
  newFrame h := h
  view h := h
  silent hs h := by
    cases hs with
    | record => exact h
    | same _ hcontext => exact hcontext.trans h
  ended _ := trivial
  ended_silent _ _ := trivial
  spoiled _ h := h
  context hplain hc h := (hc hplain).trans h
  takeUp := by
    intro β κ step f w l hready hsteady h
    have hw : (f.takenUp w step).context = emptyContext := (SequenceFrame.takenUp_context f w step).trans h
    rw [h]
    refine .inr ⟨trivial,fun hskip => ⟨?_,hw⟩,fun htake => ⟨trivial,fun input _ => ?_⟩⟩
    · rw [← Option.not_isSome_iff_eq_none]
      intro hchild
      cases hskip.symm.trans (hsteady hchild)
    · exact ⟨(SequenceFrame.transforming_context f _ step).trans hw,htake⟩
  taken h := h.1
  enter _ h _ _ := ⟨h.2,h.1⟩
  again h _ := ⟨h.2,h.1⟩
  leave _ _ h := h
  steady_child _ h := h

lemma NoExport.plain {setup : Setup} {n : ℕ} {tasks : Tasks n} (h : NoExport tasks) :
    WorkflowInterpreter.Plain (contextAccount setup) tasks := by
  induction n with
  | zero => exact fun s _ => s.task.body.elim
  | succ n ih => exact fun s hs => ⟨(h s hs).1,ih (h s hs).2⟩

namespace WorkflowInterpreter
variable {setup : Setup}

lemma create_exact (script : List Reply) : Exact (contextAccount setup) (create script) :=
  .idle rfl rfl rfl rfl

/-- Between the calls of a run without `export`, a run that is ready has an empty queue, and the
routing table sends exactly the ids that active frames wait for to those frames. -/
theorem routing_exact (setup : Setup) (hfresh : Function.Injective setup.freshId) (script : List Reply)
    (calls : List Call) (hexport : ∀ text input document, .start text input ∈ calls →
      setup.parse text = .ok document → NoExport document.2.do_)
    (hready : ((create script).run setup calls).state = .ready) :
    ∃ n, ∃ f : Frame n, ((create script).run setup calls).root = some ⟨n,f⟩ ∧
      ((create script).run setup calls).world.pending = ∅ ∧
      (∀ id frame, ((create script).run setup calls).world.owners.lookup id = some frame ↔
        (frame,some id) ∈ f.slots) ∧ (f.slots.map Prod.fst).Nodup ∧ (f.slots.filterMap Prod.snd).Nodup := by
  have h := (create_exact script).run hfresh fun text input document hmem hparse =>
    (hexport text input document hmem hparse).plain
  cases h with
  | spoiled h => exact h.elim
  | idle hidle => cases hidle.symm.trans hready
  | ended hterminal => simp [hready,State.isTerminal] at hterminal
  | ready _ h hpending =>
    obtain ⟨n,f,hroot,-,h⟩ := h
    refine ⟨n,f,hroot,?_,h.owns.routes.lookup,h.owns.routes.nodup,h.owns.routes.keys_nodup⟩
    exact AList.ext (List.map_eq_nil_iff.mp hpending)

def twoCalls : Document 2 where
  do_ := [⟨"f",{ body := .fork ⟨[miniCall "a",miniCall "b"],false⟩ }⟩]

theorem routing_exact_twoCalls : let i := (create []).run (miniSetup twoCalls) [.start "" ""]
    i.world.owners.keys.length = 2 ∧ ∃ n, ∃ f : Frame n, i.root = some ⟨n,f⟩ ∧ i.world.pending = ∅ ∧
      (∀ id frame, i.world.owners.lookup id = some frame ↔ (frame,some id) ∈ f.slots) ∧
      (f.slots.map Prod.fst).Nodup ∧ (f.slots.filterMap Prod.snd).Nodup := by
  refine ⟨by decide +kernel,routing_exact _ (miniSetup_fresh twoCalls) [] _ ?_ (by decide +kernel)⟩
  rintro _ _ _ - ⟨⟩
  simp [NoExport,EveryTask,twoCalls,miniCall,TaskBody.nested]

end WorkflowInterpreter
end Strij.OpenWorkflow
