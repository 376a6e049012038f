import Strij.OpenWorkflow.HandlerInvariant
import Strij.OpenWorkflow.ValidationSound

/-! Validation is sound for the runs of the handler; the depth counts the levels of embedding that are used up.
-/
namespace Strij.OpenWorkflow
open WorkflowInterpreter (SoundTree sound_maintained sound_roots)

def soundRegime (H : HandlerSetup) : Regime H where
  Holds p h := SoundTree (H.setup p h.key) (kDefaultEmbeddedNestingLimit-h.depth) h.interpreter.root
    h.interpreter.world
  Startable depth text := depth = 0 ∨ depth ≤ kDefaultEmbeddedNestingLimit ∧
    Accepted H.engine H.parse (kDefaultEmbeddedNestingLimit-depth) text
  created _ _ _ _ := ⟨by rintro _ ⟨⟩,by rintro _ ⟨⟩⟩
  called {p h} call replies hsound hstartable := by
    refine (sound_maintained (H.setup p h.key) _).step
      (i := { h.interpreter with world := { h.interpreter.world with script := replies } }) hsound call ?_
    intro text input hcall
    refine sound_roots fun document hparse hvalid => ?_
    rcases hstartable text input hcall with hdepth | ⟨-,document',hparse',-,hvalid'⟩
    · rw [hdepth]
      exact hvalid
    · cases hparse.symm.trans hparse'
      exact hvalid'
  nested hsound hmem := by
    obtain ⟨m,hm,haccepted⟩ := hsound.2 _ hmem
    refine .inr ⟨by omega,?_⟩
    rwa [Nat.sub_add_eq,hm,Nat.add_sub_cancel]

section Miniature

def miniId : Option Party → ℕ → String
  | none, k => String.ofList ('r' :: List.replicate k 'c')
  | some (.task j), k => String.ofList ('t' :: List.replicate j 'b' ++ List.replicate k 'c')
  | some (.nested n), k => String.ofList ('n' :: List.replicate n 'b' ++ List.replicate k 'c')

def miniNested : Document 1 where
  do_ := [miniCall "c"]

/-- In a `do`, while the context is empty, a fork of an embedded run and a call, after a step that may
export; then another call. -/
def miniParent (exports : Bool) : Document 4 where
  do_ := [⟨"x",{ body := .do_ [⟨"d",{
    if_ := some "$\x7b $context == \x7b\x7d \x7d"
    body := .do_ [⟨"s",{
        export_ := if exports then some ⟨some (.inr (.object [("k",.bool true)]))⟩ else none
        body := .set ⟨.inr .null⟩ }⟩,
      ⟨"f",{ body := .fork ⟨[⟨"a",{ body := .run ⟨.workflow ⟨"embedded","n",some (.string "n")⟩,none,none⟩ }⟩,
        miniCall "b"],false⟩ }⟩] }⟩] }⟩,
    ⟨"e",{ body := .call ⟨"strij",.object [("type",.string "echo")]⟩ }⟩]

def miniHandler (exports : Bool) : HandlerSetup where
  engine := ⟨miniLib,miniEvaluator⟩
  parse text := if text = "n" then .ok ⟨1,miniNested⟩ else .ok ⟨4,miniParent exports⟩
  generateId := miniId
  taskId _ := "w"

namespace Handler

def miniStarted (exports : Bool) : Handler :=
  let H := miniHandler exports
  let s := (initial H).start H (.task 0) (some "t") "n"
  let s := s.put (H.called (.nested 0) (.start "n" "null") (s.host (.nested 0)) [{}]) (.nested 0)
  s.put (H.called (.task 0) (.start "" "") ((initial H).host (.task 0)) [{},{}]) (.task 0)

lemma miniStarted_runs (exports : Bool) :
    Runs (miniHandler exports) [.start 0 "" ""] (miniStarted exports) := by
  generalize hH : miniHandler exports = H
  have hserve : Does H [.nested 0,.task 0] ((initial H).start H (.task 0) (some "t") "n")
      (.serve (.nested 0) [(.submit "n",{})]) ((initial H).start H (.task 0) (some "t") "n") [] :=
    .submit .delivered .served
  have hnested : Does H [.task 0] ((initial H).start H (.task 0) (some "t") "n")
      (.call (.nested 0) (.start "n" "null")) _ [] :=
    .ongoing H (by decide) (by subst hH; cases exports <;> decide +kernel)
      (by subst hH; cases exports <;> decide +kernel) (by subst hH; cases exports <;> decide +kernel) hserve
  have hboth : Does H [.task 0] (initial H)
      (.serve (.task 0) [(.startRun (some "t") "n" "null",{}),(.submit "tc",{})]) _ [] :=
    .start (by subst hH; cases exports <;> decide) hnested (.submit .delivered .served)
  have hcall : Does H [] (initial H) (.call (.task 0) (.start "" "")) _ [] :=
    .ongoing H (by decide) trivial (by subst hH; cases exports <;> decide +kernel)
      (by subst hH; cases exports <;> decide +kernel) hboth
  subst hH
  exact .step .initial (.start hcall)

end Handler
end Miniature
end Strij.OpenWorkflow
