import Mathlib.Data.List.Basic

/-! Runs of a step function that can get stuck, conditions that hold at every step of a run, and the
two ways to carry an invariant along one. -/
namespace Strij.Lib
variable {S E : Type*} (step : S → E → Option S) (P : S → E → Prop)

def runAll (s : S) : List E → Option S
  | [] => some s
  | e :: events => (step s e).bind (runAll · events)

/-- Every step of the run meets the condition in the state before it. -/
def Throughout (s : S) : List E → Prop
  | [] => True
  | e :: events => P s e ∧
    match step s e with
    | none => True
    | some s' => Throughout s' events

instance decidableThroughout [∀ s e, Decidable (P s e)] (s : S) :
    (events : List E) → Decidable (Throughout step P s events)
  | [] => instDecidableTrue
  | e :: events =>
    have : Decidable (match step s e with
      | none => True
      | some s' => Throughout step P s' events) :=
      match step s e with
      | none => instDecidableTrue
      | some s' => decidableThroughout s' events
    inferInstanceAs (Decidable (_ ∧ _))

variable {step P} {I : S → Prop} {s t : S} {e : E} {events : List E}

lemma Throughout.head (h : Throughout step P s (e :: events)) : P s e := h.1

lemma Throughout.tail (h : Throughout step P s (e :: events)) (hstep : step s e = some t) :
    Throughout step P t events := by
  have htail := h.2
  rw [hstep] at htail
  exact htail

lemma Throughout.and {Q : S → E → Prop} (hP : Throughout step P s events)
    (hQ : Throughout step Q s events) : Throughout step (fun s e => P s e ∧ Q s e) s events := by
  induction events generalizing s with
  | nil => trivial
  | cons e events ih =>
    refine ⟨⟨hP.head,hQ.head⟩,?_⟩
    split
    · trivial
    · next s' hstep => exact ih (hP.tail hstep) (hQ.tail hstep)

lemma Throughout.of_forall (h : ∀ s e, P s e) : Throughout step P s events := by
  induction events generalizing s with
  | nil => trivial
  | cons e events ih =>
    refine ⟨h s e,?_⟩
    split
    · trivial
    · exact ih

lemma runAll_append (events later : List E) :
    runAll step s (events ++ later) = (runAll step s events).bind (runAll step · later) := by
  induction events generalizing s with
  | nil => rfl
  | cons e events ih =>
    rw [List.cons_append,runAll,runAll,Option.bind_assoc]
    exact congrArg _ (funext fun t => ih)

theorem runAll_invariant (hstep : ∀ s e s', I s → P s e → step s e = some s' → I s') (h : I s)
    (hP : Throughout step P s events) (hrun : runAll step s events = some t) : I t := by
  induction events generalizing s with
  | nil =>
    cases hrun
    exact h
  | cons e events ih =>
    obtain ⟨s',hs',hrun⟩ := Option.bind_eq_some_iff.mp hrun
    exact ih (hstep s e s' h hP.head hs') (hP.tail hs') hrun

end Strij.Lib
