import Mathlib.Data.List.Basic

/-! Logs of calls on many objects in which the terminal call of each object is its last one. -/
namespace Strij.Lib
variable {K C : Type*} [DecidableEq K] {k : K}

def callsTo (log : List (K × C)) (k : K) : List C := (log.filter (fun x => x.1 = k)).map Prod.snd

@[simp] lemma callsTo_nil (k : K) : callsTo ([] : List (K × C)) k = [] := rfl

@[simp] lemma callsTo_append (a b : List (K × C)) (k : K) :
    callsTo (a ++ b) k = callsTo a k ++ callsTo b k := by
  simp [callsTo]

@[simp] lemma callsTo_cons_self (k : K) (c : C) (log : List (K × C)) :
    callsTo ((k,c) :: log) k = c :: callsTo log k := by
  simp [callsTo]

lemma callsTo_cons_ne {j : K} (h : j ≠ k) (c : C) (log : List (K × C)) :
    callsTo ((j,c) :: log) k = callsTo log k := by
  simp [callsTo,h]

lemma mem_callsTo {log : List (K × C)} {c : C} : c ∈ callsTo log k ↔ (k,c) ∈ log := by
  simp [callsTo]

section Terminal
variable (terminal : C → Bool) {calls : List C}

def Unanswered (calls : List C) : Prop := ∀ c ∈ calls, terminal c = false

def OneShot (calls : List C) : Prop := Unanswered terminal calls.dropLast

variable {terminal}

lemma Unanswered.oneShot (h : Unanswered terminal calls) : OneShot terminal calls :=
  fun c hc => h c (List.dropLast_subset _ hc)

lemma Unanswered.snoc (h : Unanswered terminal calls) (c : C) : OneShot terminal (calls ++ [c]) := by
  rw [OneShot,List.dropLast_concat]
  exact h

lemma Unanswered.concat (h : Unanswered terminal calls) {c : C}
    (hc : terminal c = false) : Unanswered terminal (calls ++ [c]) := by
  intro d hd
  rcases List.mem_append.mp hd with hd | hd
  · exact h d hd
  · rwa [List.mem_singleton.mp hd]

variable (terminal)

/-- The log is in order, and the objects that may still be called had no terminal call. -/
structure Orderly (callable : K → Prop) (log : List (K × C)) : Prop where
  once : ∀ k, OneShot terminal (callsTo log k)
  waiting : ∀ k, callable k → Unanswered terminal (callsTo log k)

variable {terminal}

namespace Orderly
variable {callable callable' : K → Prop} {log : List (K × C)} {k : K}

lemma empty : Orderly terminal callable ([] : List (K × C)) :=
  ⟨fun _ => (Unanswered.oneShot (by simp [Unanswered])),fun _ _ => by simp [Unanswered]⟩

variable (h : Orderly terminal callable log)
include h

lemma mono (hle : ∀ k, callable' k → callable k) : Orderly terminal callable' log :=
  ⟨h.once,fun k hk => h.waiting k (hle k hk)⟩

lemma add (hk : callsTo log k = []) : Orderly terminal (fun j => callable j ∨ j = k) log := by
  refine ⟨h.once,fun j hj => ?_⟩
  rcases hj with hj | rfl
  · exact h.waiting j hj
  · simp [Unanswered,hk]

lemma call (hk : callable k) (c : C) :
    Orderly terminal (fun j => callable j ∧ (j = k → terminal c = false)) (log ++ [(k,c)]) := by
  constructor
  case once =>
    intro j
    rw [callsTo_append]
    by_cases hj : k = j
    · subst hj
      rw [callsTo_cons_self]
      exact (h.waiting k hk).snoc c
    · rw [callsTo_cons_ne hj,callsTo_nil,List.append_nil]
      exact h.once j
  case waiting =>
    rintro j ⟨hcallable,hterminal⟩
    rw [callsTo_append]
    by_cases hj : k = j
    · subst hj
      rw [callsTo_cons_self]
      exact (h.waiting k hcallable).concat (hterminal rfl)
    · rw [callsTo_cons_ne hj,callsTo_nil,List.append_nil]
      exact h.waiting j hcallable

end Orderly
end Terminal
end Strij.Lib
