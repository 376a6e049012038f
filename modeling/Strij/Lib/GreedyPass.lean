import Mathlib.Data.List.Basic
import Mathlib.Tactic.Common

/-! One pass over a list that takes what it can, up to a limit, and puts aside what it cannot take yet. -/
namespace Strij.Lib

inductive Verdict (S : Type*)
  | take (s : S)
  | drop
  | keep

structure Pass (S α : Type*) where
  taken : List α := []
  dropped : List α := []
  kept : List α := []
  rest : List α := []
  state : S

variable {S α : Type*} (judge : S → α → Verdict S)

/-- The pass, with the number of elements that may still be taken. -/
def greedyPass : List α → ℕ → S → Pass S α
  | [],_,s => { state := s }
  | x :: xs,0,s => { rest := x :: xs, state := s }
  | x :: xs,n+1,s =>
    match judge s x with
    | .take s' => { greedyPass xs n s' with taken := x :: (greedyPass xs n s').taken }
    | .drop => { greedyPass xs (n+1) s with dropped := x :: (greedyPass xs (n+1) s).dropped }
    | .keep => { greedyPass xs (n+1) s with kept := x :: (greedyPass xs (n+1) s).kept }

def Stuck (s : S) (x : α) : Prop := ∀ s', judge s x ≠ .take s'

variable {judge} {s s' : S} {x : α} {xs : List α} {n : ℕ}

section Equations

@[simp] lemma greedyPass_nil : greedyPass judge [] n s = { state := s } := by
  cases n <;> rfl

@[simp] lemma greedyPass_zero : greedyPass judge xs 0 s = { rest := xs, state := s } := by
  cases xs <;> rfl

lemma greedyPass_take (h : judge s x = .take s') : greedyPass judge (x :: xs) (n+1) s =
    { greedyPass judge xs n s' with taken := x :: (greedyPass judge xs n s').taken } := by
  rw [greedyPass,h]

lemma greedyPass_drop (h : judge s x = .drop) : greedyPass judge (x :: xs) (n+1) s =
    { greedyPass judge xs (n+1) s with dropped := x :: (greedyPass judge xs (n+1) s).dropped } := by
  rw [greedyPass,h]

lemma greedyPass_keep (h : judge s x = .keep) : greedyPass judge (x :: xs) (n+1) s =
    { greedyPass judge xs (n+1) s with kept := x :: (greedyPass judge xs (n+1) s).kept } := by
  rw [greedyPass,h]

end Equations

lemma greedyPass_perm (judge : S → α → Verdict S) (xs : List α) (n : ℕ) (s : S) :
    let p := greedyPass judge xs n s
    (p.taken ++ (p.dropped ++ (p.kept ++ p.rest))).Perm xs := by
  induction xs generalizing n s with
  | nil => simp
  | cons x xs ih =>
    cases n with
    | zero => simp
    | succ n =>
      cases h : judge s x with
      | take s' =>
        rw [greedyPass_take h]
        exact (ih n s').cons x
      | drop =>
        rw [greedyPass_drop h]
        exact List.perm_middle.trans ((ih (n+1) s).cons x)
      | keep =>
        rw [greedyPass_keep h]
        refine List.Perm.trans ?_ ((ih (n+1) s).cons x)
        exact (List.perm_middle.append_left _).trans List.perm_middle

lemma greedyPass_taken_le (judge : S → α → Verdict S) (xs : List α) (n : ℕ) (s : S) :
    (greedyPass judge xs n s).taken.length ≤ n := by
  induction xs generalizing n s with
  | nil => simp
  | cons x xs ih =>
    cases n with
    | zero => simp
    | succ n =>
      cases h : judge s x with
      | take s' =>
        rw [greedyPass_take h]
        exact Nat.succ_le_succ (ih n s')
      | drop =>
        rw [greedyPass_drop h]
        exact ih (n+1) s
      | keep =>
        rw [greedyPass_keep h]
        exact ih (n+1) s

lemma greedyPass_stuck (hstable : ∀ s s' x y, Stuck judge s x → judge s y = .take s' → Stuck judge s' x)
    (h : Stuck judge s x) (xs : List α) (n : ℕ) : Stuck judge (greedyPass judge xs n s).state x := by
  induction xs generalizing n s with
  | nil => simpa using h
  | cons y xs ih =>
    cases n with
    | zero => simpa using h
    | succ n =>
      cases hy : judge s y with
      | take s' =>
        rw [greedyPass_take hy]
        exact ih (hstable s s' x y h hy) n
      | drop =>
        rw [greedyPass_drop hy]
        exact ih h (n+1)
      | keep =>
        rw [greedyPass_keep hy]
        exact ih h (n+1)

/-- The pass takes as much as it may, or has looked at everything and what it left cannot be taken. -/
theorem greedyPass_maximal (hstable : ∀ s s' x y, Stuck judge s x → judge s y = .take s' → Stuck judge s' x)
    (xs : List α) (n : ℕ) (s : S) : let p := greedyPass judge xs n s
    p.taken.length = n ∨ p.rest = [] ∧ ∀ x ∈ p.kept, Stuck judge p.state x := by
  induction xs generalizing n s with
  | nil => simp
  | cons x xs ih =>
    cases n with
    | zero => simp
    | succ n =>
      cases h : judge s x with
      | take s' =>
        rw [greedyPass_take h]
        exact (ih n s').imp (congrArg (· + 1)) id
      | drop =>
        rw [greedyPass_drop h]
        exact ih (n+1) s
      | keep =>
        rw [greedyPass_keep h]
        refine (ih (n+1) s).imp id fun ⟨hrest,hkept⟩ => ⟨hrest,List.forall_mem_cons.mpr ⟨?_,hkept⟩⟩
        exact greedyPass_stuck hstable (fun s' htake => by rw [h] at htake; cases htake) xs (n+1)

end Strij.Lib
