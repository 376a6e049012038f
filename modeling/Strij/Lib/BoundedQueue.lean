import Mathlib.Data.List.Basic
import Mathlib.Tactic.Common

/-! A first-in first-out queue with a maximum size; a full queue rejects what is pushed. -/
namespace Strij.Lib

structure BoundedQueue (α : Type*) where
  maxSize : ℕ
  items : List α := []

namespace BoundedQueue
variable {α : Type*} (q : BoundedQueue α) {xs : List α}

def full : Bool := q.items.length ≥ q.maxSize

def push (x : α) : Option (BoundedQueue α) :=
  if q.full then none else some { q with items := q.items ++ [x] }

/-- Push the elements in order; those that find the queue full are lost. -/
def pushAll (xs : List α) : BoundedQueue α :=
  xs.foldl (fun q x => (q.push x).getD q) q

/-- The elements that find the queue full when they are pushed in order. -/
def rejected (q : BoundedQueue α) : List α → List α
  | [] => []
  | x :: xs =>
    match q.push x with
    | none => x :: rejected q xs
    | some q => rejected q xs

lemma push_of_room {x : α} (h : q.items.length < q.maxSize) :
    q.push x = some { q with items := q.items ++ [x] } := by
  simp [push,full,h]

lemma push_eq_some {q' : BoundedQueue α} {x : α} (h : q.push x = some q') :
    q.items.length < q.maxSize ∧ q' = { q with items := q.items ++ [x] } := by
  by_cases hfull : q.items.length ≥ q.maxSize
  · simp [push,full,hfull] at h
  · rw [push_of_room q (by omega)] at h
    exact ⟨by omega,(Option.some.inj h).symm⟩

lemma pushAll_of_room (h : q.items.length+xs.length ≤ q.maxSize) :
    q.pushAll xs = { q with items := q.items ++ xs } := by
  induction xs generalizing q with
  | nil => simp [pushAll]
  | cons x xs ih =>
    rw [List.length_cons] at h
    rw [pushAll,List.foldl_cons,push_of_room q (by omega),Option.getD_some,← pushAll,ih]
    · simp
    · simp only [List.length_append,List.length_singleton]
      omega

lemma rejected_of_room (h : q.items.length+xs.length ≤ q.maxSize) : q.rejected xs = [] := by
  induction xs generalizing q with
  | nil => rfl
  | cons x xs ih =>
    rw [List.length_cons] at h
    rw [rejected,push_of_room q (by omega)]
    refine ih _ ?_
    simp only [List.length_append,List.length_singleton]
    omega

lemma mem_pushAll {x : α} (h : x ∈ (q.pushAll xs).items) : x ∈ q.items ∨ x ∈ xs := by
  induction xs generalizing q with
  | nil => exact .inl h
  | cons y xs ih =>
    rw [pushAll,List.foldl_cons,← pushAll] at h
    rcases ih _ h with hx | hx
    · rw [push] at hx
      split at hx
      · exact .inl hx
      · rcases List.mem_append.mp hx with hx | hx
        · exact .inl hx
        · exact .inr (List.mem_singleton.mp hx ▸ List.mem_cons_self)
    · exact .inr (List.mem_cons_of_mem _ hx)

lemma pushAll_sublist (xs : List α) : (q.pushAll xs).items.Sublist (q.items ++ xs) := by
  induction xs generalizing q with
  | nil => exact List.sublist_append_left _ _
  | cons x xs ih =>
    rw [pushAll,List.foldl_cons,← pushAll]
    refine (ih _).trans ?_
    rw [push]
    split
    · exact (List.sublist_cons_self x xs).append_left _
    · rw [Option.getD_some,List.append_assoc,List.singleton_append]

end BoundedQueue
end Strij.Lib
