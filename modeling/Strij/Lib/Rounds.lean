import Mathlib.Data.List.Rotate

/-! Choices made in turn. The state of a chooser stands for a circle of elements, from the one whose turn is
next; a choice takes the first element that is ready and the circle goes on behind it. -/
namespace Strij.Lib
variable {S α : Type*} (pick : S → Option α × S)

def picks : ℕ → S → List (Option α)
  | 0,_ => []
  | n+1,s => (pick s).1 :: picks n (pick s).2

/-- The circle from the next element on, and the circle after that element was taken. -/
inductive Turn (ready : α → Bool) (x : α) : List α → List α → Prop
  | next (passed rest : List α) (hpassed : ∀ y ∈ passed, ready y = false) (hx : ready x = true) :
      Turn ready x (passed ++ x :: rest) (rest ++ (passed ++ [x]))

namespace Turn
variable {ready : α → Bool} {x : α} {circle circle' : List α}

/-- The ready elements form a circle of their own. -/
lemma filter (h : Turn ready x circle circle') :
    ∃ rest, circle.filter ready = x :: rest ∧ circle'.filter ready = rest ++ [x] := by
  obtain ⟨passed,rest,hpassed,hx⟩ := h
  have hnone : passed.filter ready = [] := List.filter_eq_nil_iff.mpr (by simpa using hpassed)
  exact ⟨rest.filter ready,by simp [hnone,hx],by simp [hnone,hx]⟩

lemma of_findIdx? {i : ℕ} (h : circle.findIdx? ready = some i) :
    ∃ x, circle[i]? = some x ∧ Turn ready x circle (circle.rotate (i+1)) := by
  obtain ⟨hi,hready,hpassed⟩ := List.findIdx?_eq_some_iff_getElem.mp h
  have hsplit : circle.take i ++ circle[i] :: circle.drop (i+1) = circle := by
    rw [List.getElem_cons_drop,List.take_append_drop]
  have hrotate : circle.rotate (i+1) = circle.drop (i+1) ++ (circle.take i ++ [circle[i]]) := by
    rw [List.rotate_eq_drop_append_take hi,List.take_succ_eq_append_getElem hi]
  have hturn : Turn ready circle[i] (circle.take i ++ circle[i] :: circle.drop (i+1))
      (circle.drop (i+1) ++ (circle.take i ++ [circle[i]])) := .next _ _ (fun y hy => ?_) hready
  · rw [hsplit,← hrotate] at hturn
    exact ⟨circle[i],List.getElem?_eq_getElem hi,hturn⟩
  · obtain ⟨j,hj,rfl⟩ := List.mem_take_iff_getElem.mp hy
    simpa using hpassed j (by omega)

lemma of_index {l : List α} (h : l ≠ []) (i : ℕ) :
    ∃ x, l[i % l.length]? = some x ∧ Turn (fun _ => true) x (l.rotate i) (l.rotate ((i+1) % l.length)) := by
  have hlength : 0 < l.length := List.length_pos_iff.mpr h
  have hfirst : (l.rotate i).findIdx? (fun _ => true) = some 0 := by
    cases hrotate : l.rotate i with
    | nil => exact absurd hrotate (by simpa using h)
    | cons x rest => rfl
  obtain ⟨x,hx,hturn⟩ := of_findIdx? hfirst
  rw [List.getElem?_rotate hlength,Nat.zero_add] at hx
  rw [List.rotate_rotate,Nat.zero_add] at hturn
  exact ⟨x,hx,by rwa [List.rotate_mod]⟩

end Turn

lemma filter_isRotated {l l' : List α} {p : α → Bool} (h : l ~r l') : l.filter p ~r l'.filter p := by
  obtain ⟨n,hn,rfl⟩ := List.isRotated_iff_mod.mp h
  rw [List.rotate_eq_drop_append_take hn,List.filter_append]
  nth_rewrite 1 [← List.take_append_drop n l]
  rw [List.filter_append]
  exact List.isRotated_append

variable {pick} {circle : S → List α} {ready : α → Bool}

theorem picks_of_turns (hturn : ∀ s, (circle s).filter ready ≠ [] →
      ∃ x, (pick s).1 = some x ∧ Turn ready x (circle s) (circle (pick s).2))
    (n : ℕ) (s : S) (hn : n ≤ ((circle s).filter ready).length) :
    picks pick n s = (((circle s).filter ready).take n).map some := by
  induction n generalizing s with
  | zero => rfl
  | succ n ih =>
    obtain ⟨x,hx,hstep⟩ := hturn s (List.ne_nil_of_length_pos (by omega))
    obtain ⟨rest,hbefore,hafter⟩ := hstep.filter
    have hlength : n ≤ rest.length := by simpa [hbefore] using hn
    have hrest := ih (pick s).2 (by rw [hafter,List.length_append]; omega)
    rw [picks,hx,hrest,hbefore,hafter,List.take_append_of_le_length hlength,List.take_succ_cons,List.map_cons]

end Strij.Lib
