import Mathlib.Data.List.Basic
import Mathlib.Tactic.Common

/-! Contiguous slices of a fixed buffer, in-place writes into it, and the element-by-element
copy of a slice to the front. -/
namespace Strij.Lib

variable {α : Type*} {b w : List α} {n : ℕ}

def slice (b : List α) (i n : ℕ) : List α := (b.drop i).take n

/-- Overwrite the elements of `b` from position `i` on by `w`. -/
def splice (b : List α) (i : ℕ) (w : List α) : List α := b.take i ++ w ++ b.drop (i+w.length)

def move (i k : ℕ) (b : List α) : List α :=
  match b[i]? with
  | some x => b.set k x
  | none => b

def copyFront (b : List α) (i n : ℕ) : List α :=
  (List.range n).foldl (fun c k => move (i+k) k c) b

@[simp] theorem slice_zero (b : List α) (i : ℕ) : slice b i 0 = [] := by simp [slice]

theorem slice_length {i : ℕ} (h : i+n ≤ b.length) : (slice b i n).length = n := by
  simp only [slice,List.length_take,List.length_drop]
  omega

theorem slice_add (b : List α) (i m n : ℕ) : slice b i (m+n) = slice b i m ++ slice b (i+m) n := by
  simp only [slice,List.take_add,List.drop_drop]

theorem slice_one {i : ℕ} (h : i < b.length) (d : α) : slice b i 1 = [b.getD i d] := by
  simp only [slice,List.drop_eq_getElem_cons h,List.take_succ_cons,List.take_zero]
  simp [List.getD,h]

@[simp] theorem splice_length {i : ℕ} (h : i+w.length ≤ b.length) : (splice b i w).length = b.length := by
  simp only [splice,List.length_append,List.length_take,List.length_drop]
  omega

theorem slice_splice {i : ℕ} (h : i+n+w.length ≤ b.length) :
    slice (splice b (i+n) w) i (n+w.length) = slice b i n ++ w := by
  have hi : i ≤ (b.take (i+n)).length := by simp only [List.length_take]; omega
  have hn : (slice b i n ++ w).length = n+w.length := by
    rw [List.length_append,slice_length (by omega)]
  have ht : (b.take (i+n)).drop i = slice b i n := by
    simp only [slice,List.drop_take,Nat.add_sub_cancel_left]
  unfold splice
  rw [slice,List.append_assoc,List.drop_append_of_le_length hi,ht,← List.append_assoc]
  exact List.take_left' hn

theorem slice_splice_self {i : ℕ} (h : i+w.length ≤ b.length) : slice (splice b i w) i w.length = w := by
  have hwritten := slice_splice (n := 0) h
  rw [Nat.zero_add,slice_zero,List.nil_append] at hwritten
  exact hwritten

theorem slice_splice_before {i k : ℕ} (h : i+n ≤ k) (hk : k ≤ b.length) :
    slice (splice b k w) i n = slice b i n := by
  have htake : (b.take k).length = k := List.length_take_of_le hk
  have hdrop : n ≤ ((b.take k).drop i).length := by rw [List.length_drop]; omega
  rw [slice,splice,List.append_assoc,List.drop_append_of_le_length (by omega),List.take_append_of_le_length hdrop,
    List.drop_take,List.take_take,Nat.min_eq_left (by omega),slice]

theorem slice_slice (b : List α) {i m j : ℕ} (h : j+n ≤ m) : slice (slice b i m) j n = slice b (i+j) n := by
  rw [slice,slice,slice,List.drop_take,List.take_take,Nat.min_eq_left (by omega),List.drop_drop]

@[simp] theorem move_length (b : List α) (i k : ℕ) : (move i k b).length = b.length := by
  unfold move
  split <;> simp

@[simp] theorem copyFront_length (b : List α) (i n : ℕ) : (copyFront b i n).length = b.length := by
  unfold copyFront
  induction n with
  | zero => rfl
  | succ n ih => rw [List.range_succ,List.foldl_append]; simp [ih]

theorem copyFront_eq {i : ℕ} (hn : n ≤ i) (hb : i+n ≤ b.length) :
    copyFront b i n = slice b i n ++ b.drop n := by
  induction n with
  | zero => simp [copyFront]
  | succ n ih =>
    have hlt : i+n < b.length := by omega
    have hs : (slice b i n).length = n := slice_length (by omega)
    have hstep : copyFront b i (n+1) = move (i+n) n (copyFront b i n) := by
      simp [copyFront,List.range_succ]
    have hread : (slice b i n ++ b.drop n)[i+n]? = some b[i+n] := by
      rw [List.getElem?_append_right (by omega),hs,List.getElem?_drop,
        show n+(i+n-n) = i+n by omega,List.getElem?_eq_getElem hlt]
    have hone : slice b i (n+1) = slice b i n ++ [b[i+n]] := by
      rw [slice_add,slice_one hlt b[i+n]]
      simp [List.getD,hlt]
    rw [hstep,ih (by omega) (by omega),move,hread]
    change (slice b i n ++ b.drop n).set n b[i+n] = slice b i (n+1) ++ b.drop (n+1)
    have hd : b.drop n = b[n] :: b.drop (n+1) := List.drop_eq_getElem_cons (by omega)
    rw [List.set_append_right _ _ (by omega),hs,Nat.sub_self,hone,hd,List.set_cons_zero]
    simp

theorem slice_copyFront {i : ℕ} (hn : n ≤ i) (hb : i+n ≤ b.length) :
    slice (copyFront b i n) 0 n = slice b i n := by
  rw [copyFront_eq hn hb]
  exact List.take_left' (slice_length hb)

end Strij.Lib
