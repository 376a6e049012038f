import Mathlib.Data.Nat.ModEq

/-! Positions of a ring: a count that only grows is kept modulo the size of the ring. -/
namespace Strij.Lib
variable {c i j : ℕ}

def ringSucc (c i : ℕ) : ℕ := if i+1 = c then 0 else i+1

lemma ringSucc_mod (hc : 0 < c) (i : ℕ) : ringSucc c (i%c) = (i+1)%c := by
  have hlt := Nat.mod_lt i hc
  rw [ringSucc,← Nat.mod_add_mod]
  split
  · next h => rw [h,Nat.mod_self]
  · next h => exact (Nat.mod_eq_of_lt (by omega)).symm

/-- Within one round, counts with the same position are the same. -/
lemma eq_of_ring (h : i%c = j%c) (hij : i ≤ j) (hj : j < i+c) : i = j := by
  have hdvd : c ∣ j-i := (Nat.modEq_iff_dvd' hij).mp h
  have hzero : j-i = 0 := Nat.eq_zero_of_dvd_of_lt hdvd (by omega)
  omega

end Strij.Lib
