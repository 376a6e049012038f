import Mathlib

/-! The conversions of texts to numbers in the C++ library, and the numerals they are meant for. -/
namespace Strij.Config
variable {text : String}

/-- How a call ends without a result: with a status, by an exception, by a failed check of the protobuf
library, or for want of stack. -/
inductive Failure
  | status (message : String)
  | exception
  | fatal
  | stackOverflow
  deriving DecidableEq, Repr

def isSpace (c : Char) : Bool := c ∈ [' ','\t','\n','\x0b','\x0c','\r']

def digitsValue (digits : List Char) : ℕ := digits.foldl (fun n c => 10*n+(c.toNat - '0'.toNat)) 0

def readSign : List Char → Bool × List Char
  | '-' :: rest => (true,rest)
  | '+' :: rest => (false,rest)
  | rest => (false,rest)

/-- What the C conversions read: blanks, a sign and digits; they ignore what follows. -/
def readNumber (text : String) : Option (Bool × ℕ) :=
  let (negative,rest) := readSign (text.toList.dropWhile isSpace)
  let digits := rest.takeWhile Char.isDigit
  if digits = [] then none else some (negative,digitsValue digits)

/-- `std::stoull`; `std::stoul` is the same, `unsigned long` having 64 bits. A minus sign negates modulo 2^64. -/
def stoull (text : String) : Except Failure UInt64 :=
  match readNumber text with
  | none => .error .exception
  | some (negative,n) =>
    if n < 2^64 then .ok (if negative then -UInt64.ofNat n else UInt64.ofNat n) else .error .exception

def stoll (text : String) : Except Failure Int64 :=
  match readNumber text with
  | none => .error .exception
  | some (negative,n) =>
    let z : ℤ := if negative then -(n : ℤ) else n
    if -2^63 ≤ z ∧ z < 2^63 then .ok (Int64.ofInt z) else .error .exception

structure IsNumeral (text : String) (n : ℕ) : Prop where
  nonempty : text.toList ≠ []
  digits : text.toList.all Char.isDigit = true
  value : digitsValue text.toList = n

lemma not_digit_of_isSpace {c : Char} (h : isSpace c = true) : c.isDigit = false := by
  simp only [isSpace,List.mem_cons,List.not_mem_nil,or_false,decide_eq_true_eq] at h
  rcases h with rfl | rfl | rfl | rfl | rfl | rfl <;> decide

lemma readNumber_numeral {n : ℕ} (h : IsNumeral text n) : readNumber text = some (false,n) := by
  obtain ⟨hne,hdigits,hvalue⟩ := h
  rw [readNumber]
  cases hlist : text.toList with
  | nil => exact absurd hlist hne
  | cons c rest =>
    rw [hlist] at hdigits hvalue
    have hdigits := List.all_eq_true.mp hdigits
    have hc : c.isDigit = true := hdigits c List.mem_cons_self
    have hspace : isSpace c = false := by
      cases hspace : isSpace c with
      | false => rfl
      | true =>
        rw [not_digit_of_isSpace hspace] at hc
        cases hc
    have hsign : readSign (c :: rest) = (false,c :: rest) := by
      rw [readSign]
      · rintro _ ⟨rfl,-⟩
        cases hc
      · rintro _ ⟨rfl,-⟩
        cases hc
    have hall : (c :: rest).takeWhile Char.isDigit = c :: rest :=
      List.takeWhile_eq_self_iff.mpr hdigits
    simp only [List.dropWhile_cons,hspace,Bool.false_eq_true,if_false,hsign,hall,hvalue]
    rfl

lemma stoull_numeral {n : ℕ} (h : IsNumeral text n) (hfits : n < 2^64) :
    stoull text = .ok (UInt64.ofNat n) := by
  rw [stoull,readNumber_numeral h]
  simp only [Bool.false_eq_true,if_false]
  rw [if_pos hfits]

lemma stoull_digits {v : UInt64} (hdigits : text.toList.all Char.isDigit = true) :
    stoull text = .ok v ↔ IsNumeral text v.toNat := by
  constructor
  · intro h
    by_cases hempty : text.toList = []
    · rw [stoull,readNumber,hempty] at h
      cases h
    · have hnumeral : IsNumeral text (digitsValue text.toList) := ⟨hempty,hdigits,rfl⟩
      rw [stoull,readNumber_numeral hnumeral] at h
      simp only [Bool.false_eq_true,if_false] at h
      split at h
      · next hfits =>
        cases h
        rwa [UInt64.toNat_ofNat_of_lt' hfits]
      · cases h
  · intro h
    rw [stoull_numeral h v.toNat_lt,UInt64.ofNat_toNat]

end Strij.Config
