import Mathlib

/-! The values of a workflow: the DSL's own `Value` tree, libjq's `Jv`, and the bridge between them.
`Libjq` stands for the entry points of libjq (and of the number formatting) that the code calls. -/
namespace Strij.OpenWorkflow
variable {m : ℕ}

/-- An IEEE 754 double, by its bits. -/
structure Double where
  bits : UInt64
  deriving DecidableEq, Repr

namespace Double

def toRat? (d : Double) : Option ℚ :=
  let n := d.bits.toNat
  let exponent : ℕ := n / 2^52 % 2^11
  let mantissa : ℕ := n % 2^52
  let sign : ℚ := if n / 2^63 = 1 then -1 else 1
  if exponent = 2047 then none
  else if exponent = 0 then some (sign*mantissa*(2 : ℚ)^(-1074 : ℤ))
  else some (sign*(2^52+mantissa)*(2 : ℚ)^((exponent : ℤ)-1075))

end Double

/-- `Value`: `object` lists its members as the `std::map` does, by ascending key. -/
inductive Value
  | null
  | bool (b : Bool)
  | int (n : Int64)
  | double (d : Double)
  | string (text : String)
  | array (items : List Value)
  | object (members : List (String × Value))

namespace Value

def isNull : Value → Bool
  | .null => true
  | _ => false

def isString : Value → Bool
  | .string _ => true
  | _ => false

def isArray : Value → Bool
  | .array _ => true
  | _ => false

def isObject : Value → Bool
  | .object _ => true
  | _ => false

def emplace {α : Type} (key : String) (member : α) : List (String × α) → List (String × α)
  | [] => [(key,member)]
  | (k,m) :: rest =>
    if key = k then (k,m) :: rest
    else if key < k then (key,member) :: (k,m) :: rest
    else (k,m) :: emplace key member rest

section Emplace
variable {α : Type} {key : String} {member : α} {members : List (String × α)}

lemma emplace_perm (h : key ∉ members.map Prod.fst) : (emplace key member members).Perm ((key,member) :: members) := by
  induction members with
  | nil => exact .refl _
  | cons m rest ih =>
    obtain ⟨k,v⟩ := m
    simp only [List.map_cons,List.mem_cons,not_or] at h
    rw [emplace,if_neg h.1]
    split
    · exact .refl _
    · exact ((ih h.2).cons _).trans (.swap _ _ _)

lemma emplace_ordered (h : members.Pairwise (fun a b => a.1 < b.1)) (hkey : key ∉ members.map Prod.fst) :
    (emplace key member members).Pairwise (fun a b => a.1 < b.1) := by
  induction members with
  | nil => exact List.pairwise_singleton _ _
  | cons m rest ih =>
    obtain ⟨k,v⟩ := m
    simp only [List.map_cons,List.mem_cons,not_or] at hkey
    obtain ⟨hfirst,hrest⟩ := List.pairwise_cons.mp h
    rw [emplace,if_neg hkey.1]
    split
    · next hlt =>
      refine List.pairwise_cons.mpr ⟨List.forall_mem_cons.mpr ⟨hlt,fun m hm => ?_⟩,h⟩
      exact hlt.trans (hfirst m hm)
    · next hle =>
      have hlt : k < key := lt_of_le_of_ne (not_lt.mp hle) (Ne.symm hkey.1)
      refine List.pairwise_cons.mpr ⟨fun m hm => ?_,ih hrest hkey.2⟩
      rcases List.mem_cons.mp ((emplace_perm hkey.2).mem_iff.mp hm) with rfl | hm
      · exact hlt
      · exact hfirst m hm

lemma emplace_last (h : ∀ m ∈ members, m.1 < key) : emplace key member members = members ++ [(key,member)] := by
  induction members with
  | nil => rfl
  | cons m rest ih =>
    obtain ⟨hm,hrest⟩ := List.forall_mem_cons.mp h
    rw [emplace,if_neg hm.ne',if_neg hm.asymm,ih hrest,List.cons_append]

lemma foldl_emplace {entries : List (String × α)} (hmembers : members.Pairwise (fun a b => a.1 < b.1))
    (hkeys : ((entries ++ members).map Prod.fst).Nodup) :
    (entries.foldl (fun acc e => emplace e.1 e.2 acc) members).Pairwise (fun a b => a.1 < b.1) ∧
      (entries.foldl (fun acc e => emplace e.1 e.2 acc) members).Perm (entries ++ members) := by
  induction entries generalizing members with
  | nil => exact ⟨hmembers,.refl _⟩
  | cons entry entries ih =>
    rw [List.foldl_cons]
    simp only [List.cons_append,List.map_cons,List.nodup_cons] at hkeys
    have hkey : entry.1 ∉ members.map Prod.fst := fun hmem => hkeys.1 (by simp [List.map_append,hmem])
    have hmiddle : (entries ++ emplace entry.1 entry.2 members).Perm (entry :: (entries ++ members)) :=
      ((emplace_perm hkey).append_left _).trans List.perm_middle
    obtain ⟨hordered,hresult⟩ := ih (emplace_ordered hmembers hkey)
      ((hmiddle.map Prod.fst).nodup_iff.mpr (List.nodup_cons.mpr hkeys))
    exact ⟨hordered,hresult.trans hmiddle⟩

end Emplace

end Value

/-- A `utils::Jv`. A number keeps the literal it was read from, where it has one. -/
inductive Jv
  | null
  | bool (b : Bool)
  | number (literal : Option String) (value : Double)
  | string (text : String)
  | array (items : List Jv)
  | object (members : List (String × Jv))

structure Libjq where
  /-- `jv_parse`; `none` for an invalid value. -/
  jvParse : String → Option Jv
  /-- `jv_dump_string` without flags. -/
  jvDump : Jv → String
  /-- The double of a number literal. -/
  literalValue : String → Double
  /-- A double as `absl::StrCat` writes it. -/
  showDouble : Double → String

/-- The part of a text that `c_str()` shows to a C function. -/
def cString (text : String) : String := String.ofList (text.toList.takeWhile (· ≠ '\x00'))

lemma cString_eq_self {text : String} (h : '\x00' ∉ text.toList) : cString text = text := by
  have hall : text.toList.takeWhile (· ≠ '\x00') = text.toList :=
    List.takeWhile_eq_self_iff.mpr fun c hc => decide_eq_true fun heq => h (heq ▸ hc)
  rw [cString,hall,String.ofList_toList]

/-- `std::from_chars` into an `int64_t` that consumes the whole text. -/
def isIntegerLiteral (text : String) : Option Int64 :=
  let digits := fun cs : List Char => if cs ≠ [] ∧ cs.all Char.isDigit then
    some (cs.foldl (fun n c => 10*n+(c.toNat - '0'.toNat)) 0) else none
  let n : Option ℤ := match text.toList with
    | '-' :: cs => (digits cs).map (fun n => -(n : ℤ))
    | cs => (digits cs).map (fun n => (n : ℤ))
  n.bind fun n => if -2^63 ≤ n ∧ n < 2^63 then some (Int64.ofInt n) else none

lemma digits_repr (m : ℕ) : (Nat.repr m).toList ≠ [] ∧ (Nat.repr m).toList.all Char.isDigit = true ∧
    (Nat.repr m).toList.foldl (fun n c => 10*n+(c.toNat - '0'.toNat)) 0 = m := by
  have hlist : (Nat.repr m).toList = Nat.toDigits 10 m := by simp [Nat.repr_eq_ofList_toDigits]
  rw [hlist]
  refine ⟨Nat.toDigits_ne_nil,?_,Nat.ofDigitChars_ten_toDigits⟩
  exact List.all_eq_true.mpr fun c hc => Nat.isDigit_of_mem_toDigits (by decide) (by decide) hc

lemma isIntegerLiteral_nonneg (h : -2^63 ≤ (m : ℤ) ∧ (m : ℤ) < 2^63) :
    isIntegerLiteral (Nat.repr m) = some (Int64.ofInt m) := by
  obtain ⟨hne,hall,hfold⟩ := digits_repr m
  have hread : ((some (m : ℤ)).bind fun n => if -2^63 ≤ n ∧ n < 2^63 then some (Int64.ofInt n) else none) =
      some (Int64.ofInt m) := by rw [Option.bind_some,if_pos h]
  rw [isIntegerLiteral]
  generalize (fun n : ℤ => if -2^63 ≤ n ∧ n < 2^63 then some (Int64.ofInt n) else none) = read at hread ⊢
  simp only
  split
  · next hminus =>
    rw [hminus] at hall
    cases hall
  · rw [if_pos ⟨hne,hall⟩,hfold]
    exact hread

lemma isIntegerLiteral_neg (h : -2^63 ≤ -(m : ℤ) ∧ -(m : ℤ) < 2^63) :
    isIntegerLiteral ("-" ++ Nat.repr m) = some (Int64.ofInt (-m)) := by
  obtain ⟨hne,hall,hfold⟩ := digits_repr m
  have htext : ("-" ++ Nat.repr m).toList = '-' :: (Nat.repr m).toList := by simp
  rw [isIntegerLiteral]
  simp only [htext]
  rw [if_pos ⟨hne,hall⟩,hfold]
  simp only [Option.bind_eq_bind,Option.bind_some,Option.pure_def,Option.map_some]
  rw [if_pos h]

lemma isIntegerLiteral_toString (n : Int64) : isIntegerLiteral (toString n.toInt) = some n := by
  have hrange : -2^63 ≤ n.toInt ∧ n.toInt < 2^63 := ⟨by simpa using n.le_toInt,by simpa using n.toInt_lt⟩
  have hback := n.ofInt_toInt
  generalize n.toInt = z at hrange hback ⊢
  cases z with
  | ofNat m =>
    rw [Int.ofNat_eq_natCast] at hrange hback
    rw [← hback]
    exact isIntegerLiteral_nonneg hrange
  | negSucc m =>
    have hneg : Int.negSucc m = -((m+1 : ℕ) : ℤ) := rfl
    rw [hneg] at hrange hback
    rw [← hback]
    exact isIntegerLiteral_neg hrange

def jvObjectSet (key : String) (member : Jv) : List (String × Jv) → List (String × Jv)
  | [] => [(key,member)]
  | (k,m) :: rest => if k = key then (k,member) :: rest else (k,m) :: jvObjectSet key member rest

namespace Jv
variable (lib : Libjq)

def parse (text : String) : Option Jv := lib.jvParse (cString text)

def dump (j : Jv) : String := lib.jvDump j

mutual

def ofValue : Value → Jv
  | .null => .null
  | .bool b => .bool b
  | .int n => .number (some (toString n.toInt)) (lib.literalValue (toString n.toInt))
  | .double d => .number none d
  | .string text => .string text
  | .array items => .array (ofItems items)
  | .object members => .object (ofMembers members [])
termination_by structural v => v

def ofItems : List Value → List Jv
  | [] => []
  | v :: rest => ofValue v :: ofItems rest
termination_by structural items => items

def ofMembers : List (String × Value) → List (String × Jv) → List (String × Jv)
  | [], acc => acc
  | m :: rest, acc => ofMembers rest (ofMember m acc)
termination_by structural members => members

/-- The key goes through `c_str()`. -/
def ofMember : String × Value → List (String × Jv) → List (String × Jv)
  | (key,v), acc => jvObjectSet (cString key) (ofValue v) acc
termination_by structural m => m

end

mutual

def toValue : Jv → Value
  | .null => .null
  | .bool b => .bool b
  | .number literal d => match literal.bind isIntegerLiteral with
    | some n => .int n
    | none => .double d
  | .string text => .string text
  | .array items => .array (toItems items)
  | .object members => .object (toMembers members [])
termination_by structural j => j

def toItems : List Jv → List Value
  | [] => []
  | j :: rest => toValue j :: toItems rest
termination_by structural items => items

def toMembers : List (String × Jv) → List (String × Value) → List (String × Value)
  | [], acc => acc
  | m :: rest, acc => toMembers rest (toMember m acc)
termination_by structural members => members

def toMember : String × Jv → List (String × Value) → List (String × Value)
  | (key,j), acc => Value.emplace key (toValue j) acc
termination_by structural m => m

end

end Jv

/-- `StepDataValue`: the bytes a step produced and, where they are JSON, the parsed value. -/
structure StepDataValue where
  json : Option Jv
  bytes : String

namespace StepDataValue

def null : StepDataValue := ⟨some .null,"null"⟩

variable (lib : Libjq)

def fromBytes (bytes : String) : StepDataValue := ⟨Jv.parse lib bytes,bytes⟩

def fromValue (value : Value) : StepDataValue :=
  ⟨some (Jv.ofValue lib value),(Jv.ofValue lib value).dump lib⟩

def toValue (d : StepDataValue) : Value :=
  match d.json with
  | some j => j.toValue
  | none => .string d.bytes

end StepDataValue
end Strij.OpenWorkflow
