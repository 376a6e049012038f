import Mathlib

/-! Asynchronous log entries: the arguments are packed by overloads on their own types, and read back by their
decayed types. -/
namespace Strij.Logging

abbrev Bytes := List UInt8

def kLogArgsDataSize : ℕ := 512

/-- An argument of `log_impl`; an integer is given by its representation. -/
inductive Arg
  | integer (signed : Bool) (size : ℕ) (value : Fin (256^size))
  | string (text : Bytes)
  | stringView (text : Bytes)
  /-- A `const char[N]`, whose last character is the terminator. -/
  | literal (text : Bytes)
  | pointer (address : Fin (256^8))

/-- `std::decay_t` of an argument's type. -/
inductive ArgType
  | integer (signed : Bool) (size : ℕ)
  | string
  | stringView
  | charPointer
  deriving DecidableEq

inductive FormatArg
  | integer (signed : Bool) (size value : ℕ)
  | string (text : Bytes)
  | stringView (text : Bytes)
  | cString (text : Bytes)
  deriving DecidableEq

def Arg.type : Arg → ArgType
  | .integer signed size _ => .integer signed size
  | .string _ => .string
  | .stringView _ => .stringView
  | .literal _ | .pointer _ => .charPointer

/-- The argument as it is, where a C string is read up to its terminator. -/
def Arg.direct (memory : ℕ → Bytes) : Arg → FormatArg
  | .integer signed size value => .integer signed size value
  | .string text => .string text
  | .stringView text => .stringView text
  | .literal text => .cString (text.takeWhile (· ≠ 0))
  | .pointer address => .cString ((memory address).takeWhile (· ≠ 0))

def toBytes : ℕ → ℕ → Bytes
  | 0, _ => []
  | size+1, value => UInt8.ofNat value :: toBytes size (value/256)

def ofBytes : Bytes → ℕ
  | [] => 0
  | b :: bytes => b.toNat+256*ofBytes bytes

section Packing

structure Cursor where
  written : Bytes
  rest : Bytes

/-- `std::memcpy` to `ptr`; `none` if it would write past the end. -/
def Cursor.write (c : Cursor) (bytes : Bytes) : Option Cursor :=
  if bytes.length ≤ c.rest.length then some ⟨c.written ++ bytes,c.rest.drop bytes.length⟩ else none

def Arg.copies : Arg → List Bytes
  | .integer _ size value => [toBytes size value]
  | .string text | .stringView text => [toBytes 8 text.length,text]
  | .literal text => [text ++ [0]]
  | .pointer address => [toBytes 8 address]

def packArg (c : Cursor) (arg : Arg) : Option Cursor := arg.copies.foldlM Cursor.write c

def packedArgSize : Arg → ℕ
  | .integer _ size _ => size
  | .string text | .stringView text => 8+text.length
  | .literal text => text.length+1
  | .pointer _ => 8

def packedArgsSize (args : List Arg) : ℕ := (args.map packedArgSize).sum

inductive Logged
  | dropped (message : String)
  | entry (types : List ArgType) (data : Bytes)
  deriving DecidableEq

def logImpl (fmt : String) (args : List Arg) : Option Logged :=
  if packedArgsSize args > kLogArgsDataSize then
    some (.dropped ("log entry dropped: args exceed " ++ toString kLogArgsDataSize ++ " bytes: " ++ fmt))
  else (args.foldlM packArg ⟨[],List.replicate kLogArgsDataSize 0⟩).map fun c =>
    .entry (args.map Arg.type) (c.written ++ c.rest)

end Packing

section Unpacking

def takeBytes (n : ℕ) (rest : Bytes) : Option (Bytes × Bytes) :=
  if n ≤ rest.length then some (rest.take n,rest.drop n) else none

def unpackText (rest : Bytes) : Option (Bytes × Bytes) := do
  let (size,rest) ← takeBytes 8 rest
  takeBytes (ofBytes size) rest

/-- The C string at the start of the bytes, if its terminator is among them. -/
def cString (bytes : Bytes) : Option Bytes := if 0 ∈ bytes then some (bytes.takeWhile (· ≠ 0)) else none

/-- `Unpacker::unpack`. For a character pointer the value is the address in the buffer, and the cursor moves by the
size of a pointer. -/
def unpack (rest : Bytes) : ArgType → Option (FormatArg × Bytes)
  | .integer signed size => (takeBytes size rest).map fun r => (.integer signed size (ofBytes r.1),r.2)
  | .string => (unpackText rest).map fun r => (.string r.1,r.2)
  | .stringView => (unpackText rest).map fun r => (.stringView r.1,r.2)
  | .charPointer => (cString rest).map fun text => (.cString text,rest.drop 8)

def unpackAll : List ArgType → Bytes → Option (List FormatArg)
  | [], _ => some []
  | type :: types, rest => do
    let (arg,rest) ← unpack rest type
    return arg :: (← unpackAll types rest)

def formatTrampoline {α : Type} (vformat : String → List FormatArg → α) (fmt : String) (types : List ArgType)
    (data : Bytes) : Option α := (unpackAll types data).map (vformat fmt)

end Unpacking

section RoundTrip
variable {args : List Arg}

@[simp] lemma length_toBytes (size value : ℕ) : (toBytes size value).length = size := by
  induction size generalizing value with
  | zero => rfl
  | succ size ih => simp [toBytes,ih]

lemma ofBytes_toBytes {size value : ℕ} (h : value < 256^size) : ofBytes (toBytes size value) = value := by
  induction size generalizing value with
  | zero => exact (Nat.lt_one_iff.mp h).symm
  | succ size ih =>
    have hrest : value/256 < 256^size := Nat.div_lt_of_lt_mul (by rwa [pow_succ'] at h)
    rw [toBytes,ofBytes,ih hrest,UInt8.toNat_ofNat']
    exact Nat.mod_add_div value 256

lemma foldlM_write {copies : List Bytes} {c : Cursor} (h : copies.flatten.length ≤ c.rest.length) :
    copies.foldlM Cursor.write c = some ⟨c.written ++ copies.flatten,c.rest.drop copies.flatten.length⟩ := by
  induction copies generalizing c with
  | nil => simp
  | cons bytes copies ih =>
    rw [List.flatten_cons,List.length_append] at h
    rw [List.foldlM_cons,Cursor.write,if_pos (by omega)]
    refine (ih (by rw [List.length_drop]; omega)).trans ?_
    simp

lemma length_copies (arg : Arg) : arg.copies.flatten.length = packedArgSize arg := by
  cases arg <;> simp [Arg.copies,packedArgSize]

lemma foldlM_packArg {c : Cursor} (h : packedArgsSize args ≤ c.rest.length) :
    ∃ rest, args.foldlM packArg c = some ⟨c.written ++ args.flatMap (·.copies.flatten),rest⟩ := by
  induction args generalizing c with
  | nil => exact ⟨c.rest,by simp⟩
  | cons arg args ih =>
    rw [packedArgsSize,List.map_cons,List.sum_cons,← packedArgsSize,← length_copies] at h
    obtain ⟨rest,hrest⟩ := ih (c := ⟨c.written ++ arg.copies.flatten,c.rest.drop arg.copies.flatten.length⟩)
      (by rw [List.length_drop]; omega)
    refine ⟨rest,?_⟩
    rw [List.foldlM_cons,packArg,foldlM_write (by omega)]
    exact hrest.trans (by rw [List.flatMap_cons,List.append_assoc])

lemma cString_literal (text rest : Bytes) : cString (text ++ [0] ++ rest) = some (text.takeWhile (· ≠ 0)) := by
  rw [cString,if_pos (by simp)]
  induction text with
  | nil => simp
  | cons b text ih =>
    by_cases hb : b = 0
    · simp [hb]
    · simpa [hb] using ih

lemma takeBytes_append (bytes rest : Bytes) : takeBytes bytes.length (bytes ++ rest) = some (bytes,rest) := by
  simp [takeBytes]

lemma takeBytes_toBytes (size value : ℕ) (rest : Bytes) :
    takeBytes size (toBytes size value ++ rest) = some (toBytes size value,rest) := by
  simpa using takeBytes_append (toBytes size value) rest

lemma unpackText_append {text : Bytes} (h : 8+text.length ≤ kLogArgsDataSize) (rest : Bytes) :
    unpackText (toBytes 8 text.length ++ text ++ rest) = some (text,rest) := by
  rw [unpackText,List.append_assoc,takeBytes_toBytes,Option.bind_eq_bind,Option.bind_some]
  dsimp only
  rw [ofBytes_toBytes (by rw [kLogArgsDataSize] at h; omega)]
  exact takeBytes_append text rest

/-- The arguments are no pointers, and a literal that is not the last one takes as many bytes as a pointer. -/
def InPlace : List Arg → Prop
  | [] => True
  | .pointer _ :: _ => False
  | .literal text :: args => (args = [] ∨ text.length+1 = 8) ∧ InPlace args
  | _ :: args => InPlace args

lemma unpack_copies (memory : ℕ → Bytes) {arg : Arg} (h : InPlace (arg :: args))
    (hsize : packedArgSize arg ≤ kLogArgsDataSize) (rest : Bytes) : InPlace args ∧ ∃ rest',
      unpack (arg.copies.flatten ++ rest) arg.type = some (arg.direct memory,rest') ∧ (args = [] ∨ rest' = rest) := by
  cases arg with
  | integer signed size value =>
    refine ⟨h,rest,?_,.inr rfl⟩
    simp only [Arg.copies,List.flatten_cons,List.flatten_nil,List.append_nil,Arg.type,unpack,takeBytes_toBytes,
      Option.map_some,ofBytes_toBytes value.isLt,Arg.direct]
  | string text =>
    refine ⟨h,rest,?_,.inr rfl⟩
    simp only [Arg.copies,List.flatten_cons,List.flatten_nil,List.append_nil,Arg.type,unpack,
      unpackText_append hsize,Option.map_some,Arg.direct]
  | stringView text =>
    refine ⟨h,rest,?_,.inr rfl⟩
    simp only [Arg.copies,List.flatten_cons,List.flatten_nil,List.append_nil,Arg.type,unpack,
      unpackText_append hsize,Option.map_some,Arg.direct]
  | literal text =>
    refine ⟨h.2,(text ++ [0] ++ rest).drop 8,?_,h.1.imp_right fun hlength => ?_⟩
    · simp only [Arg.copies,List.flatten_cons,List.flatten_nil,List.append_nil,Arg.type,unpack,cString_literal,
        Option.map_some,Arg.direct]
    · exact List.drop_left' (by rw [List.length_append]; exact hlength)
  | pointer address => exact h.elim

lemma unpackAll_copies (memory : ℕ → Bytes) (h : InPlace args)
    (hsize : packedArgsSize args ≤ kLogArgsDataSize) (rest : Bytes) :
    unpackAll (args.map Arg.type) (args.flatMap (·.copies.flatten) ++ rest) = some (args.map (Arg.direct memory)) := by
  induction args with
  | nil => rfl
  | cons arg args ih =>
    rw [packedArgsSize,List.map_cons,List.sum_cons,← packedArgsSize] at hsize
    obtain ⟨hargs,rest',hunpack,hrest⟩ :=
      unpack_copies memory h (by omega) (args.flatMap (·.copies.flatten) ++ rest)
    rw [List.map_cons,List.flatMap_cons,List.append_assoc,unpackAll,hunpack,Option.bind_eq_bind,Option.bind_some]
    rcases hrest with rfl | rfl
    · rfl
    · dsimp only
      rw [ih hargs (by omega)]
      rfl

end RoundTrip
end Strij.Logging
