import Mathlib.Data.List.DropRight
import Mathlib.Data.Nat.Digits.Lemmas

/-! The grammar of HTTP/1.1 responses, as a reader that takes one complete message off the front of a
byte sequence: a status line, field lines, and a body delimited by its length or sent in chunks. -/
namespace Strij.Lib.Http

abbrev Bytes := List UInt8

def ascii (text : String) : Bytes := text.toList.map (fun c => UInt8.ofNat c.toNat)

def crlf : Bytes := [13,10]

/-- The line up to the first CRLF, and what follows it. -/
def readLine : Bytes → Option (Bytes × Bytes)
  | [] => none
  | b :: rest =>
    if b = 13 ∧ rest.head? = some 10 then some ([],rest.tail)
    else (readLine rest).map (fun r => (b :: r.1,r.2))

def splitFirst (separator : UInt8) : Bytes → Option (Bytes × Bytes)
  | [] => none
  | b :: rest =>
    if b = separator then some ([],rest) else (splitFirst separator rest).map (fun r => (b :: r.1,r.2))

section Numbers

def digitByte (d : ℕ) : UInt8 := UInt8.ofNat (if d < 10 then 48+d else 87+d)

def number (base n : ℕ) : Bytes :=
  if n = 0 then [digitByte 0] else ((Nat.digits base n).map digitByte).reverse

def digitValue (b : UInt8) : Option ℕ :=
  if 48 ≤ b ∧ b ≤ 57 then some (b.toNat-48)
  else if 97 ≤ b ∧ b ≤ 102 then some (b.toNat-87)
  else if 65 ≤ b ∧ b ≤ 70 then some (b.toNat-55)
  else none

def readDigit (base n : ℕ) (b : UInt8) : Option ℕ :=
  match digitValue b with
  | none => none
  | some d => if d < base then some (n*base+d) else none

def readNumber (base : ℕ) (text : Bytes) : Option ℕ :=
  if text = [] then none else text.foldlM (readDigit base) 0

end Numbers

def isBlank (b : UInt8) : Bool := b = 32 || b = 9

def trim (text : Bytes) : Bytes := (text.dropWhile isBlank).rdropWhile isBlank

def lower (b : UInt8) : UInt8 := if 65 ≤ b ∧ b ≤ 90 then b+32 else b

def readStatusLine (line : Bytes) : Option ℕ :=
  match splitFirst 32 line with
  | none => none
  | some (version,rest) =>
    match splitFirst 32 rest with
    | none => none
    | some (code,_) =>
      if version = ascii "HTTP/1.1" ∧ code.length = 3 then readNumber 10 code else none

/-- `field-name ":" OWS field-value OWS`, with the name in lower case. -/
def readField (line : Bytes) : Option (Bytes × Bytes) :=
  match splitFirst 58 line with
  | none => none
  | some (name,value) =>
    if name = [] ∨ name.any isBlank then none else some (name.map lower,trim value)

/-- Field lines up to an empty line. -/
def readFields : ℕ → Bytes → Option (List (Bytes × Bytes) × Bytes)
  | 0,_ => none
  | fuel+1,bytes =>
    match readLine bytes with
    | none => none
    | some (line,rest) =>
      if line = [] then some ([],rest)
      else match readField line with
        | none => none
        | some field => (readFields fuel rest).map (fun r => (field :: r.1,r.2))

/-- How the end of a body is found. -/
inductive Framing
  | chunked
  | length (n : ℕ)
  | untilClose
  deriving DecidableEq, Repr

def framing (status : ℕ) (fields : List (Bytes × Bytes)) : Option Framing :=
  if status < 200 ∨ status = 204 ∨ status = 304 then some (.length 0)
  else match fields.lookup (ascii "transfer-encoding") with
    | some coding => if coding.map lower = ascii "chunked" then some .chunked else none
    | none =>
      match fields.lookup (ascii "content-length") with
      | some text => (readNumber 10 text).map .length
      | none => some .untilClose

def takeExactly (n : ℕ) (bytes : Bytes) : Option (Bytes × Bytes) :=
  if n ≤ bytes.length then some (bytes.take n,bytes.drop n) else none

def readChunkSize (line : Bytes) : Option ℕ :=
  readNumber 16 ((line.takeWhile (· ≠ 59)).rdropWhile isBlank)

def readChunked : ℕ → Bytes → Option (Bytes × Bytes)
  | 0,_ => none
  | fuel+1,bytes =>
    match readLine bytes with
    | none => none
    | some (line,rest) =>
      match readChunkSize line with
      | none => none
      | some 0 => (readFields (rest.length+1) rest).map (fun r => ([],r.2))
      | some (n+1) =>
        match takeExactly (n+1) rest with
        | some (data,13 :: 10 :: rest) => (readChunked fuel rest).map (fun r => (data ++ r.1,r.2))
        | _ => none

structure Response where
  status : ℕ
  fields : List (Bytes × Bytes)
  body : Bytes
  deriving DecidableEq, Repr

/-- The status code, the fields, and what follows the empty line. -/
def readHead (bytes : Bytes) : Option (ℕ × List (Bytes × Bytes) × Bytes) :=
  match readLine bytes with
  | none => none
  | some (line,rest) =>
    match readStatusLine line,readFields (rest.length+1) rest with
    | some status,some (fields,rest) => some (status,fields,rest)
    | _,_ => none

/-- A body that ends with the connection is not complete before that. -/
def readBody (framing : Framing) (bytes : Bytes) : Option (Bytes × Bytes) :=
  match framing with
  | .chunked => readChunked (bytes.length+1) bytes
  | .length n => takeExactly n bytes
  | .untilClose => none

/-- The first complete response, and what follows it. -/
def readResponse (bytes : Bytes) : Option (Response × Bytes) :=
  match readHead bytes with
  | none => none
  | some (status,fields,rest) =>
    ((framing status fields).bind (readBody · rest)).map (fun r => (⟨status,fields,r.1⟩,r.2))

/-- The bytes are one complete response and nothing else. -/
def IsResponse (bytes : Bytes) : Prop := (readResponse bytes).any (fun r => r.2.isEmpty) = true

instance (bytes : Bytes) : Decidable (IsResponse bytes) := inferInstanceAs (Decidable (_ = true))

section Lines
variable {line rest : Bytes} {b separator : UInt8}

lemma readLine_append (h : 13 ∉ line) : readLine (line ++ (crlf ++ rest)) = some (line,rest) := by
  induction line with
  | nil => simp [readLine,crlf]
  | cons b line ih =>
    obtain ⟨hb,hline⟩ := not_or.mp (mt List.mem_cons.mpr h)
    rw [List.cons_append,readLine,if_neg (fun hcr => hb hcr.1.symm),ih hline]
    rfl

lemma splitFirst_append (h : separator ∉ line) :
    splitFirst separator (line ++ separator :: rest) = some (line,rest) := by
  induction line with
  | nil => simp [splitFirst]
  | cons b line ih =>
    obtain ⟨hb,hline⟩ := not_or.mp (mt List.mem_cons.mpr h)
    rw [List.cons_append,splitFirst,if_neg (Ne.symm hb),ih hline]
    rfl

end Lines

section Numbers
variable {base n : ℕ}

lemma digitValue_digitByte : ∀ d < 16, digitValue (digitByte d) = some d := by decide

lemma digitByte_plain : ∀ d < 16, digitByte d ∉ [9,10,13,32,58,59] := by decide

lemma readDigit_digitByte {d : ℕ} (n : ℕ) (hd : d < base) (hbase : base ≤ 16) :
    readDigit base n (digitByte d) = some (n*base+d) := by
  rw [readDigit,digitValue_digitByte d (by omega)]
  exact if_pos hd

lemma readNumber_number (hbase : 2 ≤ base) (hbase' : base ≤ 16) : readNumber base (number base n) = some n := by
  rw [readNumber,number]
  by_cases hn : n = 0
  · subst hn
    have hzero : readDigit base 0 (digitByte 0) = some 0 := by
      simpa using readDigit_digitByte 0 (show 0 < base by omega) hbase'
    simp [hzero]
  · rw [if_neg hn]
    have hne : ((Nat.digits base n).map digitByte).reverse ≠ [] := by
      simpa using Nat.digits_ne_nil_iff_ne_zero.mpr hn
    rw [if_neg hne]
    have hread (ds : List ℕ) (hds : ∀ d ∈ ds, d < base) :
        (ds.map digitByte).reverse.foldlM (readDigit base) 0 = some (Nat.ofDigits base ds) := by
      induction ds with
      | nil => rfl
      | cons d ds ih =>
        obtain ⟨hd,hds⟩ := List.forall_mem_cons.mp hds
        have hlast : readDigit base (Nat.ofDigits base ds) (digitByte d) = some (Nat.ofDigits base (d :: ds)) := by
          rw [readDigit_digitByte _ hd hbase',Nat.ofDigits_cons,Nat.add_comm,Nat.mul_comm]
        rw [List.map_cons,List.reverse_cons,List.foldlM_append,ih hds]
        simpa using hlast
    rw [hread _ (fun d hd => Nat.digits_lt_base (by omega) hd),Nat.ofDigits_digits]

lemma mem_number (hbase : 2 ≤ base) (hbase' : base ≤ 16) {b : UInt8} (hb : b ∈ number base n) :
    b ∉ [9,10,13,32,58,59] := by
  rw [number] at hb
  split at hb
  · cases List.mem_singleton.mp hb
    decide
  · obtain ⟨d,hd,rfl⟩ := List.mem_map.mp (List.mem_reverse.mp hb)
    exact digitByte_plain d ((Nat.digits_lt_base (by omega) hd).trans_le hbase')

lemma number_ne_nil : number base n ≠ [] := by
  rw [number]
  split
  · simp
  · next hn => simpa using Nat.digits_ne_nil_iff_ne_zero.mpr hn

end Numbers

section Messages
variable {line rest : Bytes} {lines : List Bytes} {fields : List (Bytes × Bytes)} {fuel status : ℕ}

def IsField (line : Bytes) (field : Bytes × Bytes) : Prop := 13 ∉ line ∧ readField line = some field

lemma isField_of_plain {name value : Bytes} (hname : name ≠ []) (hplain : ∀ b ∈ name, b ∉ [9,13,32,58])
    (hvalue : value ≠ []) (hplain' : ∀ b ∈ value, b ∉ [9,13,32]) :
    IsField (name ++ 58 :: 32 :: value) (name.map lower,value) := by
  have hcolon : (58 : UInt8) ∉ name := fun hmem => hplain 58 hmem (by decide)
  have hblank : ¬ (name = [] ∨ name.any isBlank = true) := by
    rintro (h | h)
    · exact hname h
    · obtain ⟨b,hb,hblank⟩ := List.any_eq_true.mp h
      have := hplain b hb
      simp_all [isBlank]
  have htrim : trim (32 :: value) = value := by
    obtain ⟨b,rest,rfl⟩ := List.exists_cons_of_ne_nil hvalue
    have hb : isBlank b = false := by
      have := hplain' b List.mem_cons_self
      simp_all [isBlank]
    have hdrop : (32 :: b :: rest).dropWhile isBlank = b :: rest := by
      rw [List.dropWhile_cons_of_pos (by decide),List.dropWhile_cons_of_neg (by simp [hb])]
    rw [trim,hdrop,List.rdropWhile_eq_self_iff]
    intro hne
    have := hplain' _ (List.getLast_mem hne)
    simp_all [isBlank]
  refine ⟨fun hmem => ?_,?_⟩
  · rcases List.mem_append.mp hmem with hmem | hmem
    · exact hplain 13 hmem (by decide)
    · rcases List.mem_cons.mp hmem with hmem | hmem
      · cases hmem
      · rcases List.mem_cons.mp hmem with hmem | hmem
        · cases hmem
        · exact hplain' 13 hmem (by decide)
  · rw [readField,splitFirst_append hcolon]
    simp only [hblank,if_false,htrim]

lemma readFields_lines (h : List.Forall₂ IsField lines fields) (hfuel : lines.length < fuel) :
    readFields fuel (lines.flatMap (· ++ crlf) ++ (crlf ++ rest)) = some (fields,rest) := by
  induction h generalizing fuel with
  | nil =>
    obtain ⟨fuel,rfl⟩ := Nat.exists_eq_succ_of_ne_zero (Nat.pos_iff_ne_zero.mp hfuel)
    have hempty : readLine (crlf ++ rest) = some ([],rest) := rfl
    rw [readFields,List.flatMap_nil,List.nil_append,hempty]
    rfl
  | @cons line field lines fields hfield _ ih =>
    obtain ⟨hcr,hread⟩ := hfield
    obtain ⟨fuel,rfl⟩ := Nat.exists_eq_succ_of_ne_zero (Nat.ne_zero_of_lt hfuel)
    have hne : line ≠ [] := by
      rintro rfl
      cases hread
    rw [readFields,List.flatMap_cons,List.append_assoc,List.append_assoc,readLine_append hcr]
    simp only [hne,if_false,hread]
    rw [ih (by simpa using hfuel)]
    rfl

def head (line : Bytes) (lines : List Bytes) : Bytes :=
  line ++ (crlf ++ (lines.flatMap (· ++ crlf) ++ crlf))

lemma length_le_flatMap (lines : List Bytes) : lines.length ≤ (lines.flatMap (· ++ crlf)).length := by
  induction lines with
  | nil => exact Nat.le_refl _
  | cons line lines ih =>
    have hcrlf : crlf.length = 2 := rfl
    rw [List.flatMap_cons,List.length_append,List.length_append,List.length_cons,hcrlf]
    omega

lemma readHead_head (hcr : 13 ∉ line) (hstatus : readStatusLine line = some status)
    (h : List.Forall₂ IsField lines fields) :
    readHead (head line lines ++ rest) = some (status,fields,rest) := by
  rw [readHead,head,List.append_assoc,List.append_assoc,readLine_append hcr]
  simp only [hstatus]
  rw [List.append_assoc,readFields_lines h]
  rw [List.length_append]
  have := length_le_flatMap lines
  omega

lemma readResponse_head {f : Framing} {body rest' : Bytes} (hcr : 13 ∉ line)
    (hstatus : readStatusLine line = some status) (h : List.Forall₂ IsField lines fields)
    (hframing : framing status fields = some f) (hbody : readBody f rest = some (body,rest')) :
    readResponse (head line lines ++ rest) = some (⟨status,fields,body⟩,rest') := by
  rw [readResponse,readHead_head hcr hstatus h]
  simp [hframing,hbody]

end Messages

section Chunks
variable {data rest : Bytes} {fuel : ℕ} {chunks : List Bytes}

lemma readChunkSize_number (n : ℕ) : readChunkSize (number 16 n) = some n := by
  have hplain (b : UInt8) (hb : b ∈ number 16 n) := mem_number (by decide) (by decide) hb
  have hsemicolon : (number 16 n).takeWhile (· ≠ 59) = number 16 n := by
    rw [List.takeWhile_eq_self_iff]
    intro b hb
    have := hplain b hb
    simp_all
  have hblank : (number 16 n).rdropWhile isBlank = number 16 n := by
    rw [List.rdropWhile_eq_self_iff]
    intro hne
    have := hplain _ (List.getLast_mem hne)
    simp_all [isBlank]
  rw [readChunkSize,hsemicolon,hblank,readNumber_number (by decide) (by decide)]

def chunk (data : Bytes) : Bytes := number 16 data.length ++ (crlf ++ (data ++ crlf))

/-- The last chunk and an empty trailer section. -/
def lastChunk : Bytes := number 16 0 ++ (crlf ++ crlf)

lemma number_not_cr (n : ℕ) : 13 ∉ number 16 n := by
  intro hmem
  have := mem_number (by decide) (by decide) hmem
  simp at this

lemma readChunked_chunk (hdata : data ≠ []) : readChunked (fuel+1) (chunk data ++ rest) =
      (readChunked fuel rest).map (fun r => (data ++ r.1,r.2)) := by
  obtain ⟨n,hn⟩ : ∃ n, data.length = n+1 :=
    Nat.exists_eq_succ_of_ne_zero (fun h => hdata (List.length_eq_zero_iff.mp h))
  have htake : takeExactly (n+1) (data ++ (crlf ++ rest)) = some (data,13 :: 10 :: rest) := by
    rw [takeExactly,← hn,if_pos (by simp),List.take_left,List.drop_left]
    rfl
  rw [readChunked,chunk,List.append_assoc,List.append_assoc,List.append_assoc,
    readLine_append (number_not_cr _)]
  simp only [readChunkSize_number,hn,htake]

lemma readChunked_lastChunk : readChunked (fuel+1) (lastChunk ++ rest) = some ([],rest) := by
  have hfields : readFields ((crlf ++ rest).length+1) (crlf ++ rest) = some ([],rest) :=
    @readFields_lines rest [] [] _ .nil (by simp)
  rw [readChunked,lastChunk,List.append_assoc,List.append_assoc,readLine_append (number_not_cr _)]
  simp only [readChunkSize_number,hfields,Option.map_some]

lemma readChunked_chunks (hchunks : ∀ data ∈ chunks, data ≠ []) (hfuel : chunks.length < fuel) :
    readChunked fuel (chunks.flatMap chunk ++ (lastChunk ++ rest)) = some (chunks.flatten,rest) := by
  induction chunks generalizing fuel with
  | nil =>
    obtain ⟨fuel,rfl⟩ := Nat.exists_eq_succ_of_ne_zero (Nat.ne_zero_of_lt hfuel)
    exact readChunked_lastChunk
  | cons data chunks ih =>
    obtain ⟨hdata,hchunks⟩ := List.forall_mem_cons.mp hchunks
    obtain ⟨fuel,rfl⟩ := Nat.exists_eq_succ_of_ne_zero (Nat.ne_zero_of_lt hfuel)
    rw [List.flatMap_cons,List.append_assoc,readChunked_chunk hdata,ih hchunks (by simpa using hfuel)]
    rfl

lemma length_le_flatMap_chunk (chunks : List Bytes) : chunks.length ≤ (chunks.flatMap chunk).length := by
  induction chunks with
  | nil => exact Nat.le_refl _
  | cons data chunks ih =>
    rw [List.flatMap_cons,List.length_append,chunk,List.length_append,List.length_append,crlf,
      List.length_cons,List.length_cons]
    omega

lemma readBody_chunks (hchunks : ∀ data ∈ chunks, data ≠ []) :
    readBody .chunked (chunks.flatMap chunk ++ (lastChunk ++ rest)) = some (chunks.flatten,rest) := by
  rw [readBody]
  refine readChunked_chunks hchunks ?_
  have := length_le_flatMap_chunk chunks
  rw [List.length_append]
  omega

lemma readBody_length : readBody (.length data.length) (data ++ rest) = some (data,rest) := by
  rw [readBody,takeExactly,if_pos (by simp),List.take_left,List.drop_left]

end Chunks
end Strij.Lib.Http
