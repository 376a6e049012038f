import Mathlib

/-! JSON: the texts of a value, and a parser that reads exactly these texts. -/
namespace Strij.Lib

/-- A value as it is written: numbers by their literal, objects by their list of members. -/
inductive Json
  | null
  | bool (b : Bool)
  | number (literal : List Char)
  | string (text : List Char)
  | array (items : List Json)
  | object (members : List (List Char × Json))

namespace Json

section Readers
variable {α : Type}

abbrev Reader (α : Type) := List Char → Option (α × List Char)

/-- The reader takes the texts of a value and nothing else, where the rest may follow such a text. -/
structure Reads (r : Reader α) (P : α → List Char → Prop) (Stop : List Char → Prop) : Prop where
  sound : ∀ {cs x rest}, r cs = some (x,rest) → ∃ text, cs = text ++ rest ∧ P x text
  complete : ∀ {x text rest}, P x text → Stop rest → r (text ++ rest) = some (x,rest)

/-- The text does not go on with such a character. -/
def Stops (p : Char → Bool) (rest : List Char) : Prop := ∀ c ∈ rest.head?, p c = false

def Starts (p : Char → Bool) (text : List Char) : Prop := ∃ c rest, text = c :: rest ∧ p c = true

end Readers

section Blanks
variable {α : Type} {r : Reader α} {P : α → List Char → Prop}

def isBlank (c : Char) : Bool := c ∈ [' ','\t','\n','\r']

def Blank (cs : List Char) : Prop := cs.all isBlank = true

def skip (cs : List Char) : List Char := cs.dropWhile isBlank

lemma blank_skip (cs : List Char) : ∃ w, Blank w ∧ cs = w ++ skip cs :=
  ⟨cs.takeWhile isBlank,List.all_takeWhile,List.takeWhile_append_dropWhile.symm⟩

lemma skip_append {w : List Char} (hw : Blank w) (cs : List Char) : skip (w ++ cs) = skip cs :=
  List.dropWhile_append_of_pos (List.all_eq_true.mp hw)

lemma skip_of_stops {cs : List Char} (h : Stops isBlank cs) : skip cs = cs := by
  cases cs with
  | nil => rfl
  | cons c rest => exact List.dropWhile_cons_of_neg (by simp [h c rfl])

end Blanks

section Words

def isWordChar (c : Char) : Bool := c.isAlphanum || c ∈ ['+','-','.']

def isDigits (cs : List Char) : Bool := cs ≠ [] && cs.all Char.isDigit

def isInt : List Char → Bool
  | [] => false
  | c :: cs => c.isDigit && cs.all Char.isDigit && (c ≠ '0' || cs = [])

def isExponent : List Char → Bool
  | [] => true
  | c :: cs => (c = 'e' || c = 'E') && match cs with
    | [] => false
    | d :: ds => if d = '+' || d = '-' then isDigits ds else isDigits (d :: ds)

def isFraction : List Char → Bool
  | [] => true
  | c :: cs =>
    if c = '.' then isDigits (cs.takeWhile Char.isDigit) && isExponent (cs.dropWhile Char.isDigit)
    else isExponent (c :: cs)

def isMagnitude (cs : List Char) : Bool :=
  isInt (cs.takeWhile Char.isDigit) && isFraction (cs.dropWhile Char.isDigit)

def isNumber : List Char → Bool
  | [] => false
  | c :: cs => if c = '-' then isMagnitude cs else isMagnitude (c :: cs)

def atom (word : List Char) : Option Json :=
  if word = ['n','u','l','l'] then some .null
  else if word = ['t','r','u','e'] then some (.bool true)
  else if word = ['f','a','l','s','e'] then some (.bool false)
  else if isNumber word then some (.number word)
  else none

/-- A literal or a number, by the longest word. -/
def readWord : Reader Json := fun cs =>
  (atom (cs.takeWhile isWordChar)).map (fun x => (x,cs.dropWhile isWordChar))

def Word : Json → List Char → Prop
  | .null, cs => cs = ['n','u','l','l']
  | .bool true, cs => cs = ['t','r','u','e']
  | .bool false, cs => cs = ['f','a','l','s','e']
  | .number literal, cs => cs = literal ∧ isNumber literal = true
  | _, _ => False

lemma atom_eq_some {word : List Char} {x : Json} : atom word = some x ↔ Word x word := by
  constructor
  · intro h
    rw [atom] at h
    split_ifs at h with hnull htrue hfalse hnumber
    · cases h
      exact hnull
    · cases h
      exact htrue
    · cases h
      exact hfalse
    · cases h
      exact ⟨rfl,hnumber⟩
  · intro h
    match x, h with
    | .null, h => rw [show word = _ from h]; rfl
    | .bool true, h => rw [show word = _ from h]; rfl
    | .bool false, h => rw [show word = _ from h]; rfl
    | .number literal, ⟨hword,hnumber⟩ =>
      subst hword
      rw [atom,if_neg,if_neg,if_neg,if_pos hnumber]
      all_goals
        rintro rfl
        cases hnumber

section Characters
variable {cs : List Char}

lemma word_of_digits (h : cs.all Char.isDigit = true) : cs.all isWordChar = true :=
  List.all_eq_true.mpr fun c hc => by simp [isWordChar,Char.isAlphanum,List.all_eq_true.mp h c hc]

lemma word_of_parts (hfirst : (cs.takeWhile Char.isDigit).all isWordChar = true)
    (hrest : (cs.dropWhile Char.isDigit).all isWordChar = true) : cs.all isWordChar = true := by
  rw [← List.takeWhile_append_dropWhile (p := Char.isDigit) (l := cs),List.all_append,hfirst,hrest,Bool.and_self]

lemma word_of_isDigits (h : isDigits cs = true) : cs.all isWordChar = true :=
  word_of_digits (Bool.and_eq_true_iff.mp h).2

lemma word_of_cons {c : Char} (hc : isWordChar c = true) (h : cs.all isWordChar = true) :
    (c :: cs).all isWordChar = true := by
  rw [List.all_cons,hc,h,Bool.and_self]

lemma word_of_isExponent (h : isExponent cs = true) : cs.all isWordChar = true := by
  cases cs with
  | nil => rfl
  | cons c cs =>
    obtain ⟨hc,h⟩ := Bool.and_eq_true_iff.mp h
    have hword : isWordChar c = true := by
      rcases Bool.or_eq_true_iff.mp hc with hc | hc
      · rw [of_decide_eq_true hc]
        decide
      · rw [of_decide_eq_true hc]
        decide
    refine word_of_cons hword ?_
    cases cs with
    | nil => rfl
    | cons d ds =>
      simp only at h
      split at h
      · next hd =>
        have hsign : isWordChar d = true := by
          rcases Bool.or_eq_true_iff.mp hd with hd | hd
          · rw [of_decide_eq_true hd]
            decide
          · rw [of_decide_eq_true hd]
            decide
        exact word_of_cons hsign (word_of_isDigits h)
      · exact word_of_isDigits h

lemma word_of_isFraction (h : isFraction cs = true) : cs.all isWordChar = true := by
  cases cs with
  | nil => rfl
  | cons c cs =>
    rw [isFraction] at h
    split at h
    · next hc =>
      obtain ⟨-,hexponent⟩ := Bool.and_eq_true_iff.mp h
      subst hc
      exact word_of_cons (by decide) (word_of_parts (word_of_digits List.all_takeWhile) (word_of_isExponent hexponent))
    · exact word_of_isExponent h

lemma word_of_isMagnitude (h : isMagnitude cs = true) : cs.all isWordChar = true := by
  obtain ⟨-,hfraction⟩ := Bool.and_eq_true_iff.mp h
  exact word_of_parts (word_of_digits List.all_takeWhile) (word_of_isFraction hfraction)

lemma word_of_isNumber (h : isNumber cs = true) : cs.all isWordChar = true := by
  cases cs with
  | nil => rfl
  | cons c cs =>
    rw [isNumber] at h
    split at h
    · next hc =>
      subst hc
      exact word_of_cons (by decide) (word_of_isMagnitude h)
    · exact word_of_isMagnitude h

lemma Word.chars {x : Json} (h : Word x cs) : cs ≠ [] ∧ cs.all isWordChar = true := by
  match x, h with
  | .null, h | .bool true, h | .bool false, h =>
    rw [show cs = _ from h]
    decide
  | .number literal, ⟨hword,hnumber⟩ =>
    subst hword
    refine ⟨?_,word_of_isNumber hnumber⟩
    rintro rfl
    cases hnumber

end Characters

lemma takeWhile_of_stops {p : Char → Bool} {text rest : List Char} (htext : text.all p = true) (hrest : Stops p rest) :
    (text ++ rest).takeWhile p = text ∧ (text ++ rest).dropWhile p = rest := by
  have htext := List.all_eq_true.mp htext
  rw [List.takeWhile_append_of_pos htext,List.dropWhile_append_of_pos htext]
  cases rest with
  | nil => simp
  | cons c rest =>
    have hc : p c = false := hrest c rfl
    simp [hc]

lemma readWord_reads : Reads readWord Word (Stops isWordChar) where
  sound {cs x rest} h := by
    obtain ⟨y,hatom,heq⟩ := Option.map_eq_some_iff.mp h
    cases heq
    exact ⟨_,List.takeWhile_append_dropWhile.symm,atom_eq_some.mp hatom⟩
  complete {x text rest} h hrest := by
    obtain ⟨htake,hdrop⟩ := takeWhile_of_stops h.chars.2 hrest
    rw [readWord,htake,hdrop,atom_eq_some.mpr h]
    rfl

end Words

section Strings
variable {us : List ℕ}

def hexDigit (c : Char) : Option ℕ :=
  if c.isDigit then some (c.toNat - '0'.toNat)
  else if 'a' ≤ c ∧ c ≤ 'f' then some (c.toNat - 'a'.toNat+10)
  else if 'A' ≤ c ∧ c ≤ 'F' then some (c.toNat - 'A'.toNat+10)
  else none

def hex (a b c d : Char) : Option ℕ := do
  return (((← hexDigit a)*16+(← hexDigit b))*16+(← hexDigit c))*16+(← hexDigit d)

def escape (c : Char) : Option ℕ :=
  ([('"',0x22),('\\',0x5c),('/',0x2f),('b',8),('f',12),('n',10),('r',13),('t',9)] : List (Char × ℕ)).lookup c

/-- The code units of a string, up to its closing quote. -/
def readUnits : Reader (List ℕ)
  | [] => none
  | c :: rest =>
    if c = '"' then some ([],rest)
    else if c = '\\' then match rest with
      | [] => none
      | e :: rest =>
        if e = 'u' then match rest with
          | a :: b :: c :: d :: rest => (hex a b c d).bind fun u => (readUnits rest).map (fun r => (u :: r.1,r.2))
          | _ => none
        else (escape e).bind fun u => (readUnits rest).map (fun r => (u :: r.1,r.2))
    else if c.toNat < 0x20 then none
    else (readUnits rest).map (fun r => (c.toNat :: r.1,r.2))
termination_by structural cs => cs

/-- A code unit that stands alone; half of a surrogate pair becomes U+FFFD. -/
def unitChar (u : ℕ) : Char := if 0xd800 ≤ u ∧ u < 0xe000 then '\ufffd' else Char.ofNat u

def unitChars : List ℕ → List Char
  | [] => []
  | [u] => [unitChar u]
  | u :: v :: rest =>
    if 0xd800 ≤ u ∧ u < 0xdc00 ∧ 0xdc00 ≤ v ∧ v < 0xe000 then
      Char.ofNat (0x10000+(u-0xd800)*0x400+(v-0xdc00)) :: unitChars rest
    else unitChar u :: unitChars (v :: rest)

def readString : Reader (List Char) := fun cs => (readUnits cs).map (fun r => (unitChars r.1,r.2))

inductive Body : List ℕ → List Char → Prop
  | close : Body [] ['"']
  | hex {a b c d : Char} {u : ℕ} {us : List ℕ} {text : List Char} (h : hex a b c d = some u) (hrest : Body us text) :
      Body (u :: us) ('\\' :: 'u' :: a :: b :: c :: d :: text)
  | escape {e : Char} {u : ℕ} {us : List ℕ} {text : List Char} (h : escape e = some u) (hrest : Body us text) :
      Body (u :: us) ('\\' :: e :: text)
  | plain {c : Char} {us : List ℕ} {text : List Char} (hquote : c ≠ '"') (hslash : c ≠ '\\') (hcontrol : ¬c.toNat < 0x20)
      (hrest : Body us text) : Body (c.toNat :: us) (c :: text)

lemma readUnits_sound {cs rest : List Char} (h : readUnits cs = some (us,rest)) :
    ∃ text, cs = text ++ rest ∧ Body us text := by
  fun_induction readUnits cs generalizing us with
  | case1 | case3 | case5 | case7 => cases h
  | case2 cs =>
    cases h
    exact ⟨['"'],rfl,.close⟩
  | case4 a b c d cs _ ih =>
    obtain ⟨u,hu,h⟩ := Option.bind_eq_some_iff.mp h
    obtain ⟨r,hr,heq⟩ := Option.map_eq_some_iff.mp h
    cases heq
    obtain ⟨text,rfl,hbody⟩ := ih hr
    exact ⟨_,rfl,.hex hu hbody⟩
  | case6 e cs _ _ ih =>
    obtain ⟨u,hu,h⟩ := Option.bind_eq_some_iff.mp h
    obtain ⟨r,hr,heq⟩ := Option.map_eq_some_iff.mp h
    cases heq
    obtain ⟨text,rfl,hbody⟩ := ih hr
    exact ⟨_,rfl,.escape hu hbody⟩
  | case8 c cs hquote hslash hcontrol ih =>
    obtain ⟨r,hr,heq⟩ := Option.map_eq_some_iff.mp h
    cases heq
    obtain ⟨text,rfl,hbody⟩ := ih hr
    exact ⟨_,rfl,.plain hquote hslash hcontrol hbody⟩

lemma readUnits_complete {text : List Char} (h : Body us text) (rest : List Char) :
    readUnits (text ++ rest) = some (us,rest) := by
  induction h with
  | close => simp [readUnits.eq_def]
  | hex h _ ih =>
    simp only [List.cons_append]
    rw [readUnits.eq_def]
    simp [h,ih]
  | @escape e _ _ _ h _ ih =>
    have hu : e ≠ 'u' := by
      rintro rfl
      cases h
    simp only [List.cons_append]
    rw [readUnits.eq_def]
    simp [h,ih,hu]
  | plain hquote hslash hcontrol _ ih =>
    rw [List.cons_append,readUnits.eq_def]
    simp [hquote,hslash,hcontrol,ih]

/-- The text after the opening quote spells the string. -/
def StringBody (chars text : List Char) : Prop := ∃ us, Body us text ∧ chars = unitChars us

lemma readString_reads : Reads readString StringBody (fun _ => True) where
  sound {cs x rest} h := by
    obtain ⟨r,hr,heq⟩ := Option.map_eq_some_iff.mp h
    cases heq
    obtain ⟨text,htext,hbody⟩ := readUnits_sound hr
    exact ⟨text,htext,_,hbody,rfl⟩
  complete {x text rest} h _ := by
    obtain ⟨us,hbody,rfl⟩ := h
    rw [readString,readUnits_complete hbody]
    rfl

end Strings

section Lists
variable {α : Type} {r : Reader α} {P : α → List Char → Prop} {close : Char} {x : α} {xs : List α}
  {k : ℕ} {cs text rest : List Char} {Stop : List Char → Prop}

/-- A character that a word or the blanks after it go on with. -/
def isInner (c : Char) : Bool := isWordChar c || isBlank c

/-- How a value or a member begins. -/
def isFirst (c : Char) : Bool := !isBlank c && c ∉ [']','\x7d']

def Padded (P : α → List Char → Prop) (x : α) (cs : List Char) : Prop :=
  ∃ before text after, Blank before ∧ P x text ∧ Blank after ∧ cs = before ++ (text ++ after)

def readPadded (r : Reader α) : Reader α := fun cs => (r (skip cs)).map (fun y => (y.1,skip y.2))

lemma Stops.of_blank {after : List Char} (hrest : Stops isInner rest) (hafter : Blank after) :
    Stops isWordChar (after ++ rest) := by
  intro c hc
  cases after with
  | nil => exact (Bool.or_eq_false_iff.mp (hrest c hc)).1
  | cons d after =>
    cases hc
    have hblank : isBlank c = true := List.all_eq_true.mp hafter c List.mem_cons_self
    simp only [isBlank,List.mem_cons,List.not_mem_nil,or_false,decide_eq_true_eq] at hblank
    rcases hblank with rfl | rfl | rfl | rfl <;> decide

lemma Stops.blank (h : Stops isInner rest) : Stops isBlank rest := fun c hc => (Bool.or_eq_false_iff.mp (h c hc)).2

lemma Starts.stops_blank (h : Starts isFirst text) (more : List Char) : Stops isBlank (text ++ more) := by
  obtain ⟨c,rest,rfl,hc⟩ := h
  rintro _ ⟨⟩
  simpa using (Bool.and_eq_true_iff.mp hc).1

lemma Reads.padded (h : Reads r P (Stops isWordChar)) (hfirst : ∀ x text, P x text → Starts isFirst text) :
    Reads (readPadded r) (Padded P) (Stops isInner) where
  sound {cs x rest} hread := by
    obtain ⟨y,hy,heq⟩ := Option.map_eq_some_iff.mp hread
    cases heq
    obtain ⟨text,htext,hP⟩ := h.sound hy
    obtain ⟨before,hbefore,hcs⟩ := blank_skip cs
    obtain ⟨after,hafter,hrest⟩ := blank_skip y.2
    refine ⟨before ++ (text ++ after),?_,before,text,after,hbefore,hP,hafter,rfl⟩
    rw [hcs,htext]
    nth_rewrite 1 [hrest]
    simp only [List.append_assoc]
  complete {x text rest} hpadded hrest := by
    obtain ⟨before,text,after,hbefore,hP,hafter,rfl⟩ := hpadded
    have hread : r (text ++ (after ++ rest)) = some (x,after ++ rest) := h.complete hP (hrest.of_blank hafter)
    rw [readPadded]
    simp only [List.append_assoc]
    rw [skip_append hbefore,skip_of_stops ((hfirst x text hP).stops_blank _),hread,Option.map_some,
      skip_append hafter,skip_of_stops hrest.blank]

lemma Padded.skip {rest : List Char} (h : Padded P x text) (hfirst : ∀ x text, P x text → Starts isFirst text) :
    Starts isFirst (skip (text ++ rest)) := by
  obtain ⟨before,text,after,hbefore,hP,-,rfl⟩ := h
  obtain ⟨c,more,rfl,hc⟩ := hfirst x text hP
  rw [List.append_assoc,skip_append hbefore,List.append_assoc,
    skip_of_stops (Starts.stops_blank ⟨c,more,rfl,hc⟩ _)]
  exact ⟨c,_,rfl,hc⟩

inductive Listed (close : Char) (P : α → List Char → Prop) : List α → List Char → Prop
  | last {x : α} {text : List Char} (h : P x text) : Listed close P [x] (text ++ [close])
  | cons {x : α} {xs : List α} {text body : List Char} (h : P x text) (hrest : Listed close P xs body) :
      Listed close P (x :: xs) (text ++ ',' :: body)

def readListed (close : Char) (r : Reader α) : ℕ → Reader (List α)
  | 0, _ => none
  | k+1, cs => (r cs).bind fun y => match y.2 with
    | [] => none
    | c :: rest =>
      if c = ',' then (readListed close r k rest).map (fun z => (y.1 :: z.1,z.2))
      else if c = close then some ([y.1],rest)
      else none

lemma readListed_sound (h : Reads r P Stop) (hread : readListed close r k cs = some (xs,rest)) :
    ∃ text, cs = text ++ rest ∧ Listed close P xs text := by
  induction k generalizing cs xs with
  | zero => cases hread
  | succ k ih =>
    obtain ⟨⟨x,more⟩,hx,hmore⟩ := Option.bind_eq_some_iff.mp hread
    obtain ⟨text,rfl,hP⟩ := h.sound hx
    cases more with
    | nil => cases hmore
    | cons c more =>
      dsimp only at hmore
      split_ifs at hmore with hcomma hclose
      · obtain ⟨z,hz,heq⟩ := Option.map_eq_some_iff.mp hmore
        cases heq
        obtain ⟨body,rfl,hbody⟩ := ih hz
        exact ⟨_,by rw [hcomma,List.append_assoc,List.cons_append],.cons hP hbody⟩
      · cases hmore
        exact ⟨_,by rw [hclose,List.append_assoc,List.singleton_append],.last hP⟩

lemma readListed_complete (h : Reads r P Stop) (hclose : close ≠ ',')
    (hstop : ∀ c rest, c = ',' ∨ c = close → Stop (c :: rest)) (hlisted : Listed close P xs text)
    (hk : xs.length ≤ k) (rest : List Char) : readListed close r k (text ++ rest) = some (xs,rest) := by
  induction hlisted generalizing k with
  | last hP =>
    obtain ⟨k,rfl⟩ := Nat.exists_eq_add_of_le' hk
    rw [List.append_assoc,List.singleton_append,List.length_singleton,readListed,
      h.complete hP (hstop _ _ (.inr rfl)),Option.bind_some]
    simp [hclose]
  | cons hP _ ih =>
    obtain ⟨k,rfl⟩ := Nat.exists_eq_add_of_le' hk
    rw [List.append_assoc,List.cons_append,List.length_cons,← Nat.add_assoc,readListed,
      h.complete hP (hstop _ _ (.inl rfl)),Option.bind_some]
    simp [ih (Nat.le_add_left _ _)]

def Collected (close : Char) (P : α → List Char → Prop) (xs : List α) (cs : List Char) : Prop :=
  xs = [] ∧ (∃ w, Blank w ∧ cs = w ++ [close]) ∨ Listed close (Padded P) xs cs

def readCollected (close : Char) (r : Reader α) : Reader (List α) := fun cs =>
  match skip cs with
  | [] => none
  | c :: rest => if c = close then some ([],rest) else readListed close (readPadded r) cs.length cs

lemma Listed.skip (h : Listed close (Padded P) xs text) (rest : List Char)
    (hfirst : ∀ x text, P x text → Starts isFirst text) : Starts isFirst (skip (text ++ rest)) := by
  cases h with
  | last h | cons h _ =>
    rw [List.append_assoc]
    exact h.skip hfirst

lemma Listed.length_le (h : Listed close P xs text) : xs.length ≤ text.length := by
  induction h with
  | last _ => simp
  | cons _ _ ih =>
    simp only [List.length_cons,List.length_append]
    omega

lemma Reads.collected (h : Reads r P (Stops isWordChar)) (hfirst : ∀ x text, P x text → Starts isFirst text)
    (hclose : close = ']' ∨ close = '\x7d') : Reads (readCollected close r) (Collected close P) (fun _ => True) where
  sound {cs xs rest} hread := by
    obtain ⟨w,hw,hcs⟩ := blank_skip cs
    rw [readCollected] at hread
    cases hskip : skip cs with
    | nil =>
      rw [hskip] at hread
      cases hread
    | cons c more =>
      rw [hskip] at hread hcs
      simp only at hread
      split_ifs at hread with hc
      · cases hread
        exact ⟨w ++ [close],by rw [hcs,hc,List.append_assoc,List.singleton_append],.inl ⟨rfl,w,hw,rfl⟩⟩
      · obtain ⟨text,htext,hlisted⟩ := readListed_sound (h.padded hfirst) hread
        exact ⟨text,htext,.inr hlisted⟩
  complete {xs text rest} hcollected _ := by
    rw [readCollected]
    rcases hcollected with ⟨rfl,w,hw,rfl⟩ | hlisted
    · have hstop : Stops isBlank (close :: rest) := by
        rintro _ ⟨⟩
        rcases hclose with rfl | rfl <;> decide
      rw [List.append_assoc,skip_append hw,List.singleton_append,skip_of_stops hstop]
      simp
    · obtain ⟨c,more,hskip,hc⟩ := hlisted.skip rest hfirst
      have hne : c ≠ close := by
        rintro rfl
        rcases hclose with rfl | rfl <;> cases hc
      have hlength : xs.length ≤ (text ++ rest).length := by
        have := hlisted.length_le
        rw [List.length_append]
        omega
      rw [hskip]
      dsimp only
      rw [if_neg hne]
      refine readListed_complete (h.padded hfirst) ?_ ?_ hlisted hlength rest
      · rcases hclose with rfl | rfl <;> decide
      · rintro c rest (rfl | rfl) _ ⟨⟩
        · decide
        · rcases hclose with rfl | rfl <;> decide

end Lists

section Members
variable {α : Type} {r : Reader α} {P : α → List Char → Prop}

/-- The texts of a member: its name, a colon and its value. -/
def Member (P : α → List Char → Prop) (m : List Char × α) (cs : List Char) : Prop :=
  ∃ name before after text, StringBody m.1 name ∧ Blank before ∧ Blank after ∧ P m.2 text ∧
    cs = '"' :: (name ++ (before ++ ':' :: (after ++ text)))

def readMember (r : Reader α) : Reader (List Char × α)
  | [] => none
  | c :: cs =>
    if c = '"' then (readString cs).bind fun y => match skip y.2 with
      | [] => none
      | d :: rest => if d = ':' then (r (skip rest)).map (fun z => ((y.1,z.1),z.2)) else none
    else none

lemma Reads.member (h : Reads r P (Stops isWordChar)) (hfirst : ∀ x text, P x text → Starts isFirst text) :
    Reads (readMember r) (Member P) (Stops isWordChar) where
  sound {cs m rest} hread := by
    cases cs with
    | nil => cases hread
    | cons c cs =>
      rw [readMember] at hread
      split_ifs at hread with hc
      obtain ⟨y,hy,hcolon⟩ := Option.bind_eq_some_iff.mp hread
      obtain ⟨name,hname,hbody⟩ := readString_reads.sound hy
      obtain ⟨before,hbefore,hy2⟩ := blank_skip y.2
      cases hskip : skip y.2 with
      | nil =>
        rw [hskip] at hcolon
        cases hcolon
      | cons d more =>
        rw [hskip] at hcolon hy2
        dsimp only at hcolon
        split_ifs at hcolon with hd
        obtain ⟨z,hz,heq⟩ := Option.map_eq_some_iff.mp hcolon
        cases heq
        obtain ⟨after,hafter,hmore⟩ := blank_skip more
        obtain ⟨text,htext,hP⟩ := h.sound hz
        refine ⟨_,?_,name,before,after,text,hbody,hbefore,hafter,hP,rfl⟩
        rw [hc,hname,hy2,hd,hmore,htext]
        simp only [List.append_assoc,List.cons_append]
  complete {m text rest} hmember hrest := by
    obtain ⟨name,before,after,text,hname,hbefore,hafter,hP,rfl⟩ := hmember
    have hcolon : Stops isBlank (':' :: (after ++ (text ++ rest))) := by
      rintro _ ⟨⟩
      decide
    simp only [List.append_assoc,List.cons_append]
    rw [readMember,if_pos rfl,readString_reads.complete hname trivial,Option.bind_some]
    dsimp only
    rw [skip_append hbefore,skip_of_stops hcolon]
    dsimp only
    rw [if_pos rfl,skip_append hafter,skip_of_stops ((hfirst _ _ hP).stops_blank _),h.complete hP hrest]
    rfl

end Members

section Values
variable {text : List Char} {n : ℕ}

/-- The texts of a value that is nested less than `n` deep. -/
def Spells : ℕ → Json → List Char → Prop
  | 0, _, _ => False
  | _+1, .string text, cs => ∃ body, cs = '"' :: body ∧ StringBody text body
  | n+1, .array items, cs => ∃ body, cs = '[' :: body ∧ Collected ']' (Spells n) items body
  | n+1, .object members, cs => ∃ body, cs = '\x7b' :: body ∧ Collected '\x7d' (Member (Spells n)) members body
  | _+1, x, cs => Word x cs

def readValue : ℕ → Reader Json
  | 0, _ => none
  | _+1, [] => none
  | n+1, c :: cs =>
    if c = '"' then (readString cs).map (fun y => (.string y.1,y.2))
    else if c = '[' then (readCollected ']' (readValue n) cs).map (fun y => (.array y.1,y.2))
    else if c = '\x7b' then (readCollected '\x7d' (readMember (readValue n)) cs).map (fun y => (.object y.1,y.2))
    else readWord (c :: cs)

lemma isFirst_of_isWordChar {c : Char} (h : isWordChar c = true) : isFirst c = true := by
  by_contra hfirst
  have hc : c ∈ [' ','\t','\n','\r',']','\x7d'] := by
    simp only [isFirst,isBlank] at hfirst
    simp at hfirst ⊢
    tauto
  simp only [List.mem_cons,List.not_mem_nil,or_false] at hc
  rcases hc with rfl | rfl | rfl | rfl | rfl | rfl <;> cases h

lemma Word.first {x : Json} (h : Word x text) : ∃ c rest, text = c :: rest ∧ isWordChar c = true := by
  obtain ⟨hne,hchars⟩ := h.chars
  cases text with
  | nil => exact absurd rfl hne
  | cons c rest => exact ⟨c,rest,rfl,List.all_eq_true.mp hchars c List.mem_cons_self⟩

lemma Spells.first {x : Json} (h : Spells n x text) : Starts isFirst text := by
  match n, x, h with
  | n+1, .string _, ⟨_,htext,_⟩ | n+1, .array _, ⟨_,htext,_⟩ | n+1, .object _, ⟨_,htext,_⟩ =>
    exact ⟨_,_,htext,by decide⟩
  | n+1, .null, h | n+1, .bool _, h | n+1, .number _, h =>
    obtain ⟨c,rest,htext,hc⟩ := Word.first h
    exact ⟨c,rest,htext,isFirst_of_isWordChar hc⟩

lemma readValue_word {x : Json} {rest : List Char} (h : Word x text) (hrest : Stops isWordChar rest) :
    readValue (n+1) (text ++ rest) = some (x,rest) := by
  have hread := readWord_reads.complete h hrest
  obtain ⟨c,more,rfl,hc⟩ := h.first
  rw [List.cons_append] at hread ⊢
  rw [readValue,if_neg,if_neg,if_neg,hread]
  all_goals
    rintro rfl
    cases hc

lemma Word.spells {x : Json} (h : Word x text) : Spells (n+1) x text := by
  match x, h with
  | .null, h | .bool _, h | .number _, h => exact h

lemma Member.first {α : Type} {P : α → List Char → Prop} {m : List Char × α} (h : Member P m text) :
    Starts isFirst text := by
  obtain ⟨_,_,_,_,_,_,_,_,rfl⟩ := h
  exact ⟨_,_,rfl,by decide⟩

lemma readValue_reads (n : ℕ) : Reads (readValue n) (Spells n) (Stops isWordChar) := by
  induction n with
  | zero =>
    constructor
    · intro cs x rest h
      cases h
    · intro x text rest h
      cases h
  | succ n ih =>
    have hitems : Reads (readCollected ']' (readValue n)) (Collected ']' (Spells n)) (fun _ => True) :=
      ih.collected (fun _ _ => Spells.first) (.inl rfl)
    have hmembers : Reads (readCollected '\x7d' (readMember (readValue n))) (Collected '\x7d' (Member (Spells n)))
        (fun _ => True) :=
      (ih.member fun _ _ => Spells.first).collected (fun _ _ => Member.first) (.inr rfl)
    constructor
    · intro cs x rest hread
      cases cs with
      | nil => cases hread
      | cons c cs =>
        rw [readValue] at hread
        split_ifs at hread with hstring harray hobject
        · obtain ⟨y,hy,heq⟩ := Option.map_eq_some_iff.mp hread
          cases heq
          obtain ⟨body,rfl,hbody⟩ := readString_reads.sound hy
          exact ⟨c :: body,rfl,body,by rw [hstring],hbody⟩
        · obtain ⟨y,hy,heq⟩ := Option.map_eq_some_iff.mp hread
          cases heq
          obtain ⟨body,rfl,hbody⟩ := hitems.sound hy
          exact ⟨c :: body,rfl,body,by rw [harray],hbody⟩
        · obtain ⟨y,hy,heq⟩ := Option.map_eq_some_iff.mp hread
          cases heq
          obtain ⟨body,rfl,hbody⟩ := hmembers.sound hy
          exact ⟨c :: body,rfl,body,by rw [hobject],hbody⟩
        · obtain ⟨text,htext,hword⟩ := readWord_reads.sound hread
          exact ⟨text,htext,hword.spells⟩
    · intro x text rest hspells hrest
      match x, hspells with
      | .string _, ⟨body,htext,hbody⟩ =>
        subst htext
        rw [List.cons_append,readValue,if_pos rfl,readString_reads.complete hbody trivial,Option.map_some]
      | .array _, ⟨body,htext,hbody⟩ =>
        subst htext
        rw [List.cons_append,readValue,if_neg (by decide),if_pos rfl,hitems.complete hbody trivial,Option.map_some]
      | .object _, ⟨body,htext,hbody⟩ =>
        subst htext
        rw [List.cons_append,readValue,if_neg (by decide),if_neg (by decide),if_pos rfl,
          hmembers.complete hbody trivial,Option.map_some]
      | .null, h | .bool _, h | .number _, h => exact readValue_word h hrest

end Values

section Depth
variable {α : Type} {P Q : α → List Char → Prop} {close : Char} {x : α} {xs : List α} {text : List Char}

lemma Padded.mono (h : Padded P x text) (hPQ : ∀ x t, t.length ≤ text.length → P x t → Q x t) : Padded Q x text := by
  obtain ⟨before,t,after,hbefore,hP,hafter,rfl⟩ := h
  refine ⟨before,t,after,hbefore,hPQ x t ?_ hP,hafter,rfl⟩
  simp only [List.length_append]
  omega

lemma Listed.mono (h : Listed close P xs text) (hPQ : ∀ x t, t.length ≤ text.length → P x t → Q x t) :
    Listed close Q xs text := by
  induction h with
  | last hP => exact .last (hPQ _ _ (by simp) hP)
  | cons hP _ ih =>
    refine .cons (hPQ _ _ (by simp) hP) (ih fun x t ht => hPQ x t (ht.trans ?_))
    simp only [List.length_append,List.length_cons]
    omega

lemma Collected.mono (h : Collected close P xs text) (hPQ : ∀ x t, t.length ≤ text.length → P x t → Q x t) :
    Collected close Q xs text :=
  h.imp_right fun hlisted => hlisted.mono fun _ _ ht hP => hP.mono fun x t ht' => hPQ x t (ht'.trans ht)

lemma Member.mono {m : List Char × α} (h : Member P m text) (hPQ : ∀ x t, t.length ≤ text.length → P x t → Q x t) :
    Member Q m text := by
  obtain ⟨name,before,after,t,hname,hbefore,hafter,hP,rfl⟩ := h
  refine ⟨name,before,after,t,hname,hbefore,hafter,hPQ _ _ ?_ hP,rfl⟩
  simp only [List.length_cons,List.length_append]
  omega

lemma Spells.of_length {n m : ℕ} {x : Json} {text : List Char} (h : Spells n x text) (hm : text.length ≤ m) :
    Spells m x text := by
  induction n generalizing x text m with
  | zero => cases h
  | succ n ih =>
    obtain ⟨c,rest,htext,-⟩ := h.first
    obtain ⟨m,rfl⟩ : ∃ k, m = k+1 := by
      rw [htext,List.length_cons] at hm
      exact ⟨m-1,by omega⟩
    match x, h with
    | .string _, h | .null, h | .bool _, h | .number _, h => exact h
    | .array items, ⟨body,hbody,hitems⟩ =>
      have hlength : body.length ≤ m := by simpa [hbody] using hm
      exact ⟨body,hbody,hitems.mono fun _ _ ht hx => ih hx (ht.trans hlength)⟩
    | .object members, ⟨body,hbody,hmembers⟩ =>
      have hlength : body.length ≤ m := by simpa [hbody] using hm
      exact ⟨body,hbody,hmembers.mono fun _ _ ht hx => hx.mono fun _ _ ht' hx => ih hx (ht'.trans (ht.trans hlength))⟩

end Depth

section Texts
variable {x : Json} {xs : List Json} {cs : List Char} {texts : List (List Char)} {n : ℕ}

/-- The whole text is one value, with blanks around it. -/
def Text (x : Json) (cs : List Char) : Prop := ∃ n, Padded (Spells n) x cs

def parse (cs : List Char) : Option Json :=
  match readPadded (readValue cs.length) cs with
  | some (x,[]) => some x
  | _ => none

lemma Text.of_length (h : Text x cs) (hn : cs.length ≤ n) : Padded (Spells n) x cs := by
  obtain ⟨k,hk⟩ := h
  exact hk.mono fun _ _ ht hx => hx.of_length (ht.trans hn)

/-- The parser accepts the texts of values and nothing else. -/
theorem parse_eq_some : parse cs = some x ↔ Text x cs := by
  have hreads := (readValue_reads cs.length).padded fun _ _ => Spells.first
  constructor
  · intro h
    rw [parse] at h
    split at h
    · next y hy =>
      cases h
      obtain ⟨text,htext,hpadded⟩ := hreads.sound hy
      rw [List.append_nil] at htext
      exact ⟨cs.length,by rwa [← htext] at hpadded⟩
    · cases h
  · intro h
    have hend : Stops isInner [] := fun c hc => nomatch hc
    have hread := hreads.complete (h.of_length le_rfl) hend
    rw [List.append_nil] at hread
    rw [parse,hread]

lemma Listed.of_forall₂ {α : Type} {P : α → List Char → Prop} {close : Char} {x : α} {xs : List α} {text : List Char}
    (hfirst : P x text) (h : List.Forall₂ P xs texts) :
    Listed close P (x :: xs) ([','].intercalate (text :: texts) ++ [close]) := by
  induction h generalizing x text with
  | nil => simpa using Listed.last hfirst
  | cons hsecond _ ih =>
    rw [List.intercalate_cons_cons,List.append_assoc,List.append_assoc]
    exact .cons hfirst (ih hsecond)

lemma Text.depth (h : List.Forall₂ Text xs texts)
    (hn : (texts.map List.length).sum ≤ n) : List.Forall₂ (Padded (Spells n)) xs texts := by
  induction h with
  | nil => exact .nil
  | cons hx _ ih =>
    rw [List.map_cons,List.sum_cons] at hn
    exact .cons (hx.of_length (by omega)) (ih (by omega))

theorem Text.array (h : List.Forall₂ Text xs texts) :
    Text (.array xs) ('[' :: ([','].intercalate texts ++ [']'])) := by
  refine ⟨(texts.map List.length).sum+1,[],_,[],rfl,⟨_,rfl,?_⟩,rfl,(List.append_nil _).symm⟩
  cases Text.depth h le_rfl with
  | nil => exact .inl ⟨rfl,[],rfl,rfl⟩
  | cons hfirst hrest => exact .inr (.of_forall₂ hfirst hrest)

end Texts

end Json
end Strij.Lib
