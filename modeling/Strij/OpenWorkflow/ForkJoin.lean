import Strij.Lib.Json
import Strij.OpenWorkflow.Frame

/-! The join of a fork: the texts of the branches' results make one text, which is read again. -/
namespace Strij.OpenWorkflow
open Strij.Lib

namespace Jv

mutual

/-- The value of a JSON text, `number` being what is made of a number's literal. A later member of a name replaces
an earlier one. -/
def ofJson (number : String → Jv) : Json → Jv
  | .null => .null
  | .bool b => .bool b
  | .number literal => number (String.ofList literal)
  | .string text => .string (String.ofList text)
  | .array items => .array (ofJsonItems number items)
  | .object members => .object (ofJsonMembers number members [])
termination_by structural x => x

def ofJsonItems (number : String → Jv) : List Json → List Jv
  | [] => []
  | x :: items => ofJson number x :: ofJsonItems number items
termination_by structural items => items

def ofJsonMembers (number : String → Jv) : List (List Char × Json) → List (String × Jv) → List (String × Jv)
  | [], acc => acc
  | m :: members, acc => ofJsonMembers number members (ofJsonMember number m acc)
termination_by structural members => members

def ofJsonMember (number : String → Jv) : List Char × Json → List (String × Jv) → List (String × Jv)
  | (name,x), acc => jvObjectSet (String.ofList name) (ofJson number x) acc
termination_by structural m => m

end

lemma ofJsonItems_eq_map (number : String → Jv) (items : List Json) :
    ofJsonItems number items = items.map (ofJson number) := by
  induction items with
  | nil => rfl
  | cons x items ih => rw [ofJsonItems,ih,List.map_cons]

end Jv

section Texts
variable {lib : Libjq} {number : String → Jv}

/-- The whole text is one JSON text, and this is its value. -/
def JsonText (number : String → Jv) (text : String) (j : Jv) : Prop :=
  ∃ x, Json.Text x text.toList ∧ j = Jv.ofJson number x

def Libjq.ParsesJson (lib : Libjq) (number : String → Jv) : Prop :=
  ∀ text j, lib.jvParse text = some j ↔ JsonText number text j

/-- Bytes without a NUL are JSON exactly if they are one JSON text. -/
lemma fromBytes_json (hjson : lib.ParsesJson number) {text : String} (hnul : '\x00' ∉ text.toList) {j : Jv} :
    (StepDataValue.fromBytes lib text).json = some j ↔ JsonText number text j := by
  rw [StepDataValue.fromBytes,Jv.parse,cString_eq_self hnul]
  exact hjson text j

lemma not_mem_intercalate {c : Char} {texts : List (List Char)} (hcomma : c ≠ ',') (h : ∀ t ∈ texts, c ∉ t) :
    c ∉ [','].intercalate texts := by
  induction texts with
  | nil => exact List.not_mem_nil
  | cons t texts ih =>
    obtain ⟨ht,htexts⟩ := List.forall_mem_cons.mp h
    cases texts with
    | nil => simpa using ht
    | cons u texts =>
      rw [List.intercalate_cons_cons]
      simp only [List.mem_append,List.mem_singleton,not_or]
      exact ⟨⟨ht,hcomma⟩,ih htexts⟩

lemma toList_join (texts : List String) :
    ("[" ++ ",".intercalate texts ++ "]").toList = '[' :: ([','].intercalate (texts.map String.toList) ++ [']']) := by
  simp [String.toList_intercalate]

lemma JsonText.array {texts : List String} {js : List Jv} (h : List.Forall₂ (JsonText number) texts js) :
    JsonText number ("[" ++ ",".intercalate texts ++ "]") (.array js) := by
  obtain ⟨xs,htexts,rfl⟩ : ∃ xs, List.Forall₂ Json.Text xs (texts.map String.toList) ∧ js = xs.map (Jv.ofJson number) := by
    induction h with
    | nil => exact ⟨[],.nil,rfl⟩
    | cons hfirst _ ih =>
      obtain ⟨x,hx,rfl⟩ := hfirst
      obtain ⟨xs,hxs,rfl⟩ := ih
      exact ⟨x :: xs,.cons hx hxs,rfl⟩
  refine ⟨.array xs,?_,by rw [Jv.ofJson,Jv.ofJsonItems_eq_map]⟩
  rw [toList_join]
  exact Json.Text.array htexts

end Texts

section Join
variable {setup : Setup} {β κ : Type} {number : String → Jv}

lemma resultTexts_fromBytes {lib : Libjq} {branches : List (ForkBranch β κ)} {texts : List String}
    (hresults : branches.map ForkBranch.result = texts.map (fun t => some (.fromBytes lib t)))
    (haccepted : ∀ t ∈ texts, (StepDataValue.fromBytes lib t).json.isSome = true) :
    ForkFrame.resultTexts branches = .ok texts := by
  induction branches generalizing texts with
  | nil =>
    cases texts with
    | nil => rfl
    | cons t texts => cases hresults
  | cons b branches ih =>
    cases texts with
    | nil => cases hresults
    | cons t texts =>
      obtain ⟨hb,hrest⟩ := List.cons_eq_cons.mp hresults
      obtain ⟨ht,htexts⟩ := List.forall_mem_cons.mp haccepted
      rw [ForkFrame.resultTexts,hb]
      dsimp only
      rw [if_pos ht,ih hrest htexts]
      rfl

end Join

section Miniature

def jsonLib : Libjq where
  jvParse text := (Json.parse text.toList).map (Jv.ofJson (fun literal => .number (some literal) ⟨0⟩))
  jvDump _ := ""
  literalValue _ := ⟨0⟩
  showDouble _ := ""

lemma jsonLib_parsesJson : jsonLib.ParsesJson (fun literal => .number (some literal) ⟨0⟩) := by
  intro text j
  rw [jsonLib,Option.map_eq_some_iff]
  exact exists_congr fun x => and_congr Json.parse_eq_some eq_comm

def jsonSetup : Setup where
  engine := ⟨jsonLib,⟨fun _ _ => .ok (),fun _ _ _ _ => .error "cannot evaluate"⟩⟩
  parse _ := .error "no document"
  freshId _ := ""
  parentId := "w"

def returned (text : String) : ForkBranch Unit Unit :=
  ⟨{ id := 0, steps := [], forIterationBudget := 0 },some (.fromBytes jsonLib text)⟩

end Miniature

end Strij.OpenWorkflow
