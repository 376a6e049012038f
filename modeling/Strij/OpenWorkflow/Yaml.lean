import Strij.Lib.Yaml
import Strij.OpenWorkflow.Value

/-! Opaque values in a document. `decodeValue` goes by the text of a scalar and not by its quotes, so it
gives back what was written only if no string reads as a scalar of another kind. -/
namespace Strij.OpenWorkflow
open Strij.Lib

/-- The scalar conversions of yaml-cpp, which read the text that a boolean or an integer is written as. -/
structure Conversions where
  bool : String → Option Bool
  int : String → Option Int64
  double : String → Option Double
  bool_true : bool "true" = some true
  bool_false : bool "false" = some false
  bool_int : ∀ n : Int64, bool (toString n.toInt) = none
  int_int : ∀ n : Int64, int (toString n.toInt) = some n

section Decode
variable (conversions : Conversions)

def decodeScalar (text : String) : Value :=
  match conversions.bool text with
  | some b => .bool b
  | none => match conversions.int text with
    | some n => .int n
    | none => match conversions.double text with
      | some d => .double d
      | none => .string text

mutual

def decodeValue : YamlNode → Value
  | .undefined => .null
  | .null => .null
  | .scalar _ text => decodeScalar conversions text
  | .sequence items => .array (decodeItems items)
  | .map entries => .object (decodeEntries entries [])
termination_by structural node => node

def decodeItems : List YamlNode → List Value
  | [] => []
  | node :: nodes => decodeValue node :: decodeItems nodes
termination_by structural nodes => nodes

def decodeEntries : List (String × YamlNode) → List (String × Value) → List (String × Value)
  | [], object => object
  | entry :: entries, object => decodeEntries entries (Value.emplace (decodeEntry entry).1 (decodeEntry entry).2 object)
termination_by structural entries => entries

def decodeEntry : String × YamlNode → String × Value
  | (key,node) => (key,decodeValue node)
termination_by structural entry => entry

end

def Conversions.Unread (text : String) : Prop :=
  conversions.bool text = none ∧ conversions.int text = none ∧ conversions.double text = none

end Decode

mutual

/-- The node is the value written with every string quoted and every other scalar plain, the members of
an object in any order. -/
inductive Writes : Value → YamlNode → Prop
  | null : Writes .null .null
  | bool (b : Bool) : Writes (.bool b) (.scalar false (toString b))
  | int (n : Int64) : Writes (.int n) (.scalar false (toString n.toInt))
  | string (text : String) : Writes (.string text) (.scalar true text)
  | array {items : List Value} {nodes : List YamlNode} (h : WritesItems items nodes) :
      Writes (.array items) (.sequence nodes)
  | object {members : List (String × Value)} {entries entries' : List (String × YamlNode)}
      (hmap : members.Pairwise (fun a b => a.1 < b.1)) (h : WritesMembers members entries)
      (horder : entries.Perm entries') : Writes (.object members) (.map entries')

inductive WritesItems : List Value → List YamlNode → Prop
  | nil : WritesItems [] []
  | cons {v : Value} {items : List Value} {node : YamlNode} {nodes : List YamlNode} (h : Writes v node)
      (hrest : WritesItems items nodes) : WritesItems (v :: items) (node :: nodes)

inductive WritesMembers : List (String × Value) → List (String × YamlNode) → Prop
  | nil : WritesMembers [] []
  | cons {v : Value} {members : List (String × Value)} {node : YamlNode} {entries : List (String × YamlNode)}
      (key : String) (h : Writes v node) (hrest : WritesMembers members entries) :
      WritesMembers ((key,v) :: members) ((key,node) :: entries)

end

namespace Value

mutual

def Strings (P : String → Prop) : Value → Prop
  | .string text => P text
  | .array items => ItemStrings P items
  | .object members => MemberStrings P members
  | _ => True
termination_by structural v => v

def ItemStrings (P : String → Prop) : List Value → Prop
  | [] => True
  | v :: items => Strings P v ∧ ItemStrings P items
termination_by structural items => items

def MemberStrings (P : String → Prop) : List (String × Value) → Prop
  | [] => True
  | m :: members => EntryStrings P m ∧ MemberStrings P members
termination_by structural members => members

def EntryStrings (P : String → Prop) : String × Value → Prop
  | (_,v) => Strings P v
termination_by structural m => m

end

end Value

lemma eq_of_perm_of_keys {α : Type} {l l' : List (String × α)} (hperm : l.Perm l')
    (hkeys : l.map Prod.fst = l'.map Prod.fst) (hnodup : (l.map Prod.fst).Nodup) : l = l' := by
  induction l generalizing l' with
  | nil => exact (List.nil_perm.mp hperm).symm
  | cons x l ih =>
    cases l' with
    | nil => cases hkeys
    | cons y l' =>
      obtain ⟨-,hrest⟩ := List.cons_eq_cons.mp hkeys
      obtain ⟨hx,hnodup⟩ := List.nodup_cons.mp hnodup
      have hxy : x = y := by
        rcases List.mem_cons.mp (hperm.mem_iff.mp List.mem_cons_self) with hxy | hmem
        · exact hxy
        · exact absurd (hrest ▸ List.mem_map_of_mem hmem) hx
      subst hxy
      rw [ih hperm.cons_inv hrest hnodup]

section Decoded
variable {conversions : Conversions}

lemma decodeEntries_eq_foldl (entries : List (String × YamlNode)) (object : List (String × Value)) :
    decodeEntries conversions entries object =
      (entries.map (decodeEntry conversions)).foldl (fun acc e => Value.emplace e.1 e.2 acc) object := by
  induction entries generalizing object with
  | nil => rfl
  | cons entry entries ih => rw [decodeEntries,ih,List.map_cons,List.foldl_cons]

lemma decodeScalar_bool (b : Bool) : decodeScalar conversions (toString b) = .bool b := by
  cases b with
  | true => rw [decodeScalar,show toString true = "true" from rfl,conversions.bool_true]
  | false => rw [decodeScalar,show toString false = "false" from rfl,conversions.bool_false]

lemma decodeScalar_int (n : Int64) : decodeScalar conversions (toString n.toInt) = .int n := by
  rw [decodeScalar,conversions.bool_int,conversions.int_int]

/-- A text comes back as a string exactly if no conversion reads it. -/
lemma decodeScalar_string {text : String} :
    decodeScalar conversions text = .string text ↔ conversions.Unread text := by
  rw [decodeScalar,Conversions.Unread]
  cases conversions.bool text <;> cases conversions.int text <;> cases conversions.double text <;> simp

lemma decodeEntries_eq_iff {members : List (String × Value)} {entries entries' : List (String × YamlNode)}
    (hmap : members.Pairwise (fun a b => a.1 < b.1)) (hkeys : entries.map Prod.fst = members.map Prod.fst)
    (horder : entries.Perm entries') :
    decodeEntries conversions entries' [] = members ↔ entries.map (decodeEntry conversions) = members := by
  have hnodup : (members.map Prod.fst).Nodup := List.pairwise_map.mpr (hmap.imp fun hlt => hlt.ne)
  have hdecoded : (entries.map (decodeEntry conversions)).map Prod.fst = members.map Prod.fst := by
    rw [← hkeys,List.map_map]
    exact List.map_congr_left fun ⟨_,_⟩ _ => rfl
  have hperm : (entries.map (decodeEntry conversions)).Perm (entries'.map (decodeEntry conversions)) :=
    horder.map _
  have hfresh : ((entries'.map (decodeEntry conversions) ++ []).map Prod.fst).Nodup := by
    rw [List.append_nil,← (hperm.map Prod.fst).nodup_iff,hdecoded]
    exact hnodup
  obtain ⟨hordered,hresult⟩ := Value.foldl_emplace List.Pairwise.nil hfresh
  rw [← decodeEntries_eq_foldl] at hordered hresult
  rw [List.append_nil] at hresult
  constructor
  · intro heq
    rw [heq] at hresult
    exact eq_of_perm_of_keys (hperm.trans hresult.symm) hdecoded (hdecoded ▸ hnodup)
  · intro heq
    refine List.Perm.eq_of_pairwise ?_ hordered hmap (hresult.trans (heq ▸ hperm.symm))
    exact fun a b _ _ hab hba => absurd hab hba.asymm

lemma WritesMembers.keys : ∀ {members : List (String × Value)} {entries : List (String × YamlNode)},
    WritesMembers members entries → entries.map Prod.fst = members.map Prod.fst
  | _, _, .nil => rfl
  | _, _, .cons key _ hrest => congrArg (List.cons key) hrest.keys

/-- A value that was written with every string quoted comes back exactly if none of its strings reads as
a scalar of another kind. -/
theorem decodeValue_eq_iff (conversions : Conversions) (v : Value) (node : YamlNode) (h : Writes v node) :
    decodeValue conversions node = v ↔ v.Strings conversions.Unread := by
  -- over the value, its items and its members at once
  refine @Writes.rec (fun v node _ => decodeValue conversions node = v ↔ v.Strings conversions.Unread)
    (fun items nodes _ => decodeItems conversions nodes = items ↔ Value.ItemStrings conversions.Unread items)
    (fun members entries _ => entries.map (decodeEntry conversions) = members ↔
      Value.MemberStrings conversions.Unread members)
    (iff_of_true rfl trivial) (fun b => iff_of_true (decodeScalar_bool b) trivial)
    (fun n => iff_of_true (decodeScalar_int n) trivial) (fun _ => decodeScalar_string) ?_ ?_
    (iff_of_true rfl trivial) ?_ (iff_of_true rfl trivial) ?_ v node h
  · intro items nodes _ ih
    rw [decodeValue,Value.array.injEq]
    exact ih
  · intro members entries entries' hmap hmembers horder ih
    rw [decodeValue,Value.object.injEq]
    exact (decodeEntries_eq_iff hmap hmembers.keys horder).trans ih
  · intro v items node nodes _ _ ih ihrest
    rw [decodeItems,List.cons_eq_cons]
    exact and_congr ih ihrest
  · intro v members node entries key _ _ ih ihrest
    rw [List.map_cons,decodeEntry,List.cons_eq_cons,Prod.mk_right_inj]
    exact and_congr ih ihrest

end Decoded

section Miniature

def booleanTexts : List (String × Bool) :=
  [("y",true),("yes",true),("true",true),("on",true),("n",false),("no",false),("false",false),("off",false)]

/-- Conversions that read these booleans and the decimal integers. -/
def plainConversions : Conversions where
  bool text := booleanTexts.lookup text
  int := isIntegerLiteral
  double _ := none
  bool_true := rfl
  bool_false := rfl
  bool_int n := by
    rw [List.lookup_eq_none_iff]
    intro entry hentry
    refine bne_iff_ne.mpr fun heq => ?_
    have hread := isIntegerLiteral_toString n
    rw [heq] at hread
    have hnone : ∀ entry ∈ booleanTexts, isIntegerLiteral entry.1 = none := by decide +kernel
    cases (hnone entry hentry).symm.trans hread
  int_int := isIntegerLiteral_toString

/-- `list: [true, null, -5, "abc"]` and `name: "x"`, the members in the other order. -/
theorem decodeValue_eq_iff_members :
    let v : Value := .object [("list",.array [.bool true,.null,.int (-5),.string "abc"]),("name",.string "x")]
    let node : YamlNode := .map [("name",.scalar true "x"),
      ("list",.sequence [.scalar false "true",.null,.scalar false "-5",.scalar true "abc"])]
    Writes v node ∧ decodeValue plainConversions node = v := by
  intro v node
  have hitems : WritesItems [.bool true,.null,.int (-5),.string "abc"]
      [.scalar false "true",.null,.scalar false "-5",.scalar true "abc"] :=
    .cons (.bool true) (.cons .null (.cons (.int (-5)) (.cons (.string "abc") .nil)))
  have hwrites : Writes v node :=
    .object (by decide) (.cons "list" (.array hitems) (.cons "name" (.string "x") .nil)) (.swap _ _ _)
  have habc : plainConversions.Unread "abc" := ⟨by decide +kernel,by decide +kernel,rfl⟩
  have hx : plainConversions.Unread "x" := ⟨by decide +kernel,by decide +kernel,rfl⟩
  exact ⟨hwrites,(decodeValue_eq_iff plainConversions v node hwrites).mpr
    ⟨⟨trivial,trivial,trivial,habc,trivial⟩,hx,trivial⟩⟩

/-- A quoted `"true"` becomes a boolean. -/
theorem decodeValue_quoted_true : Writes (.string "true") (.scalar true "true") ∧
    decodeValue plainConversions (.scalar true "true") = .bool true :=
  ⟨.string "true",rfl⟩

end Miniature
end Strij.OpenWorkflow
