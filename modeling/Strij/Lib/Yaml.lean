import Mathlib.Data.List.Basic

/-! Parsed YAML. -/
namespace Strij.Lib

inductive YamlNode
  | undefined
  | null
  | scalar (quoted : Bool) (text : String)
  | sequence (items : List YamlNode)
  /-- The entries, with the `Scalar()` of each key. -/
  | map (entries : List (String × YamlNode))

namespace YamlNode

def isScalar : YamlNode → Bool
  | .scalar _ _ => true
  | _ => false

def isSequence : YamlNode → Bool
  | .sequence _ => true
  | _ => false

def isMap : YamlNode → Bool
  | .map _ => true
  | _ => false

def present : YamlNode → Bool
  | .undefined | .null => false
  | _ => true

/-- The value of a key. `operator[]` goes to the first entry that has the key. -/
def getChild (key : String) : YamlNode → YamlNode
  | .map entries => (entries.lookup key).getD .undefined
  | _ => .null

def has (node : YamlNode) (key : String) : Bool := (node.getChild key).present

def keys : YamlNode → List String
  | .map entries => entries.map Prod.fst
  | _ => []

def items : YamlNode → List YamlNode
  | .sequence items => items
  | _ => []

def entries : YamlNode → List (String × YamlNode)
  | .map entries => entries
  | _ => []

mutual

/-- The number of collections around the deepest node. -/
def height : YamlNode → ℕ
  | .sequence items => itemsHeight items + 1
  | .map entries => entriesHeight entries + 1
  | _ => 0
termination_by structural node => node

def itemsHeight : List YamlNode → ℕ
  | [] => 0
  | node :: nodes => max (height node) (itemsHeight nodes)
termination_by structural nodes => nodes

def entriesHeight : List (String × YamlNode) → ℕ
  | [] => 0
  | entry :: entries => max (entryHeight entry) (entriesHeight entries)
termination_by structural entries => entries

def entryHeight : String × YamlNode → ℕ
  | (_,node) => height node
termination_by structural entry => entry

end

variable {node : YamlNode} {nodes : List YamlNode} {list : List (String × YamlNode)}

lemma height_lt_sequence (h : node ∈ nodes) : node.height < (sequence nodes).height := by
  rw [height]
  refine Nat.lt_succ_of_le ?_
  induction nodes with
  | nil => cases h
  | cons head nodes ih =>
    rw [itemsHeight]
    rcases List.mem_cons.mp h with rfl | h
    · exact Nat.le_max_left _ _
    · exact Nat.le_trans (ih h) (Nat.le_max_right _ _)

lemma height_lt_map {key : String} (h : (key,node) ∈ list) : node.height < (map list).height := by
  rw [height]
  refine Nat.lt_succ_of_le ?_
  induction list with
  | nil => cases h
  | cons head list ih =>
    rw [entriesHeight]
    rcases List.mem_cons.mp h with rfl | h
    · exact Nat.le_max_left _ _
    · exact Nat.le_trans (ih h) (Nat.le_max_right _ _)

lemma height_getChild_le (key : String) (node : YamlNode) : (node.getChild key).height ≤ node.height := by
  cases node with
  | map entries =>
    rw [getChild]
    cases hvalue : entries.lookup key with
    | none => exact Nat.zero_le _
    | some value =>
      obtain ⟨before,after,rfl,-⟩ := List.lookup_eq_some_iff.mp hvalue
      exact Nat.le_of_lt (height_lt_map (List.mem_append_right before List.mem_cons_self))
  | _ => exact Nat.zero_le _

end YamlNode
end Strij.Lib
