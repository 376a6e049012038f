import Mathlib.Data.List.Forall2
import Strij.Lib.Yaml

/-! Documents of a grammar that lets a collection of named values be written in two ways: as a mapping
from the names, or as a sequence of mappings that have one key each. -/
namespace Strij.Lib
open YamlNode

/-- What stands where in a document. -/
structure Grammar (P : Type) where
  child : P → String → P
  item : P → P
  IsCollection : P → Prop
  plain : P
  child_plain : ∀ key, child plain key = plain
  item_plain : item plain = plain
  not_collection_plain : ¬ IsCollection plain

def singles (entries : List (String × YamlNode)) : List YamlNode := entries.map fun entry => .map [entry]

mutual

/-- The second node is the first one with some of its collections written in the other way, at any depth. -/
inductive Rewritten {P : Type} (G : Grammar P) : P → YamlNode → YamlNode → Prop
  | same (p : P) (node : YamlNode) : Rewritten G p node node
  | map {p : P} {entries entries' : List (String × YamlNode)} (h : RewrittenEntries G p entries entries') :
      Rewritten G p (.map entries) (.map entries')
  | sequence {p : P} {nodes nodes' : List YamlNode} (h : RewrittenItems G p nodes nodes') :
      Rewritten G p (.sequence nodes) (.sequence nodes')
  | toSequence {p : P} {entries entries' : List (String × YamlNode)} (hp : G.IsCollection p)
      (h : RewrittenEntries G p entries entries') : Rewritten G p (.map entries) (.sequence (singles entries'))
  | toMap {p : P} {entries entries' : List (String × YamlNode)} (hp : G.IsCollection p)
      (h : RewrittenEntries G p entries entries') : Rewritten G p (.sequence (singles entries)) (.map entries')

inductive RewrittenEntries {P : Type} (G : Grammar P) :
    P → List (String × YamlNode) → List (String × YamlNode) → Prop
  | nil {p : P} : RewrittenEntries G p [] []
  | cons {p : P} {node node' : YamlNode} {entries entries' : List (String × YamlNode)} (key : String)
      (h : Rewritten G (G.child p key) node node') (hrest : RewrittenEntries G p entries entries') :
      RewrittenEntries G p ((key,node) :: entries) ((key,node') :: entries')

inductive RewrittenItems {P : Type} (G : Grammar P) : P → List YamlNode → List YamlNode → Prop
  | nil {p : P} : RewrittenItems G p [] []
  | cons {p : P} {node node' : YamlNode} {nodes nodes' : List YamlNode}
      (h : Rewritten G (G.item p) node node') (hrest : RewrittenItems G p nodes nodes') :
      RewrittenItems G p (node :: nodes) (node' :: nodes')

end

section Facts
variable {P : Type} {G : Grammar P} {p : P} {node node' : YamlNode} {entries entries' : List (String × YamlNode)}

lemma RewrittenEntries.keys (h : RewrittenEntries G p entries entries') :
    entries.map Prod.fst = entries'.map Prod.fst := by
  induction entries generalizing entries' with
  | nil =>
    cases h
    rfl
  | cons entry entries ih =>
    cases h with
    | cons key hnode hrest => exact congrArg (List.cons key) (ih hrest)

lemma RewrittenEntries.refl (p : P) : ∀ entries : List (String × YamlNode), RewrittenEntries G p entries entries
  | [] => .nil
  | (key,_) :: entries => .cons key (.same _ _) (refl p entries)

lemma RewrittenItems.refl (p : P) : ∀ nodes : List YamlNode, RewrittenItems G p nodes nodes
  | [] => .nil
  | _ :: nodes => .cons (.same _ _) (refl p nodes)

lemma RewrittenEntries.forall₂ (h : RewrittenEntries G p entries entries') :
    List.Forall₂ (fun e e' => e ∈ entries ∧ e' ∈ entries' ∧ e.1 = e'.1 ∧ Rewritten G (G.child p e.1) e.2 e'.2)
      entries entries' := by
  induction entries generalizing entries' with
  | nil =>
    cases h
    exact .nil
  | cons entry entries ih =>
    cases h with
    | cons key hnode hrest =>
      refine .cons ⟨List.mem_cons_self,List.mem_cons_self,rfl,hnode⟩ ((ih hrest).imp ?_)
      exact fun _ _ ⟨hmem,hmem',h⟩ => ⟨List.mem_cons_of_mem _ hmem,List.mem_cons_of_mem _ hmem',h⟩

lemma RewrittenItems.forall₂ {nodes nodes' : List YamlNode} (h : RewrittenItems G p nodes nodes') :
    List.Forall₂ (fun v v' => v ∈ nodes ∧ v' ∈ nodes' ∧ Rewritten G (G.item p) v v') nodes nodes' := by
  induction nodes generalizing nodes' with
  | nil =>
    cases h
    exact .nil
  | cons node nodes ih =>
    cases h with
    | cons hnode hrest =>
      refine .cons ⟨List.mem_cons_self,List.mem_cons_self,hnode⟩ ((ih hrest).imp ?_)
      exact fun _ _ ⟨hmem,hmem',h⟩ => ⟨List.mem_cons_of_mem _ hmem,List.mem_cons_of_mem _ hmem',h⟩

lemma RewrittenEntries.lookup (h : RewrittenEntries G p entries entries') (key : String) :
    Rewritten G (G.child p key) ((entries.lookup key).getD .undefined) ((entries'.lookup key).getD .undefined) := by
  induction entries generalizing entries' with
  | nil =>
    cases h
    exact .same _ _
  | cons entry entries ih =>
    cases h with
    | cons key' hnode hrest =>
      rw [List.lookup_cons,List.lookup_cons]
      cases hkey : key == key' with
      | true =>
        cases eq_of_beq hkey
        exact hnode
      | false => exact ih hrest

namespace Rewritten

variable (h : Rewritten G p node node')
include h

lemma getChild (hp : ¬ G.IsCollection p) (key : String) :
    Rewritten G (G.child p key) (node.getChild key) (node'.getChild key) := by
  cases h with
  | same => exact .same _ _
  | map h => exact h.lookup key
  | sequence => exact .same _ _
  | toSequence hcollection => exact absurd hcollection hp
  | toMap hcollection => exact absurd hcollection hp

lemma present_eq : node.present = node'.present := by cases h <;> rfl

lemma isMap_eq (hp : ¬ G.IsCollection p) : node.isMap = node'.isMap := by
  cases h with
  | toSequence hcollection => exact absurd hcollection hp
  | toMap hcollection => exact absurd hcollection hp
  | _ => rfl

lemma keys_eq (hp : ¬ G.IsCollection p) : node.keys = node'.keys := by
  cases h with
  | map h => exact h.keys
  | toSequence hcollection => exact absurd hcollection hp
  | toMap hcollection => exact absurd hcollection hp
  | _ => rfl

lemma eq_of_plain (hp : p = G.plain) : node = node' := by
  refine @Rewritten.rec P G (fun p node node' _ => p = G.plain → node = node')
    (fun p entries entries' _ => p = G.plain → entries = entries')
    (fun p nodes nodes' _ => p = G.plain → nodes = nodes')
    (fun _ _ _ => rfl) (fun _ ih hp => congrArg YamlNode.map (ih hp))
    (fun _ ih hp => congrArg YamlNode.sequence (ih hp)) ?_ ?_ (fun _ => rfl) ?_ (fun _ => rfl) ?_ p node node' h hp
  · intro p entries entries' hcollection _ _ hp
    exact absurd (hp ▸ hcollection) G.not_collection_plain
  · intro p entries entries' hcollection _ _ hp
    exact absurd (hp ▸ hcollection) G.not_collection_plain
  · intro p node node' entries entries' key _ _ ih ihrest hp
    rw [ih (hp ▸ G.child_plain key),ihrest hp]
  · intro p node node' nodes nodes' _ _ ih ihrest hp
    rw [ih (hp ▸ G.item_plain),ihrest hp]

end Rewritten
end Facts
end Strij.Lib
