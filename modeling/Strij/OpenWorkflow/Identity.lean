import Strij.OpenWorkflow.Expression

/-! A slot whose program returns its subject: the value goes through the DSL's own tree and comes back. -/
namespace Strij.OpenWorkflow
namespace Jv

mutual

/-- Every number and every list of an object's keys has the property. -/
def All (number : Option String → Double → Prop) (keys : List String → Prop) : Jv → Prop
  | .number literal d => number literal d
  | .array items => AllItems number keys items
  | .object members => keys (members.map Prod.fst) ∧ AllMembers number keys members
  | _ => True
termination_by structural j => j

def AllItems (number : Option String → Double → Prop) (keys : List String → Prop) : List Jv → Prop
  | [] => True
  | j :: items => All number keys j ∧ AllItems number keys items
termination_by structural items => items

def AllMembers (number : Option String → Double → Prop) (keys : List String → Prop) : List (String × Jv) → Prop
  | [] => True
  | m :: members => AllMember number keys m ∧ AllMembers number keys members
termination_by structural members => members

def AllMember (number : Option String → Double → Prop) (keys : List String → Prop) : String × Jv → Prop
  | (_,j) => All number keys j
termination_by structural m => m

end

/-- A number of any size, with the literal libjq keeps for it. -/
def IsLiteral (lib : Libjq) (literal : Option String) (d : Double) : Prop :=
  ∃ text, literal = some text ∧ d = lib.literalValue text

/-- The literal is how a 64-bit integer is written. -/
def InRange (literal : Option String) (_ : Double) : Prop := ∃ n : Int64, literal = some (toString n.toInt)

/-- No key has a NUL in it. -/
def ShownWhole (keys : List String) : Prop := ∀ key ∈ keys, '\x00' ∉ key.toList

/-- A value as libjq reads it from a text. -/
def Plain (lib : Libjq) : Jv → Prop := All (IsLiteral lib) List.Nodup

/-- The integers are within 64 bits and the keys are C strings. -/
def Fits : Jv → Prop := All InRange ShownWhole

mutual

/-- The same JSON value: objects may list their members in another order. -/
inductive Same : Jv → Jv → Prop
  | null : Same .null .null
  | bool (b : Bool) : Same (.bool b) (.bool b)
  | number (literal : Option String) (d : Double) : Same (.number literal d) (.number literal d)
  | string (text : String) : Same (.string text) (.string text)
  | array {items items' : List Jv} (h : SameItems items items') : Same (.array items) (.array items')
  | object {members members' listed : List (String × Jv)} (h : SameMembers members members')
      (horder : members'.Perm listed) : Same (.object members) (.object listed)

inductive SameItems : List Jv → List Jv → Prop
  | nil : SameItems [] []
  | cons {j j' : Jv} {items items' : List Jv} (h : Same j j') (hrest : SameItems items items') :
      SameItems (j :: items) (j' :: items')

inductive SameMembers : List (String × Jv) → List (String × Jv) → Prop
  | nil : SameMembers [] []
  | cons {j j' : Jv} {members members' : List (String × Jv)} (key : String) (h : Same j j')
      (hrest : SameMembers members members') : SameMembers ((key,j) :: members) ((key,j') :: members')

end

section Members
variable {lib : Libjq}

lemma toMembers_eq_foldl (members : List (String × Jv)) (acc : List (String × Value)) :
    toMembers members acc =
      (members.map (fun m => (m.1,m.2.toValue))).foldl (fun acc e => Value.emplace e.1 e.2 acc) acc := by
  induction members generalizing acc with
  | nil => rfl
  | cons m members ih =>
    obtain ⟨key,j⟩ := m
    rw [toMembers,ih,List.map_cons,List.foldl_cons,toMember]

lemma jvObjectSet_fresh {key : String} {member : Jv} {members : List (String × Jv)}
    (h : key ∉ members.map Prod.fst) : jvObjectSet key member members = members ++ [(key,member)] := by
  induction members with
  | nil => rfl
  | cons m rest ih =>
    obtain ⟨k,j⟩ := m
    simp only [List.map_cons,List.mem_cons,not_or] at h
    rw [jvObjectSet,if_neg (Ne.symm h.1),ih h.2,List.cons_append]

lemma ofMembers_fresh {members : List (String × Value)} {acc : List (String × Jv)}
    (hkeys : ShownWhole (members.map Prod.fst)) (hnodup : (acc.map Prod.fst ++ members.map Prod.fst).Nodup) :
    ofMembers lib members acc = acc ++ members.map (fun m => (m.1,ofValue lib m.2)) := by
  induction members generalizing acc with
  | nil => rw [ofMembers,List.map_nil,List.append_nil]
  | cons m members ih =>
    obtain ⟨key,v⟩ := m
    obtain ⟨hkey,hkeys⟩ := List.forall_mem_cons.mp hkeys
    have hfresh : key ∉ acc.map Prod.fst := fun hmem =>
      (List.nodup_append.mp hnodup).2.2 key hmem key List.mem_cons_self rfl
    rw [ofMembers,ofMember,cString_eq_self hkey,jvObjectSet_fresh hfresh,ih hkeys (by simpa using hnodup)]
    simp

end Members

lemma ofMembers_toMembers (lib : Libjq) {members : List (String × Jv)} (hnodup : (members.map Prod.fst).Nodup)
    (hkeys : ShownWhole (members.map Prod.fst)) :
    (members.map (fun m => (m.1,ofValue lib m.2.toValue))).Perm (ofMembers lib (toMembers members []) []) := by
  have hfst : (members.map (fun m => (m.1,m.2.toValue))).map Prod.fst = members.map Prod.fst := by
    rw [List.map_map]
    rfl
  have hkeys' : ((members.map (fun m : String × Jv => (m.1,m.2.toValue)) ++ []).map Prod.fst).Nodup := by
    rwa [List.append_nil,hfst]
  obtain ⟨-,hperm⟩ := Value.foldl_emplace .nil hkeys'
  rw [← toMembers_eq_foldl,List.append_nil] at hperm
  have hfst' : ((toMembers members []).map Prod.fst).Perm (members.map Prod.fst) := hfst ▸ hperm.map Prod.fst
  rw [ofMembers_fresh (fun key hkey => hkeys key (hfst'.mem_iff.mp hkey)) (by simpa using hfst'.nodup_iff.mpr hnodup),
    List.nil_append]
  have hmapped := (hperm.map (fun m : String × Value => (m.1,ofValue lib m.2))).symm
  rwa [List.map_map] at hmapped

mutual

lemma same_ofValue_toValue (lib : Libjq) : ∀ j : Jv, j.Plain lib → j.Fits → j.Same (ofValue lib j.toValue)
  | .null, _, _ => .null
  | .bool b, _, _ => .bool b
  | .number literal d, hplain, hfits => by
    obtain ⟨n,rfl⟩ := hfits
    obtain ⟨text,htext,hd⟩ := hplain
    have hvalue : (Jv.number (some (toString n.toInt)) d).toValue = .int n := by
      rw [toValue,Option.bind_some,isIntegerLiteral_toString]
    rw [hvalue,ofValue,hd,Option.some.inj htext]
    exact .number _ _
  | .string text, _, _ => .string text
  | .array items, hplain, hfits => .array (sameItems_ofItems lib items hplain hfits)
  | .object members, hplain, hfits =>
    .object (sameMembers_ofMembers lib members hplain.2 hfits.2) (ofMembers_toMembers lib hplain.1 hfits.1)
termination_by structural j => j

lemma sameItems_ofItems (lib : Libjq) : ∀ items : List Jv,
    AllItems (IsLiteral lib) List.Nodup items → AllItems InRange ShownWhole items →
    SameItems items (ofItems lib (toItems items))
  | [], _, _ => .nil
  | j :: items, hplain, hfits =>
    .cons (same_ofValue_toValue lib j hplain.1 hfits.1) (sameItems_ofItems lib items hplain.2 hfits.2)
termination_by structural items => items

lemma sameMembers_ofMembers (lib : Libjq) : ∀ members : List (String × Jv),
    AllMembers (IsLiteral lib) List.Nodup members → AllMembers InRange ShownWhole members →
    SameMembers members (members.map (fun m => (m.1,ofValue lib m.2.toValue)))
  | [], _, _ => .nil
  | (key,j) :: members, hplain, hfits =>
    .cons key (same_ofValue_toValue lib j hplain.1 hfits.1) (sameMembers_ofMembers lib members hplain.2 hfits.2)
termination_by structural members => members

end

end Jv

section Slot
variable {engine : ExpressionEngine} {slot : TypedSlot} {text : String} {arguments : ExpressionArguments}
  {subject : Jv} {reserved args : List Jv}

end Slot

def identityEngine : ExpressionEngine where
  lib := ⟨fun _ => none,fun _ => "",fun _ => ⟨0⟩,fun _ => ""⟩
  evaluator := ⟨fun _ _ => .ok (),fun _ _ subject _ => .ok [subject]⟩

def integer (z : ℤ) : Jv := .number (some (toString z)) ⟨0⟩

end Strij.OpenWorkflow
