import Strij.Lib.Checks
import Strij.OpenWorkflow.CallStrij

/-! Calls whose parameters are literals: what the checks of the arguments let through, the projection carries over. -/
namespace Strij.OpenWorkflow
open Strij.Lib
open Strij.NodeAgent (ResourceRequirements assignResource)

namespace Value

mutual

def Ordered : Value → Prop
  | .array items => OrderedItems items
  | .object members => members.Pairwise (fun a b => a.1 < b.1) ∧ OrderedMembers members
  | _ => True
termination_by structural v => v

def OrderedItems : List Value → Prop
  | [] => True
  | v :: items => Ordered v ∧ OrderedItems items
termination_by structural items => items

def OrderedMembers : List (String × Value) → Prop
  | [] => True
  | m :: members => OrderedMember m ∧ OrderedMembers members
termination_by structural members => members

def OrderedMember : String × Value → Prop
  | (_,v) => Ordered v
termination_by structural m => m

end

lemma OrderedMembers.of_mem {members : List (String × Value)} (h : OrderedMembers members) {m : String × Value}
    (hm : m ∈ members) : m.2.Ordered := by
  induction members with
  | nil => cases hm
  | cons first rest ih =>
    rw [OrderedMembers] at h
    obtain ⟨key,v⟩ := m
    rcases List.mem_cons.mp hm with rfl | hm
    · exact h.1
    · exact ih h.2 hm

end Value

def declared (key : String) : Value → List (String × Value)
  | .object members => match findKey members key with
    | some (.object inner) => inner
    | _ => []
  | _ => []

def declaredType : Value → Option Value
  | .object members => findKey members "type"
  | _ => none

def declaredAmount : Value → Option ℚ
  | .int n => some n.toInt
  | .double d => d.toRat?
  | _ => none

/-- The text of a literal parameter: a string as it is, any other scalar as JSON. -/
def rendered (lib : Libjq) : Value → String
  | .string text => text
  | v => (Jv.ofValue lib v).dump lib

structure Renders (v : Value) : Prop where
  scalar : isScalar v = true
  literal : ∀ text, v = .string text → isExpression text = false
  nonnull : v ≠ .null

section Parameters
variable (engine : ExpressionEngine) (subject : Option Jv) (arguments : ExpressionArguments)

lemma projectParameter_literal (key : String) {v : Value} (h : Renders v) :
    projectParameter engine subject arguments key v = .ok (rendered engine.lib v) := by
  cases v with
  | null => exact absurd rfl h.nonnull
  | bool b => rfl
  | int n =>
    change renderScalar engine.lib (Jv.ofValue engine.lib (.int n)) = _
    rw [renderScalar,Jv.ofValue,Jv.toValue]
    cases (some (toString n.toInt)).bind isIntegerLiteral with
    | none => rfl
    | some k => rfl
  | double d => rfl
  | string text =>
    unfold projectParameter
    dsimp only
    rw [h.literal text rfl]
    rfl
  | array items => cases h.scalar
  | object members => cases h.scalar

lemma projectParameters_literal {parameters : List (String × Value)} {out : List (String × String)}
    (h : ∀ m ∈ parameters, Renders m.2) (hordered : parameters.Pairwise (fun a b => a.1 < b.1))
    (hout : ∀ x ∈ out, ∀ m ∈ parameters, x.1 < m.1) :
    projectParameters engine subject arguments parameters out =
      .ok (out ++ parameters.map (fun m => (m.1,rendered engine.lib m.2))) := by
  induction parameters generalizing out with
  | nil => rw [projectParameters,List.map_nil,List.append_nil]
  | cons m rest ih =>
    obtain ⟨key,v⟩ := m
    obtain ⟨hv,hrest⟩ := List.forall_mem_cons.mp h
    obtain ⟨hfirst,hordered⟩ := List.pairwise_cons.mp hordered
    have hlast : ∀ x ∈ out, x.1 < key := fun x hx => hout x hx _ List.mem_cons_self
    have hout' : ∀ x ∈ out ++ [(key,rendered engine.lib v)], ∀ m ∈ rest, x.1 < m.1 := by
      intro x hx m hm
      rcases List.mem_append.mp hx with hx | hx
      · exact hout x hx m (List.mem_cons_of_mem _ hm)
      · rw [List.mem_singleton.mp hx]
        exact hfirst m hm
    rw [projectParameters,projectParameter_literal engine subject arguments key hv]
    change projectParameters _ _ _ rest (Value.emplace key _ out) = _
    rw [Value.emplace_last hlast,ih hrest hordered hout',List.append_assoc,List.map_cons,List.singleton_append]

end Parameters

section Requirements
variable {lib : Libjq} {name : String} {amount : UInt64}

lemma amount_of_rat {q : ℚ} (hden : q.den = 1) (hsign : 0 ≤ q) (hbound : q ≤ 2^64) (hne : q ≠ 2^64) :
    q = ((UInt64.ofNat q.num.toNat).toNat : ℚ) := by
  have hq : (q.num : ℚ) = q := (Rat.den_eq_one_iff q).mp hden
  have hnum : q.num < 2^64 := by
    have hlt : (q.num : ℚ) < 2^64 := hq.symm ▸ lt_of_le_of_ne hbound hne
    exact_mod_cast hlt
  have hnonneg : 0 ≤ q.num := Rat.num_nonneg.mpr hsign
  rw [UInt64.toNat_ofNat_of_lt' (by change q.num.toNat < 2^64; omega),← Int.cast_natCast (R := ℚ),
    Int.toNat_of_nonneg hnonneg,hq]

lemma coerceRequirement_amount {v : Value}
    (h : coerceRequirement lib name v = .ok amount) (hrange : declaredAmount v ≠ some (2^64)) :
    declaredAmount v = some (amount.toNat : ℚ) := by
  cases v with
  | int n =>
    rw [coerceRequirement] at h
    split at h
    · cases h
    · next hsign =>
      cases h
      have hfits : n.toInt.toNat < 2^64 := by
        have := n.toInt_lt
        omega
      rw [declaredAmount,UInt64.toNat_ofNat_of_lt' hfits,← Int.cast_natCast (R := ℚ),
        Int.toNat_of_nonneg (not_lt.mp hsign)]
  | double d =>
    rw [coerceRequirement] at h
    rw [declaredAmount] at hrange ⊢
    cases hd : d.toRat? with
    | none =>
      rw [hd] at h
      cases h
    | some q =>
      rw [hd] at h hrange
      simp only at h
      split_ifs at h with hden hsign hbound
      cases h
      exact congrArg some (amount_of_rat (by simpa using hden) (not_lt.mp hsign) (not_lt.mp hbound)
        (fun heq => hrange (congrArg some heq)))
  | string text =>
    rw [coerceRequirement] at h
    split at h <;> cases h
  | null | bool _ | array _ | object _ => cases h

lemma coerceRequirement_double {d : Double} {n : ℕ} (hd : d.toRat? = some (n : ℚ)) (hn : n ≤ 2^64) :
    coerceRequirement lib name (.double d) = .ok (UInt64.ofNat n) := by
  have hbound : ¬(2^64 : ℚ) < n := not_lt.mpr (by exact_mod_cast hn)
  have hsign : ¬(n : ℚ) < 0 := not_lt.mpr n.cast_nonneg
  unfold coerceRequirement
  simp only [hd,Rat.den_natCast,Rat.num_natCast,Int.toNat_natCast,ne_eq,not_true_eq_false,if_false,if_neg hsign,
    if_neg hbound]

lemma assignResource_fresh {r : ResourceRequirements} {pool : String} (h : pool ∉ r.resources.map Prod.fst) :
    (assignResource r pool amount).resources = r.resources ++ [(pool,amount)] := by
  have hkeep : r.resources.filter (fun x => x.1 ≠ pool) = r.resources :=
    List.filter_eq_self.mpr fun x hx => decide_eq_true fun heq => h (heq ▸ List.mem_map_of_mem hx)
  exact congrArg (· ++ [(pool,amount)]) hkeep

/-- Every amount is declared under its pool. -/
def Carries (requirements : List (String × Value)) (resources : List (String × UInt64)) : Prop :=
  List.Forall₂ (fun m x => x.1 = m.1 ∧ declaredAmount m.2 = some (x.2.toNat : ℚ)) requirements resources

lemma projectRequirements_literal {requirements : List (String × Value)} {out : ResourceRequirements}
    (hcheck : checkRequirements lib requirements = .ok ())
    (hordered : requirements.Pairwise (fun a b => a.1 < b.1))
    (hout : ∀ x ∈ out.resources, ∀ m ∈ requirements, x.1 < m.1)
    (hrange : ∀ m ∈ requirements, declaredAmount m.2 ≠ some (2^64)) :
    ∃ r, projectRequirements lib requirements out = .ok r ∧
      ∃ resources, r.resources = out.resources ++ resources ∧ Carries requirements resources := by
  induction requirements generalizing out with
  | nil => exact ⟨out,rfl,[],(List.append_nil _).symm,.nil⟩
  | cons m rest ih =>
    obtain ⟨key,v⟩ := m
    obtain ⟨hfirst,hordered⟩ := List.pairwise_cons.mp hordered
    obtain ⟨hv,hrange⟩ := List.forall_mem_cons.mp hrange
    rw [checkRequirements] at hcheck
    obtain ⟨amount,hamount,hcheck⟩ := bind_eq_ok.mp hcheck
    have hfresh : key ∉ out.resources.map Prod.fst := by
      intro hmem
      obtain ⟨x,hx,heq⟩ := List.mem_map.mp hmem
      exact (hout x hx _ List.mem_cons_self).ne heq
    have hassigned : (assignResource out key amount).resources = out.resources ++ [(key,amount)] :=
      assignResource_fresh hfresh
    have hout' : ∀ x ∈ (assignResource out key amount).resources, ∀ m ∈ rest, x.1 < m.1 := by
      intro x hx m hm
      rw [hassigned] at hx
      rcases List.mem_append.mp hx with hx | hx
      · exact hout x hx m (List.mem_cons_of_mem _ hm)
      · rw [List.mem_singleton.mp hx]
        exact hfirst m hm
    obtain ⟨r,hr,resources,hresources,hcarries⟩ := ih hcheck hordered hout' hrange
    refine ⟨r,?_,(key,amount) :: resources,?_,.cons ⟨rfl,coerceRequirement_amount hamount hv⟩ hcarries⟩
    · rw [projectRequirements,hamount]
      exact hr
    · rw [hresources,hassigned,List.append_assoc,List.singleton_append]

end Requirements

/-- A part of the arguments that may be missing and is otherwise an object with the property. -/
def Part (P : List (String × Value) → Prop) (part : Option Value) : Prop :=
  ∀ v, part = some v → ∃ inner, v = .object inner ∧ P inner

structure Checked (lib : Libjq) (members : List (String × Value)) (type : String) : Prop where
  type : findKey members "type" = some (.string type)
  parameters : Part (fun inner => ∀ m ∈ inner, isScalar m.2 = true) (findKey members "parameters")
  requirements : Part (fun inner => checkRequirements lib inner = .ok ()) (findKey members "requirements")

lemma part_of_requirements {lib : Libjq} {members : List (String × Value)}
    (h : (match findKey members "requirements" with
      | none => pure ()
      | some (.object requirements) => checkRequirements lib requirements
      | some _ => .error "'requirements' must be an object" : Except String Unit) = .ok ()) :
    Part (fun inner => checkRequirements lib inner = .ok ()) (findKey members "requirements") := by
  intro v hv
  rw [hv] at h
  cases v with
  | object inner => exact ⟨inner,rfl,h⟩
  | null | bool _ | int _ | double _ | string _ | array _ => cases h

lemma validateCallArguments_checked {lib : Libjq} {with_ : Value} (h : validateCallArguments lib with_ = .ok ()) :
    ∃ members type, with_ = .object members ∧ Checked lib members type := by
  cases with_ with
  | object members =>
    unfold validateCallArguments at h
    dsimp only at h
    split at h
    · cases h
    split at h
    · cases h
    · next type htype =>
      split at h
      · cases h
      split at h
      · next hparameters =>
        refine ⟨members,type,rfl,htype,fun v hv => ?_,part_of_requirements h⟩
        rw [hparameters] at hv
        cases hv
      · next inner hparameters =>
        split at h
        · cases h
        · next hscalar =>
          refine ⟨members,type,rfl,htype,fun v hv => ?_,part_of_requirements h⟩
          rw [hparameters] at hv
          refine ⟨inner,(Option.some.inj hv).symm,fun m hm => ?_⟩
          have hnone := Option.eq_none_iff_forall_ne_some.mpr hscalar
          simpa using List.find?_eq_none.mp hnone m hm
      · cases h
    · cases h
  | null | bool _ | int _ | double _ | string _ | array _ => cases h

section Projected
variable {lib : Libjq} {members : List (String × Value)} {P : List (String × Value) → Prop} {key : String}

lemma declared_ordered (h : (Value.object members).Ordered) :
    (declared key (.object members)).Pairwise (fun a b => a.1 < b.1) := by
  rw [declared]
  split
  · next inner hinner =>
    obtain ⟨before,after,rfl,-⟩ := List.lookup_eq_some_iff.mp hinner
    have hmem : (key,Value.object inner) ∈ before ++ (key,.object inner) :: after := by simp
    exact (Value.OrderedMembers.of_mem h.2 hmem).1
  · exact .nil

lemma Part.of_declared (h : Part P (findKey members key)) :
    findKey members key = none ∧ declared key (.object members) = [] ∨
      findKey members key = some (.object (declared key (.object members))) ∧ P (declared key (.object members)) := by
  rw [declared]
  cases hkey : findKey members key with
  | none => exact .inl ⟨rfl,rfl⟩
  | some v =>
    obtain ⟨inner,rfl,hP⟩ := h v hkey
    exact .inr ⟨rfl,hP⟩

def Projected {α : Type} (part : Option Value) (project : List (String × Value) → Except String α) (default result : α) :
    Prop :=
  part = none ∧ result = default ∨ ∃ inner, part = some (.object inner) ∧ project inner = .ok result

lemma projectCall_of_parts {engine : ExpressionEngine} {subject : Option Jv} {arguments : ExpressionArguments}
    {type : String} {ps : List (String × String)} {r : ResourceRequirements}
    (htype : findKey members "type" = some (.string type))
    (hparameters : Projected (findKey members "parameters") (projectParameters engine subject arguments · []) [] ps)
    (hrequirements : Projected (findKey members "requirements") (projectRequirements engine.lib · ⟨[],.nil⟩)
      ⟨[],.nil⟩ r) : projectCall engine (.object members) subject arguments = .ok ⟨type,ps,r⟩ := by
  unfold projectCall
  dsimp only
  rw [htype]
  rcases hparameters with ⟨hpart,rfl⟩ | ⟨inner,hpart,hps⟩
  · rw [hpart]
    rcases hrequirements with ⟨hpart,rfl⟩ | ⟨inner,hpart,hr⟩
    · rw [hpart]
      rfl
    · rw [hpart]
      dsimp only at hr ⊢
      rw [hr]
      rfl
  · rw [hpart]
    dsimp only at hps ⊢
    rw [hps]
    rcases hrequirements with ⟨hpart,rfl⟩ | ⟨inner,hpart,hr⟩
    · rw [hpart]
      rfl
    · rw [hpart]
      dsimp only at hr ⊢
      rw [hr]
      rfl

end Projected

def idleEngine : ExpressionEngine where
  lib := ⟨fun _ => none,fun _ => "3",fun _ => ⟨0⟩,fun _ => ""⟩
  evaluator := ⟨fun _ _ => .ok (),fun _ _ _ _ => .error "cannot evaluate"⟩

def echoArguments : Value :=
  .object [("parameters",.object [("greeting",.string "hi"),("n",.int 3)]),
    ("requirements",.object [("gpu",.int 2)]),("type",.string "echo")]

end Strij.OpenWorkflow
