import Mathlib

/-! Routing tables. Each slot has an address of its own and may wait for a key; a table routes the
slots when it sends every key that is waited for to the address of its slot, and no other key. -/
namespace Strij.Lib

variable {K A : Type} [DecidableEq K]

structure Routes (table : AList (fun _ : K => A)) (slots : List (A × Option K)) : Prop where
  nodup : (slots.map Prod.fst).Nodup
  lookup : ∀ k a, table.lookup k = some a ↔ (a,some k) ∈ slots

namespace Routes
variable {table : AList (fun _ : K => A)} {slots rest : List (A × Option K)} {a : A} {k : K}

lemma empty : Routes (∅ : AList (fun _ : K => A)) [] := ⟨by simp,by simp⟩

variable (h : Routes table slots)
include h

lemma perm (hp : slots.Perm rest) : Routes table rest :=
  ⟨(hp.map Prod.fst).nodup_iff.mp h.nodup,fun k a => (h.lookup k a).trans hp.mem_iff⟩

lemma eq_of_mem {x y : Option K} (hx : (a,x) ∈ slots) (hy : (a,y) ∈ slots) : x = y :=
  congrArg Prod.snd (List.inj_on_of_nodup_map h.nodup hx hy rfl)

lemma keys_nodup : (slots.filterMap Prod.snd).Nodup := by
  have hpairwise := (List.pairwise_map.mp h.nodup).imp_of_mem (S := fun x y : A × Option K =>
    ∀ k ∈ x.2, ∀ k' ∈ y.2, k ≠ k') ?_
  · exact List.pairwise_filterMap.mpr hpairwise
  · rintro ⟨a,x⟩ ⟨b,y⟩ hx hy hne k hk k' hk' rfl
    cases hk
    cases hk'
    exact hne (Option.some.inj (((h.lookup k a).mpr hx).symm.trans ((h.lookup k b).mpr hy)))

lemma cons (ha : a ∉ slots.map Prod.fst) : Routes table ((a,none) :: slots) :=
  ⟨List.nodup_cons.mpr ⟨ha,h.nodup⟩,by simpa using h.lookup⟩

omit h

lemma drop (h : Routes table (rest ++ slots)) (hrest : ∀ x ∈ rest, x.2 = none) : Routes table slots where
  nodup := by
    have hnodup := h.nodup
    rw [List.map_append] at hnodup
    exact hnodup.of_append_right
  lookup k a := by
    have hfree : (a,some k) ∉ rest := fun hmem => nomatch hrest _ hmem
    simpa [hfree] using h.lookup k a

lemma insert (h : Routes table ((a,none) :: slots)) (hk : k ∉ table) :
    Routes (table.insert k a) ((a,some k) :: slots) where
  nodup := by simpa using h.nodup
  lookup k' a' := by
    have hlookup := h.lookup k' a'
    by_cases hkk : k' = k
    · subst hkk
      have hnone : ∀ b, (b,some k') ∉ slots := by
        intro b hb
        have := (h.lookup k' b).mpr (List.mem_cons_of_mem _ hb)
        rw [AList.lookup_eq_none.mpr hk] at this
        cases this
      simp [AList.lookup_insert,hnone,eq_comm]
    · simpa [AList.lookup_insert_ne hkk,hkk] using hlookup

lemma erase (h : Routes table ((a,some k) :: slots)) : Routes (table.erase k) ((a,none) :: slots) where
  nodup := by simpa using h.nodup
  lookup k' a' := by
    have hlookup := h.lookup k' a'
    by_cases hkk : k' = k
    · subst hkk
      have hfree : (a',some k') ∉ slots := by
        intro hb
        have ha := (h.lookup k' a).mpr List.mem_cons_self
        have ha' := (h.lookup k' a').mpr (List.mem_cons_of_mem _ hb)
        cases ha.symm.trans ha'
        have hnodup := h.nodup
        rw [List.map_cons,List.nodup_cons] at hnodup
        exact hnodup.1 (List.mem_map_of_mem (f := Prod.fst) hb)
      simp [AList.lookup_erase,hfree]
    · simpa [AList.lookup_erase_ne hkk,hkk] using hlookup

end Routes
end Strij.Lib
