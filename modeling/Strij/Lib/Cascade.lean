import Mathlib.Logic.Relation
import Strij.Lib.FiniteMap

/-! Removal along links. An entry is taken out of a finite map, then the entries its value links to, and
so on; what is left are the entries that no chain of links leads to. -/
namespace Strij.Lib
open Relation
variable {α β : Type*} [DecidableEq α] (links : β → List α)

/-- Takes out the entry and then, one after the other, what it links to. -/
def cascade : ℕ → AList (fun _ : α => β) → α → AList (fun _ : α => β)
  | 0, m, _ => m
  | k+1, m, a => match m.lookup a with
    | none => m
    | some b => (links b).foldl (cascade k) (m.erase a)

/-- The entry of one key links to the other. -/
def Links (m : AList (fun _ : α => β)) (a a' : α) : Prop := ∃ b, m.lookup a = some b ∧ a' ∈ links b

/-- The second map is what is left of the first when the cascades from these keys are over. -/
structure Cascaded (m m' : AList (fun _ : α => β)) (l : List α) : Prop where
  shrinks : ∀ {x b}, m'.lookup x = some b → m.lookup x = some b
  sources : ∀ a ∈ l, a ∉ m'
  closed : ∀ {x y}, x ∈ m → x ∉ m' → Links links m x y → y ∉ m'
  reached : ∀ {x}, x ∈ m → x ∉ m' → ∃ a ∈ l, ReflTransGen (Links links m) a x

variable {links} {m m' m'' : AList (fun _ : α => β)} {l l' : List α} {a x : α} {b : β}

lemma Links.mono (h : ∀ {x b}, m'.lookup x = some b → m.lookup x = some b) {y : α}
    (hlinks : Links links m' x y) : Links links m x y := by
  obtain ⟨b,hb,hy⟩ := hlinks
  exact ⟨b,h hb,hy⟩

namespace Cascaded

variable (h : Cascaded links m m' l)
include h

lemma mem (hx : x ∈ m') : x ∈ m := by
  obtain ⟨b,hb⟩ := mem_iff_lookup.mp hx
  exact mem_iff_lookup.mpr ⟨b,h.shrinks hb⟩

omit h in
lemma same (h : ∀ a ∈ l, a ∉ m) : Cascaded links m m l :=
  ⟨id,h,fun hx hx' => absurd hx hx',fun hx hx' => absurd hx hx'⟩

lemma lookup (hx : x ∈ m') : m'.lookup x = m.lookup x := by
  obtain ⟨b,hb⟩ := mem_iff_lookup.mp hx
  rw [hb,h.shrinks hb]

lemma length_le : m'.keys.length ≤ m.keys.length :=
  (List.subperm_of_subset m'.keys_nodup fun _ hx =>
    AList.mem_keys.mp (h.mem (AList.mem_keys.mpr hx))).length_le

lemma links_left (hx : x ∈ m') {y : α} (hlinks : Links links m x y) : Links links m' x y := by
  obtain ⟨b,hb,hy⟩ := hlinks
  exact ⟨b,(h.lookup hx).trans hb,hy⟩

lemma trans (h' : Cascaded links m' m'' l') : Cascaded links m m'' (l ++ l') where
  shrinks hb := h.shrinks (h'.shrinks hb)
  sources a ha := by
    rcases List.mem_append.mp ha with ha | ha
    · exact fun hmem => h.sources a ha (h'.mem hmem)
    · exact h'.sources a ha
  closed {x y} hx hgone hlinks := by
    by_cases hx' : x ∈ m'
    · exact h'.closed hx' hgone (h.links_left hx' hlinks)
    · exact fun hmem => h.closed hx hx' hlinks (h'.mem hmem)
  reached {x} hx hgone := by
    by_cases hx' : x ∈ m'
    · obtain ⟨a,ha,hpath⟩ := h'.reached hx' hgone
      exact ⟨a,List.mem_append_right _ ha,ReflTransGen.mono (fun _ _ => Links.mono h.shrinks) _ _ hpath⟩
    · obtain ⟨a,ha,hpath⟩ := h.reached hx hx'
      exact ⟨a,List.mem_append_left _ ha,hpath⟩

omit h in
lemma erase (hb : m.lookup a = some b) (h : Cascaded links (m.erase a) m' (links b)) :
    Cascaded links m m' [a] where
  shrinks hb' := (lookup_erase_eq_some (h.shrinks hb')).2
  sources := by
    simp only [List.mem_singleton,forall_eq]
    exact fun hmem => (AList.mem_erase.mp (h.mem hmem)).1 rfl
  closed {x y} hx hgone hlinks := by
    obtain ⟨c,hc,hy⟩ := hlinks
    by_cases hxa : x = a
    · subst hxa
      cases hb.symm.trans hc
      exact h.sources y hy
    · exact h.closed (AList.mem_erase.mpr ⟨hxa,hx⟩) hgone ⟨c,(AList.lookup_erase_ne hxa).trans hc,hy⟩
  reached {x} hx hgone := by
    refine ⟨a,List.mem_singleton_self a,?_⟩
    by_cases hxa : x = a
    · exact hxa ▸ .refl
    · obtain ⟨c,hc,hpath⟩ := h.reached (AList.mem_erase.mpr ⟨hxa,hx⟩) hgone
      refine .head ⟨b,hb,hc⟩ (ReflTransGen.mono (fun _ _ => Links.mono fun hlookup => ?_) _ _ hpath)
      exact (lookup_erase_eq_some hlookup).2

omit h in
lemma foldl {f : AList (fun _ : α => β) → α → AList (fun _ : α => β)} {k : ℕ}
    (hf : ∀ {m} a, m.keys.length ≤ k → Cascaded links m (f m a) [a]) (hm : m.keys.length ≤ k)
    (l : List α) : Cascaded links m (l.foldl f m) l := by
  induction l generalizing m with
  | nil => exact .same (by simp)
  | cons a l ih => exact (hf a hm).trans (ih (Nat.le_trans (hf a hm).length_le hm))

theorem gone_iff (hx : x ∈ m) : x ∉ m' ↔ ∃ a ∈ l, ReflTransGen (Links links m) a x := by
  refine ⟨h.reached hx,?_⟩
  rintro ⟨a,ha,hpath⟩
  clear hx
  induction hpath with
  | refl => exact h.sources a ha
  | tail _ hlinks ih =>
    obtain ⟨b,hb,-⟩ := id hlinks
    exact h.closed (mem_iff_lookup.mpr ⟨b,hb⟩) ih hlinks

end Cascaded

theorem cascade_cascaded {k : ℕ} (hk : m.keys.length ≤ k) (a : α) :
    Cascaded links m (cascade links k m a) [a] := by
  induction k generalizing m a with
  | zero =>
    refine .same fun x _ hx => ?_
    have hkeys : m.keys = [] := List.length_eq_zero_iff.mp (Nat.le_zero.mp hk)
    simpa [hkeys] using AList.mem_keys.mp hx
  | succ k ih =>
    rw [cascade]
    split
    · next hnone =>
      refine .same fun x hx hmem => ?_
      obtain rfl := List.mem_singleton.mp hx
      obtain ⟨b,hb⟩ := mem_iff_lookup.mp hmem
      cases hnone.symm.trans hb
    · next b hb =>
      refine .erase hb (.foldl (fun a hm => ih hm a) ?_ _)
      have hlength := (entries_perm_erase hb).length_eq
      simp only [List.length_cons] at hlength
      simp only [AList.keys,List.keys,List.length_map] at hk ⊢
      omega

end Strij.Lib
