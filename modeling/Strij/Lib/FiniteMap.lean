import Mathlib.Data.List.AList

/-! Entries of finite maps, insertion that keeps an existing entry, and maps and filters of the values. -/
namespace Strij.Lib
variable {α : Type*} {β : α → Type*} [DecidableEq α] {m : AList β} {a k : α} {b : β a}

theorem entries_perm_erase (h : m.lookup a = some b) : m.entries.Perm (⟨a,b⟩ :: (m.erase a).entries) := by
  obtain ⟨b',l₁,l₂,-,heq,herase⟩ := List.exists_of_kerase
    (AList.mem_keys.mp (AList.lookup_isSome.mp (by rw [h]; rfl)))
  have hb : b' = b := by
    have hmem : (⟨a,b'⟩ : Sigma β) ∈ m.entries := by simp [heq]
    exact Option.some.inj ((AList.mem_lookup_iff.mpr hmem).symm.trans h)
  subst hb
  change m.entries.Perm (_ :: m.entries.kerase a)
  rw [herase,heq]
  exact List.perm_middle

lemma entries_of_subsingleton (h : ∀ a ∈ m, ∀ b ∈ m, a = b) :
    m.entries = [] ∨ ∃ x, m.entries = [x] ∧ m.lookup x.1 = some x.2 := by
  cases hentries : m.entries with
  | nil => exact .inl rfl
  | cons x rest =>
    have hmem : ∀ y ∈ x :: rest, y.1 ∈ m := fun y hy =>
      AList.mem_keys.mpr (List.mem_map_of_mem (hentries ▸ hy))
    have hnodup := m.nodupKeys
    rw [hentries,List.nodupKeys_cons] at hnodup
    have hrest : rest = [] := List.eq_nil_iff_forall_not_mem.mpr fun y hy => by
      have heq : x.1 = y.1 := h _ (hmem x List.mem_cons_self) _ (hmem y (List.mem_cons_of_mem _ hy))
      exact hnodup.1 (heq ▸ List.mem_map_of_mem hy)
    have hx : x ∈ m.entries := hentries ▸ List.mem_cons_self
    exact .inr ⟨x,by rw [hrest],AList.mem_lookup_iff.mpr hx⟩

lemma mem_iff_lookup : a ∈ m ↔ ∃ b, m.lookup a = some b := by
  rw [← AList.lookup_isSome,Option.isSome_iff_exists]

def emplace (m : AList β) (a : α) (b : β a) : AList β := if a ∈ m then m else m.insert a b

lemma emplace_of_mem (h : a ∈ m) : emplace m a b = m := if_pos h

lemma lookup_emplace_self (h : a ∉ m) : (emplace m a b).lookup a = some b := by
  rw [emplace,if_neg h,AList.lookup_insert]

lemma lookup_emplace_ne (h : k ≠ a) : (emplace m a b).lookup k = m.lookup k := by
  rw [emplace]
  split
  · rfl
  · exact AList.lookup_insert_ne h

@[simp] lemma mem_emplace : k ∈ emplace m a b ↔ k = a ∨ k ∈ m := by
  rw [emplace]
  split
  · next h => exact ⟨.inr,fun hk => hk.elim (fun heq => heq ▸ h) id⟩
  · exact AList.mem_insert _

lemma lookup_emplace_eq_some {c : β k} (h : (emplace m a b).lookup k = some c) :
    m.lookup k = some c ∨ a ∉ m ∧ (⟨k,c⟩ : Sigma β) = ⟨a,b⟩ := by
  by_cases hk : k = a
  · subst hk
    by_cases hm : k ∈ m
    · exact .inl (emplace_of_mem hm ▸ h)
    · rw [lookup_emplace_self hm] at h
      cases h
      exact .inr ⟨hm,rfl⟩
  · exact .inl (lookup_emplace_ne hk ▸ h)

lemma lookup_erase_eq_some {c : β k} (h : (m.erase a).lookup k = some c) : k ≠ a ∧ m.lookup k = some c := by
  have hk : k ≠ a := by
    rintro rfl
    rw [AList.lookup_erase] at h
    cases h
  rw [AList.lookup_erase_ne hk] at h
  exact ⟨hk,h⟩

section Values
variable {β γ : Type*}

def mapValues (f : β → γ) (m : AList (fun _ : α => β)) : AList (fun _ : α => γ) :=
  ⟨m.entries.map (fun x => ⟨x.1,f x.2⟩),by
    rw [List.NodupKeys,List.keys,List.map_map]
    exact m.nodupKeys⟩

lemma lookup_mapValues (f : β → γ) (m : AList (fun _ : α => β)) (a : α) :
    (mapValues f m).lookup a = (m.lookup a).map f := by
  obtain ⟨entries,hnodup⟩ := m
  simp only [mapValues,AList.lookup]
  clear hnodup
  induction entries with
  | nil => rfl
  | cons x entries ih =>
    obtain ⟨k,b⟩ := x
    by_cases hk : a = k
    · subst hk
      simp
    · rw [List.map_cons,List.dlookup_cons_ne _ _ hk,List.dlookup_cons_ne _ _ hk,ih]

def filterValues (p : β → Bool) (m : AList (fun _ : α => β)) : AList (fun _ : α => β) :=
  ⟨m.entries.filter (fun x => p x.2),m.nodupKeys.sublist List.filter_sublist⟩

lemma lookup_filterValues_eq_some {p : β → Bool} {m : AList (fun _ : α => β)} {a : α} {b : β} :
    (filterValues p m).lookup a = some b ↔ m.lookup a = some b ∧ p b = true := by
  rw [← Option.mem_def,AList.mem_lookup_iff,← Option.mem_def,AList.mem_lookup_iff]
  exact List.mem_filter

end Values
end Strij.Lib
