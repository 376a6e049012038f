import Mathlib

/-! Sampling of probe candidates without replacement: a shuffle of the pool's first places, driven
by a stream of draws. -/
namespace Strij.Gateway

section Sampling
variable {α : Type*} (draw : ℕ → ℕ)

def swapDrawn (pool : Array α) (i : ℕ) : Array α :=
  pool.swapIfInBounds i (i+draw i%(pool.size-i))

def sampleCandidates (candidates : List α) (nodeNum : ℕ) : List α :=
  let count := min nodeNum candidates.length
  ((List.range count).foldl (swapDrawn draw) candidates.toArray).toList.take count

lemma swapDrawn_perm (pool : Array α) (i : ℕ) : (swapDrawn draw pool i).Perm pool := by
  rw [swapDrawn,Array.swapIfInBounds]
  split_ifs
  · exact Array.swap_perm _ _
  · exact Array.Perm.refl pool
  · exact Array.Perm.refl pool

lemma foldl_swapDrawn_perm (is : List ℕ) (pool : Array α) : (is.foldl (swapDrawn draw) pool).Perm pool := by
  induction is generalizing pool with
  | nil => exact Array.Perm.refl pool
  | cons i is ih => exact (ih _).trans (swapDrawn_perm draw pool i)

theorem sampleCandidates_perm (candidates : List α) (nodeNum : ℕ) : ∃ rest,
    (sampleCandidates draw candidates nodeNum ++ rest).Perm candidates := by
  refine ⟨((List.range (min nodeNum candidates.length)).foldl (swapDrawn draw)
    candidates.toArray).toList.drop (min nodeNum candidates.length),?_⟩
  rw [sampleCandidates,List.take_append_drop]
  exact (foldl_swapDrawn_perm draw _ _).toList

theorem sampleCandidates_length (candidates : List α) (nodeNum : ℕ) :
    (sampleCandidates draw candidates nodeNum).length = min nodeNum candidates.length := by
  have hlen := (foldl_swapDrawn_perm draw (List.range (min nodeNum candidates.length))
    candidates.toArray).toList.length_eq
  rw [sampleCandidates,List.length_take,hlen]
  simp

section Coverage
variable {pool : Array α} {i : ℕ}

lemma getElem?_swapDrawn (hi : i < pool.size) (k : ℕ) :
    (swapDrawn draw pool i)[k]? = if i+draw i%(pool.size-i) = k then pool[i]?
      else if i = k then pool[i+draw i%(pool.size-i)]? else pool[k]? := by
  have hj : i+draw i%(pool.size-i) < pool.size := by
    have := Nat.mod_lt (draw i) (Nat.sub_pos_of_lt hi)
    omega
  rw [swapDrawn,Array.swapIfInBounds,dif_pos hi,dif_pos hj,Array.getElem?_swap,Array.getElem?_eq_getElem hi,
    Array.getElem?_eq_getElem hj]

lemma exists_swapDrawn {j : ℕ} {x : α} (hij : i ≤ j) (hj : pool[j]? = some x) : ∃ d, ∀ draw : ℕ → ℕ, draw i = d →
    ∀ k, (swapDrawn draw pool i)[k]? = if j = k then pool[i]? else if i = k then some x else pool[k]? := by
  have hsize : j < pool.size := (Array.getElem?_eq_some_iff.mp hj).1
  refine ⟨j-i,fun draw hd k => ?_⟩
  have hdrawn : i+draw i%(pool.size-i) = j := by
    rw [hd,Nat.mod_eq_of_lt (by omega)]
    omega
  rw [getElem?_swapDrawn draw (by omega),hdrawn,hj]

-- the induction is on what remains to be chosen; the places before `i` are settled
lemma exists_draws (chosen : List α) (hnodup : chosen.Nodup)
    (hmem : ∀ x ∈ chosen, ∃ j, i ≤ j ∧ pool[j]? = some x) : ∃ draw, ∀ k < i+chosen.length,
      ((List.range' i chosen.length).foldl (swapDrawn draw) pool)[k]? =
        if k < i then pool[k]? else chosen[k-i]? := by
  induction chosen generalizing i pool with
  | nil => exact ⟨fun _ => 0,fun k hk => (if_pos hk).symm⟩
  | cons x chosen ih =>
    obtain ⟨hx,hnodup⟩ := List.nodup_cons.mp hnodup
    obtain ⟨⟨j,hij,hj⟩,hmem⟩ := List.forall_mem_cons.mp hmem
    obtain ⟨d,hd⟩ := exists_swapDrawn hij hj
    have hpool := hd (fun _ => d) rfl
    have hlater : ∀ y ∈ chosen, ∃ j', i+1 ≤ j' ∧ (swapDrawn (fun _ => d) pool i)[j']? = some y := by
      intro y hy
      obtain ⟨j',hij',hj'⟩ := hmem y hy
      have hne : j' ≠ j := fun heq => hx (by rw [heq,hj] at hj'; exact Option.some.inj hj' ▸ hy)
      by_cases hi : j' = i
      · exact ⟨j,by omega,by rw [hpool,if_pos rfl,← hi,hj']⟩
      · exact ⟨j',by omega,by rw [hpool,if_neg hne.symm,if_neg (Ne.symm hi),hj']⟩
    obtain ⟨draw,hdraw⟩ := ih hnodup hlater
    refine ⟨Function.update draw i d,fun k hk => ?_⟩
    have hfirst : swapDrawn (Function.update draw i d) pool i = swapDrawn (fun _ => d) pool i := by
      rw [swapDrawn,swapDrawn,Function.update_self]
    have hrest : ∀ (p : Array α), ∀ m ∈ List.range' (i+1) chosen.length,
        swapDrawn (Function.update draw i d) p m = swapDrawn draw p m := by
      intro p m hm
      have : m ≠ i := by
        have := List.mem_range'_1.mp hm
        omega
      rw [swapDrawn,swapDrawn,Function.update_of_ne this]
    rw [List.length_cons] at hk
    rw [List.length_cons,List.range'_succ,List.foldl_cons,hfirst,List.foldl_ext _ _ _ hrest,hdraw k (by omega)]
    rcases Nat.lt_trichotomy k i with hlt | rfl | hgt
    · rw [if_pos (by omega),if_pos hlt,hpool,if_neg (by omega),if_neg (by omega)]
    · rw [if_pos (by omega),if_neg (lt_irrefl k),hpool,if_pos rfl,Nat.sub_self,List.getElem?_cons_zero]
      split
      · next heq => rw [← heq,hj]
      · rfl
    · obtain ⟨m,rfl⟩ := Nat.exists_eq_add_of_lt hgt
      rw [if_neg (by omega),if_neg (by omega),show i+m+1-i = m+1 by omega,List.getElem?_cons_succ]
      congr 1
      omega

lemma sampleCandidates_surjective {candidates chosen : List α} {nodeNum : ℕ} (hnodup : chosen.Nodup)
    (hsub : chosen ⊆ candidates) (hlength : chosen.length = min nodeNum candidates.length) :
    ∃ draw, sampleCandidates draw candidates nodeNum = chosen := by
  have hmem : ∀ x ∈ chosen, ∃ j, 0 ≤ j ∧ candidates.toArray[j]? = some x := by
    intro x hx
    obtain ⟨j,hj⟩ := List.getElem?_of_mem (hsub hx)
    exact ⟨j,Nat.zero_le j,by simpa using hj⟩
  obtain ⟨draw,hdraw⟩ := exists_draws chosen hnodup hmem
  refine ⟨draw,List.ext_getElem? fun k => ?_⟩
  rw [sampleCandidates,← hlength,List.range_eq_range',List.getElem?_take]
  split
  · next hk => simpa using hdraw k (by omega)
  · next hk => exact (List.getElem?_eq_none (by omega)).symm

end Coverage

/-- The sample is one without replacement, whatever is drawn, and every arrangement of as many of the candidates
is drawn by some. -/
theorem sampleCandidates_without_replacement (candidates : List α) (hnodup : candidates.Nodup) (nodeNum : ℕ) :
    (∀ draw, (sampleCandidates draw candidates nodeNum).length = min nodeNum candidates.length ∧
      (sampleCandidates draw candidates nodeNum).Nodup ∧ sampleCandidates draw candidates nodeNum ⊆ candidates) ∧
    ∀ chosen : List α, chosen.Nodup → chosen ⊆ candidates → chosen.length = min nodeNum candidates.length →
      ∃ draw, sampleCandidates draw candidates nodeNum = chosen := by
  refine ⟨fun draw => ⟨sampleCandidates_length draw candidates nodeNum,?_⟩,
    fun chosen hchosen hsub hlength => sampleCandidates_surjective hchosen hsub hlength⟩
  obtain ⟨rest,hperm⟩ := sampleCandidates_perm draw candidates nodeNum
  refine ⟨(List.nodup_append.mp (hperm.nodup_iff.mpr hnodup)).1,fun x hx => ?_⟩
  exact hperm.subset (List.mem_append_left _ hx)

theorem sampleCandidates_three : ∃ draw, sampleCandidates draw ["a","b","c"] 2 = ["c","a"] :=
  (sampleCandidates_without_replacement ["a","b","c"] (by decide) 2).2 ["c","a"] (by decide) (by simp) rfl

end Sampling
end Strij.Gateway
