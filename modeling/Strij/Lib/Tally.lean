import Mathlib

/-! Tables of 64-bit counters: an ordered map whose missing keys count as zero, with wrapping
additions and with subtractions that drop an entry instead of going below zero. -/
namespace Strij.Lib
open Std (TreeMap TransOrd LawfulEqOrd)

abbrev Tally (κ : Type*) [Ord κ] := TreeMap κ UInt64

namespace Tally

section Entries
variable {κ : Type*} [Ord κ]

def value (t : Tally κ) (k : κ) : UInt64 := t.getD k 0

def add (t : Tally κ) (k : κ) (n : UInt64) : Tally κ := t.insert k (t.value k+n)

/-- Take `n` from an existing entry; an entry with at most `n` left is erased. -/
def sub (t : Tally κ) (k : κ) (n : UInt64) : Tally κ :=
  match t[k]? with
  | none => t
  | some v => if n ≥ v then t.erase k else t.insert k (v-n)

def addAll (t : Tally κ) (xs : List (κ × UInt64)) : Tally κ := xs.foldl (fun t x => t.add x.1 x.2) t

def subAll (t : Tally κ) (xs : List (κ × UInt64)) : Tally κ := xs.foldl (fun t x => t.sub x.1 x.2) t

def total (t : Tally κ) : UInt64 := t.toList.foldl (fun n x => n+x.2) 0

end Entries

section Amounts
variable {κ : Type*} [DecidableEq κ]

def amount (xs : List (κ × UInt64)) (k : κ) : UInt64 := (xs.lookup k).getD 0

@[simp] theorem amount_nil (k : κ) : amount ([] : List (κ × UInt64)) k = 0 := rfl

theorem amount_cons (x : κ × UInt64) (xs : List (κ × UInt64)) (k : κ) :
    amount (x :: xs) k = if k = x.1 then x.2 else amount xs k := by
  obtain ⟨a,n⟩ := x
  rw [amount,List.lookup_cons]
  by_cases h : k = a
  · simp [h]
  · simp [amount,h,beq_false_of_ne h]

theorem amount_of_not_mem {xs : List (κ × UInt64)} {k : κ} (h : k ∉ xs.map Prod.fst) : amount xs k = 0 := by
  induction xs with
  | nil => rfl
  | cons x xs ih =>
    simp only [List.map_cons,List.mem_cons,not_or] at h
    rw [amount_cons,if_neg h.1,ih h.2]

end Amounts

theorem foldl_toNat {κ : Type*} (xs : List (κ × UInt64)) (n : UInt64)
    (h : n.toNat+(xs.map (fun x => x.2.toNat)).sum < 2^64) :
    (xs.foldl (fun n x => n+x.2) n).toNat = n.toNat+(xs.map (fun x => x.2.toNat)).sum := by
  induction xs generalizing n with
  | nil => simp
  | cons x xs ih =>
    rw [List.map_cons,List.sum_cons] at h ⊢
    have hn : (n+x.2).toNat = n.toNat+x.2.toNat := by
      rw [UInt64.toNat_add,Nat.mod_eq_of_lt (by omega)]
    rw [List.foldl_cons,ih _ (by omega),hn]
    omega

section Values
variable {κ : Type*} [Ord κ] [TransOrd κ] (t : Tally κ) {v : UInt64}

@[simp] theorem value_empty (k : κ) : value (∅ : Tally κ) k = 0 := by
  simp [value]

theorem value_of_some {k : κ} (h : t[k]? = some v) : t.value k = v := by
  rw [value,TreeMap.getD_eq_getD_getElem?,h,Option.getD_some]

theorem value_of_none {k : κ} (h : t[k]? = none) : t.value k = 0 := by
  rw [value,TreeMap.getD_eq_getD_getElem?,h,Option.getD_none]

theorem keys_nodup [LawfulEqOrd κ] : (t.toList.map Prod.fst).Nodup := by
  rw [List.nodup_iff_pairwise_ne,List.pairwise_map]
  refine TreeMap.ordered_keys_toList.imp ?_
  intro a b h heq
  rw [heq,Std.compare_self] at h
  cases h

theorem mem_toList_value [LawfulEqOrd κ] {k : κ} (h : (k,v) ∈ t.toList) : t.value k = v :=
  t.value_of_some (TreeMap.mem_toList_iff_getElem?_eq_some.mp h)

end Values

section Overwriting
variable {κ α : Type*} [Ord κ] [TransOrd κ] [LawfulEqOrd κ] (t : Tally κ) (key : α → κ) (n : α → UInt64)
  {xs : List α}

theorem getElem?_foldl_insert_of_ne {k : κ} (h : ∀ x ∈ xs, key x ≠ k) :
    (xs.foldl (fun t x => t.insert (key x) (n x)) t)[k]? = t[k]? := by
  induction xs generalizing t with
  | nil => rfl
  | cons x xs ih =>
    obtain ⟨hx,hxs⟩ := List.forall_mem_cons.mp h
    rw [List.foldl_cons,ih _ hxs,TreeMap.getElem?_insert,if_neg (by simpa using hx)]

theorem getElem?_foldl_insert_of_mem {x : α} (hx : x ∈ xs) (hagree : ∀ y ∈ xs, key y = key x → n y = n x) :
    (xs.foldl (fun t x => t.insert (key x) (n x)) t)[key x]? = some (n x) := by
  induction xs generalizing t x with
  | nil => cases hx
  | cons y xs ih =>
    obtain ⟨hy,hxs⟩ := List.forall_mem_cons.mp hagree
    rw [List.foldl_cons]
    by_cases hlater : ∃ z ∈ xs, key z = key x
    · obtain ⟨z,hz,hkey⟩ := hlater
      rw [← hkey,ih _ hz (fun w hw hwz => (hxs w hw (hwz.trans hkey)).trans (hxs z hz hkey).symm),hxs z hz hkey]
    · have hne : ∀ z ∈ xs, key z ≠ key x := fun z hz hkey => hlater ⟨z,hz,hkey⟩
      have hxy : y = x := ((List.mem_cons.mp hx).resolve_right fun hmem => hne x hmem rfl).symm
      subst hxy
      rw [getElem?_foldl_insert_of_ne _ key n hne,TreeMap.getElem?_insert_self]

end Overwriting

section Lemmas
variable {κ : Type*} [Ord κ] [TransOrd κ] [LawfulEqOrd κ] [DecidableEq κ] {xs : List (κ × UInt64)}
variable (t : Tally κ)

theorem value_insert (k a : κ) (v : UInt64) : value (t.insert k v) a = if k = a then v else t.value a := by
  simp only [value,TreeMap.getD_insert,Std.compare_eq_iff_eq]

theorem value_erase (k a : κ) : value (t.erase k) a = if k = a then 0 else t.value a := by
  simp only [value,TreeMap.getD_erase,Std.compare_eq_iff_eq]

theorem value_add (k a : κ) (n : UInt64) :
    (t.add k n).value a = if k = a then t.value a+n else t.value a := by
  rw [add,value_insert]
  split
  · next h => rw [h]
  · rfl

theorem value_sub (k a : κ) (n : UInt64) : ((t.sub k n).value a).toNat =
      if k = a then (t.value a).toNat-n.toNat else (t.value a).toNat := by
  rw [sub]
  cases hk : t[k]? with
  | none =>
    by_cases h : k = a
    · subst h
      simp [t.value_of_none hk]
    · simp [h]
  | some v =>
    have hv := t.value_of_some hk
    by_cases hn : n ≥ v
    · have hle : v.toNat ≤ n.toNat := UInt64.le_iff_toNat_le.mp hn
      simp only [if_pos hn,value_erase]
      split
      · next h => rw [← h,hv,Nat.sub_eq_zero_of_le hle]; rfl
      · rfl
    · have hle : n ≤ v := UInt64.le_of_lt (UInt64.not_le.mp hn)
      simp only [if_neg hn,value_insert]
      split
      · next h => rw [← h,hv,UInt64.toNat_sub_of_le _ _ hle]
      · rfl

theorem value_addAll (hxs : (xs.map Prod.fst).Nodup) (k : κ) :
    (t.addAll xs).value k = t.value k+amount xs k := by
  induction xs generalizing t with
  | nil => simp [addAll]
  | cons x xs ih =>
    obtain ⟨hx,hxs⟩ := List.nodup_cons.mp hxs
    rw [addAll,List.foldl_cons,← addAll,ih _ hxs,value_add,amount_cons]
    by_cases h : x.1 = k
    · subst h
      rw [if_pos rfl,if_pos rfl,amount_of_not_mem hx,UInt64.add_zero]
    · rw [if_neg h,if_neg (Ne.symm h)]

theorem value_subAll (hxs : (xs.map Prod.fst).Nodup) (k : κ) :
    ((t.subAll xs).value k).toNat = (t.value k).toNat-(amount xs k).toNat := by
  induction xs generalizing t with
  | nil => simp [subAll]
  | cons x xs ih =>
    obtain ⟨hx,hxs⟩ := List.nodup_cons.mp hxs
    rw [subAll,List.foldl_cons,← subAll,ih _ hxs,value_sub,amount_cons]
    by_cases h : x.1 = k
    · subst h
      rw [if_pos rfl,if_pos rfl,amount_of_not_mem hx]
      simp
    · rw [if_neg h,if_neg (Ne.symm h)]

section Fold
variable {α : Type*} (key : α → κ) (n : α → UInt64)

theorem value_foldl_add (xs : List α) (k : κ) : value (xs.foldl (fun t x => add t (key x) (n x)) t) k =
      t.value k+((xs.filter (fun x => key x = k)).map n).sum := by
  induction xs generalizing t with
  | nil => simp
  | cons x xs ih =>
    rw [List.foldl_cons,ih,value_add,List.filter_cons]
    by_cases h : key x = k
    · simp only [h,if_true,decide_true,List.map_cons,List.sum_cons,add_assoc]
    · simp [h]

end Fold

theorem find?_toList (k : κ) : t.toList.find? (fun x => x.1 = k) = t[k]?.map (fun v => (k,v)) := by
  cases hk : t[k]? with
  | none =>
    refine List.find?_eq_none.mpr fun x hx heq => ?_
    rw [← of_decide_eq_true heq,TreeMap.mem_toList_iff_getElem?_eq_some.mp (show (x.1,x.2) ∈ t.toList from hx)] at hk
    cases hk
  | some v =>
    have hmem : (k,v) ∈ t.toList := TreeMap.mem_toList_iff_getElem?_eq_some.mpr hk
    have hsome : (t.toList.find? (fun x => x.1 = k)).isSome = true := List.find?_isSome.mpr ⟨(k,v),hmem,by simp⟩
    obtain ⟨y,hy⟩ := Option.isSome_iff_exists.mp hsome
    have hkey : y.1 = k := by simpa using List.find?_some hy
    have hvalue := TreeMap.mem_toList_iff_getElem?_eq_some.mp (show (y.1,y.2) ∈ t.toList from List.mem_of_find?_eq_some hy)
    rw [hkey,hk] at hvalue
    rw [hy,Option.map_some,← hkey,Option.some.inj hvalue]

theorem total_of_counts (xs : List κ) (hxs : xs.length < 2^64)
    (h : ∀ k, (t.value k).toNat = xs.count k) : t.total.toNat = xs.length := by
  have hsum : (t.toList.map (fun x => x.2.toNat)).sum = xs.length := by
    have hcount : t.toList.map (fun x => x.2.toNat) =
        (t.toList.map Prod.fst).map (fun k => xs.count k) := by
      rw [List.map_map]
      apply List.map_congr_left
      rintro ⟨k,v⟩ hx
      simp only [Function.comp_apply,← h,t.mem_toList_value hx]
    have hkeys : ∀ k ∈ (xs : Multiset κ), k ∈ (t.toList.map Prod.fst).toFinset := by
      intro k hk
      have hpos : 0 < xs.count k := List.count_pos_iff.mpr hk
      cases hv : t[k]? with
      | none => simp [← h,t.value_of_none hv] at hpos
      | some v =>
        rw [List.mem_toFinset,List.mem_map]
        exact ⟨(k,v),TreeMap.mem_toList_iff_getElem?_eq_some.mpr hv,rfl⟩
    have hcard := Multiset.sum_count_eq_card hkeys
    rw [hcount,← List.sum_toFinset _ t.keys_nodup]
    simpa using hcard
  have hfold := foldl_toNat t.toList 0 (by rw [hsum]; simpa using hxs)
  rw [total,hfold,hsum]
  simp

end Lemmas
end Tally
end Strij.Lib
