import Mathlib.Data.List.Basic

/-! Checks in `Except`: what was passed when a check passes. -/
namespace Strij.Lib
variable {ε α γ : Type} {f : α → Except ε γ} {l : List α}

lemma bind_eq_ok {x : Except ε α} {c : γ} : x >>= f = .ok c ↔ ∃ a, x = .ok a ∧ f a = .ok c := by
  cases x <;> simp [bind,Except.bind]

lemma seq_eq_ok {x : Except ε PUnit} {y : Except ε γ} {c : γ} :
    (do x; y) = .ok c ↔ x = .ok () ∧ y = .ok c := by
  rw [bind_eq_ok]
  exact ⟨fun ⟨_,hx,hy⟩ => ⟨hx,hy⟩,fun ⟨hx,hy⟩ => ⟨_,hx,hy⟩⟩

lemma forM_eq_ok {f : α → Except ε PUnit} : l.forM f = .ok () ↔ ∀ a ∈ l, f a = .ok () := by
  induction l with
  | nil => exact ⟨fun _ _ h => absurd h List.not_mem_nil,fun _ => rfl⟩
  | cons a l ih =>
    change (f a >>= fun _ => l.forM f) = .ok () ↔ _
    rw [seq_eq_ok,List.forall_mem_cons,ih]

/-- What every step of a loop keeps, the loop keeps. -/
lemma foldlM_keeps {β : Type} {step : β → α → Except ε β} {b b' : β} (f : β → γ)
    (hstep : ∀ b b', ∀ a ∈ l, step b a = .ok b' → f b' = f b) (h : l.foldlM step b = .ok b') : f b' = f b := by
  induction l generalizing b with
  | nil =>
    cases h
    rfl
  | cons a l ih =>
    rw [List.foldlM_cons] at h
    obtain ⟨b₁,hfirst,hrest⟩ := bind_eq_ok.mp h
    rw [ih (fun b b' a ha => hstep b b' a (List.mem_cons_of_mem _ ha)) hrest]
    exact hstep b b₁ a List.mem_cons_self hfirst

lemma mapM_congr_forall₂ {β : Type} {g : β → Except ε γ} {l' : List β}
    (h : List.Forall₂ (fun a b => f a = g b) l l') : l.mapM f = l'.mapM g := by
  induction h with
  | nil => rfl
  | cons hfirst _ ih => rw [List.mapM_cons,List.mapM_cons,hfirst,ih]

lemma foldlM_congr_forall₂ {β : Type} {f : γ → α → Except ε γ} {g : γ → β → Except ε γ} {l' : List β}
    (h : List.Forall₂ (fun a b => ∀ c, f c a = g c b) l l') (c : γ) : l.foldlM f c = l'.foldlM g c := by
  induction h generalizing c with
  | nil => rfl
  | cons hfirst _ ih =>
    rw [List.foldlM_cons,List.foldlM_cons,hfirst]
    exact congrArg _ (funext ih)

end Strij.Lib
