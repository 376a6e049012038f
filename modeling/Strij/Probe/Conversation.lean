import Mathlib

/-! The probe protocol as seen by one task at one node: what the gateway still expects, the messages
on the way in both directions, what the node holds, and the history of the exchange. -/
namespace Strij.Probe

inductive Down
  | probe
  | grant
  | cancel
  deriving DecidableEq, Repr

inductive Up
  | pull
  | decline
  deriving DecidableEq, Repr

structure Conversation where
  outstanding : Bool := false
  down : List Down := []
  up : List Up := []
  queued : ℕ := 0
  held : Bool := false
  sent : List Down := []
  replied : List Up := []
  consumed : ℕ := 0
  stray : ℕ := 0

namespace Conversation
variable {c d : Conversation} {j : ℕ}

def send (m : Down) (c : Conversation) : Conversation :=
  { c with down := c.down ++ [m], sent := c.sent ++ [m] }

def reply (m : Up) (c : Conversation) : Conversation :=
  { c with up := c.up ++ [m], replied := c.replied ++ [m] }

/-- One step of either side after the probe was sent. -/
inductive Step : Conversation → Conversation → Prop
  | grant {c : Conversation} {rest} : c.outstanding = true → c.up = .pull :: rest →
      Step c (send .grant { c with outstanding := false, up := rest })
  | close {c : Conversation} : c.outstanding = true →
      Step c (send .cancel { c with outstanding := false })
  | revoke {c : Conversation} {rest} : c.outstanding = false → c.up = .pull :: rest →
      Step c (send .cancel { c with up := rest })
  | hearDecline {c : Conversation} {rest} : c.up = .decline :: rest →
      Step c { c with outstanding := false, up := rest }
  | probeHeld {c : Conversation} {rest} : c.down = .probe :: rest →
      Step c (reply .pull { c with down := rest, held := true })
  | probeQueued {c : Conversation} {rest} : c.down = .probe :: rest →
      Step c { c with down := rest, queued := c.queued+1 }
  | probeDeclined {c : Conversation} {rest} : c.down = .probe :: rest →
      Step c (reply .decline { c with down := rest })
  | run {c : Conversation} {rest} : c.down = .grant :: rest → c.held = true →
      Step c { c with down := rest, held := false, consumed := c.consumed+1 }
  | stray {c : Conversation} {rest} : c.down = .grant :: rest → c.held = false →
      Step c { c with down := rest, stray := c.stray+1 }
  | cancel {c : Conversation} {rest} : c.down = .cancel :: rest →
      Step c { c with down := rest, held := false, queued := 0 }
  | walkPull {c : Conversation} {n} : c.queued = n+1 →
      Step c (reply .pull { c with queued := n, held := true })
  | walkDecline {c : Conversation} {n} : c.queued = n+1 →
      Step c (reply .decline { c with queued := n })

/-- What is left at the node and on its way up after a cancel was sent. -/
inductive Winding : Conversation → Prop
  | queued {c : Conversation} : c.outstanding = false → c.queued = 1 → c.held = false → c.up = [] →
      c.consumed = 0 → c.stray = 0 → Winding c
  | pulled {c : Conversation} : c.outstanding = false → c.queued = 0 → (c.up = [.pull] ∨ c.up = []) →
      c.consumed = 0 → c.stray = 0 → Winding c
  | declined {c : Conversation} : c.outstanding = false → c.queued = 0 → c.held = false →
      c.up = [.decline] → c.consumed = 0 → c.stray = 0 → Winding c

/-- The states a conversation can be in. -/
inductive Legal : Conversation → Prop
  | unprobed : Legal {}
  | probing : Legal { outstanding := true, down := [.probe], sent := [.probe] }
  | queued : Legal { outstanding := true, queued := 1, sent := [.probe] }
  | pulling : Legal {
      outstanding := true, up := [.pull], held := true, sent := [.probe], replied := [.pull] }
  | declining : Legal {
      outstanding := true, up := [.decline], sent := [.probe], replied := [.decline] }
  | declined : Legal { sent := [.probe], replied := [.decline] }
  | granting : Legal {
      down := [.grant], held := true, sent := [.probe,.grant], replied := [.pull] }
  | ran : Legal { sent := [.probe,.grant], replied := [.pull], consumed := 1 }
  | crossing : Legal { down := [.probe,.cancel], sent := [.probe,.cancel] }
  | cancelled {c : Conversation} {j k : ℕ} (h : Winding c) (hdown : c.down = List.replicate j .cancel)
      (hsent : c.sent = .probe :: List.replicate (k+1) .cancel)
      (hkept : 0 < c.queued ∨ c.held = true → 0 < j) : Legal c

lemma Winding.outstanding (h : Winding c) : c.outstanding = false := by
  cases h <;> assumption

lemma replicate_cancel_head {m : Down} {rest : List Down}
    (h : List.replicate j .cancel = m :: rest) : m = .cancel ∧ ∃ i, j = i+1 ∧ rest = List.replicate i .cancel := by
  cases j with
  | zero => cases h
  | succ i =>
    obtain ⟨hm,hrest⟩ := List.cons.inj h
    exact ⟨hm.symm,i,rfl,hrest.symm⟩

lemma Legal.step_cancelled {k : ℕ} (hw : Winding c) (hdown : c.down = List.replicate j .cancel)
    (hsent : c.sent = .probe :: List.replicate (k+1) .cancel)
    (hkept : 0 < c.queued ∨ c.held = true → 0 < j) (hstep : Step c d) : Legal d := by
  have hout := hw.outstanding
  cases hstep with
  | grant ho => simp [hout] at ho
  | close ho => simp [hout] at ho
  | @revoke rest _ hu =>
    have hpulled : c.queued = 0 ∧ rest = [] ∧ c.consumed = 0 ∧ c.stray = 0 := by
      cases hw with
      | queued _ _ _ hup => simp [hup] at hu
      | pulled _ hq hup hconsumed hstray =>
        rcases hup with hup | hup
        · exact ⟨hq,by simpa [hup,eq_comm] using hu,hconsumed,hstray⟩
        · simp [hup] at hu
      | declined _ _ _ hup => simp [hup] at hu
    obtain ⟨hq,rfl,hconsumed,hstray⟩ := hpulled
    refine .cancelled (j := j+1) (k := k+1) (.pulled hout hq (.inr rfl) hconsumed hstray) ?_ ?_ ?_
    · simp [send,hdown,List.replicate_succ']
    · simp [send,hsent,List.replicate_succ']
    · simp
  | @hearDecline rest hu =>
    have hdeclined : c.queued = 0 ∧ rest = [] ∧ c.consumed = 0 ∧ c.stray = 0 := by
      cases hw with
      | queued _ _ _ hup => simp [hup] at hu
      | pulled _ _ hup => rcases hup with hup | hup <;> simp [hup] at hu
      | declined _ hq _ hup hconsumed hstray =>
        exact ⟨hq,by simpa [hup,eq_comm] using hu,hconsumed,hstray⟩
    obtain ⟨hq,rfl,hconsumed,hstray⟩ := hdeclined
    exact .cancelled (.pulled rfl hq (.inr rfl) hconsumed hstray) hdown hsent hkept
  | probeHeld hd => cases (replicate_cancel_head (hdown ▸ hd)).1
  | probeQueued hd => cases (replicate_cancel_head (hdown ▸ hd)).1
  | probeDeclined hd => cases (replicate_cancel_head (hdown ▸ hd)).1
  | run hd => cases (replicate_cancel_head (hdown ▸ hd)).1
  | stray hd => cases (replicate_cancel_head (hdown ▸ hd)).1
  | cancel hd =>
    obtain ⟨-,i,rfl,rfl⟩ := replicate_cancel_head (hdown ▸ hd)
    refine .cancelled (j := i) ?_ rfl hsent (by simp)
    cases hw with
    | queued _ _ _ hup hconsumed hstray => exact .pulled hout rfl (.inr hup) hconsumed hstray
    | pulled _ _ hup hconsumed hstray => exact .pulled hout rfl hup hconsumed hstray
    | declined _ _ _ hup hconsumed hstray => exact .declined hout rfl rfl hup hconsumed hstray
  | walkPull hn =>
    cases hw with
    | queued _ hq _ hup hconsumed hstray =>
      have hj := hkept (.inl (by omega))
      exact .cancelled (.pulled hout (by simp only [reply]; omega) (.inl (by simp [reply,hup]))
        hconsumed hstray) hdown hsent (fun _ => hj)
    | pulled _ hq => omega
    | declined _ hq => omega
  | walkDecline hn =>
    cases hw with
    | queued _ hq hheld hup hconsumed hstray =>
      have hj := hkept (.inl (by omega))
      exact .cancelled (.declined hout (by simp only [reply]; omega) hheld (by simp [reply,hup])
        hconsumed hstray) hdown hsent (fun _ => hj)
    | pulled _ hq => omega
    | declined _ hq => omega

theorem Legal.step (h : Legal c) (hstep : Step c d) : Legal d := by
  cases h with
  | unprobed => cases hstep <;> simp_all
  | probing =>
    cases hstep with
    | close => exact .crossing
    | probeHeld hd => cases hd; exact .pulling
    | probeQueued hd => cases hd; exact .queued
    | probeDeclined hd => cases hd; exact .declining
    | _ => simp_all
  | queued =>
    cases hstep with
    | close => exact .cancelled (j := 1) (k := 0) (.queued rfl rfl rfl rfl rfl rfl) rfl rfl (by simp)
    | walkPull hn => cases hn; exact .pulling
    | walkDecline hn => cases hn; exact .declining
    | _ => simp_all
  | pulling =>
    cases hstep with
    | grant _ hu => cases hu; exact .granting
    | close => exact .cancelled (j := 1) (k := 0) (.pulled rfl rfl (.inl rfl) rfl rfl) rfl rfl (by simp)
    | _ => simp_all
  | declining =>
    cases hstep with
    | close =>
      exact .cancelled (j := 1) (k := 0) (.declined rfl rfl rfl rfl rfl rfl) rfl rfl (by simp)
    | hearDecline hu => cases hu; exact .declined
    | _ => simp_all
  | declined => cases hstep <;> simp_all
  | granting =>
    cases hstep with
    | run hd => cases hd; exact .ran
    | _ => simp_all
  | ran => cases hstep <;> simp_all
  | crossing =>
    cases hstep with
    | probeHeld hd =>
      cases hd
      exact .cancelled (j := 1) (k := 0) (.pulled rfl rfl (.inl rfl) rfl rfl) rfl rfl (by simp)
    | probeQueued hd =>
      cases hd
      exact .cancelled (j := 1) (k := 0) (.queued rfl rfl rfl rfl rfl rfl) rfl rfl (by simp)
    | probeDeclined hd =>
      cases hd
      exact .cancelled (j := 1) (k := 0) (.declined rfl rfl rfl rfl rfl rfl) rfl rfl (by simp)
    | _ => simp_all
  | cancelled hw hdown hsent hkept => exact Legal.step_cancelled hw hdown hsent hkept hstep

theorem Legal.steps (h : Legal c) (hsteps : Relation.ReflTransGen Step c d) : Legal d := by
  induction hsteps with
  | refl => exact h
  | tail _ hstep ih => exact ih.step hstep

lemma not_step_unprobed : ¬Step {} d := by
  intro h
  cases h <;> simp_all

lemma steps_unprobed (h : Relation.ReflTransGen Step {} d) : d = {} := by
  rcases Relation.ReflTransGen.cases_head h with h | ⟨c,hc,-⟩
  · exact h.symm
  · exact absurd hc not_step_unprobed

theorem Legal.exclusive (h : Legal c) : ¬(Down.grant ∈ c.sent ∧ Down.cancel ∈ c.sent) ∧ c.stray = 0 ∧
      (0 < c.consumed → Down.grant ∈ c.sent) ∧ c.consumed ≤ 1 := by
  cases h with
  | cancelled hw hdown hsent =>
    have hcounts : c.consumed = 0 ∧ c.stray = 0 := by cases hw <;> exact ⟨by assumption,by assumption⟩
    refine ⟨fun hboth => ?_,hcounts.2,by omega,by omega⟩
    rw [hsent] at hboth
    simp at hboth
  | _ => simp

lemma Legal.unsent (h : Legal c) (hsent : c.sent = []) : c.down = [] ∧ c.up = [] := by
  cases h with
  | cancelled _ _ hcancels =>
    rw [hcancels] at hsent
    cases hsent
  | _ => simp_all

lemma Legal.consumed_eq_one (h : Legal c) (hgrant : Down.grant ∈ c.sent) (hdown : c.down = []) : c.consumed = 1 := by
  cases h with
  | granting => cases hdown
  | ran => rfl
  | cancelled _ _ hsent => simp [hsent] at hgrant
  | _ => simp at hgrant

theorem Legal.settled (h : Legal c) (hdown : c.down = []) (hup : c.up = []) (hout : c.outstanding = false) :
    c.queued = 0 ∧ c.held = false ∧ (Down.probe ∈ c.sent →
      Up.decline ∈ c.replied ∨ Down.cancel ∈ c.sent ∨ 0 < c.consumed) := by
  cases h with
  | cancelled hw hcancels hsent hkept =>
    rw [hcancels,List.replicate_eq_nil_iff] at hdown
    subst hdown
    have hq : ¬0 < c.queued := fun h => absurd (hkept (.inl h)) (by omega)
    have hh : ¬c.held = true := fun h => absurd (hkept (.inr h)) (by omega)
    refine ⟨by omega,by simpa using hh,fun _ => .inr (.inl ?_)⟩
    rw [hsent]
    simp
  | _ => simp_all

end Conversation
end Strij.Probe
