import Strij.Lib.Cascade
import Strij.OpenWorkflow.NestedRuns
import Strij.OpenWorkflow.Routing
import Strij.OpenWorkflow.SoundRuns

/-! Cancellation of the handler's interpreters: it goes down from an interpreter to the awaited runs of its
frames, to those of theirs, and to no others. -/
namespace Strij.OpenWorkflow
open Relation
open Strij.Lib (Cascaded Links cascade cascade_cascaded lookup_erase_eq_some mem_iff_lookup)

section Texts

def Embeds (plain : String → Prop) {n : ℕ} (tasks : Tasks n) : Prop :=
  EveryTask (fun t => ∀ body embedded, t.body = .run body →
    extractEmbeddedWorkflow body = .ok embedded → plain embedded.definition) n tasks

/-- The documents of these texts declare no `export`, and embed only such texts. -/
def PlainTexts (parse : Parser) (plain : String → Prop) : Prop :=
  ∀ text document, plain text → parse text = .ok document →
    NoExport document.2.do_ ∧ Embeds plain document.2.do_

lemma TaskBody.sequences_subset {τ : Type} {body : TaskBody τ} {l : List τ} (h : l ∈ body.sequences) :
    l ⊆ body.nested := by
  cases body with
  | do_ tasks => exact List.mem_singleton.mp h ▸ List.Subset.refl _
  | for_ body => exact List.mem_singleton.mp h ▸ List.Subset.refl _
  | fork body =>
    obtain ⟨branch,hbranch,rfl⟩ := List.mem_map.mp h
    simpa [TaskBody.nested] using hbranch
  | _ => cases h

lemma EveryTask.subset {p : {τ : Type} → Task (TaskBody τ) → Prop} {n : ℕ} {tasks l : Tasks n}
    (h : EveryTask p n tasks) (hl : l ⊆ tasks) : EveryTask p n l := by
  cases n with
  | zero => trivial
  | succ n => exact fun t ht => h t (hl ht)

variable {plain : String → Prop}

def Event.Embedded (plain : String → Prop) : Event → Prop
  | .startRun _ definition _ => plain definition
  | _ => True

lemma embedded_other (e : Event) (hasks : e.asksFor = none) (_ : e.isDefect = false) : e.Embedded plain := by
  cases e <;> trivial

lemma embeds_descends (n : ℕ) : Descends (Event.Embedded plain) (Embeds (n := n+1) plain)
    (Embeds (n := n) plain) where
  terms {steps step} h hstep := by
    refine ⟨fun _ _ => trivial,fun {id e} hasks => ?_,fun _ => trivial⟩
    simp only [Terms.of] at hasks
    split at hasks
    · obtain ⟨_,_,-,rfl⟩ := hasks
      trivial
    · next body hrun =>
      obtain ⟨embedded,input,hextract,rfl⟩ := hasks
      exact (h step hstep).1 body embedded hrun hextract
    · exact hasks.elim
  loops _ _ _ := trivial
  nested h hstep _ hl := EveryTask.subset (h _ hstep).2 (TaskBody.sequences_subset hl)

end Texts

namespace Handler
variable {H : HandlerSetup} {s s' : Handler} {p q : Party} {n : ℕ}

def endedRegime (H : HandlerSetup) : Regime H where
  Holds _ h := h.interpreter.state.isTerminal = true → h.interpreter.state = .cancelled ∨
    ∃ result, .complete result ∈ h.interpreter.world.log
  Startable _ _ := True
  created _ _ _ _ h := by cases h
  called {p h} call replies hended _ hterminal := by
    cases hbefore : h.interpreter.state.isTerminal with
    | true =>
      obtain ⟨hstate,hlog⟩ := HandlerSetup.called_terminal (H := H) (p := p) hbefore call replies
      refine (hended hbefore).imp hstate.trans ?_
      rintro ⟨result,hresult⟩
      exact ⟨result,hlog.subset hresult⟩
    | false =>
      by_cases hcall : call = .cancel
      · exact .inl (hcall ▸ HandlerSetup.called_cancel_state hbefore p replies)
      · exact .inr (HandlerSetup.called_concluded hbefore hcall replies hterminal).2
  nested _ _ := trivial

def plainRegime (hfresh : H.Fresh) {plain : String → Prop} (hplain : PlainTexts H.parse plain) :
    Regime H where
  Holds p h := WorkflowInterpreter.Exact (contextAccount (H.setup p h.key)) h.interpreter ∧
    WorkflowInterpreter.OrderlyTree (Event.Embedded plain) (fun _ => Embeds plain) h.interpreter.root
      h.interpreter.world
  Startable _ text := plain text
  created _ _ _ _ := ⟨WorkflowInterpreter.create_exact [],by rintro _ ⟨⟩,by rintro _ ⟨⟩⟩
  called {p h} call replies hholds hstartable := by
    refine ⟨(hholds.1.script replies).step (hfresh.injective p h.key) call ?_,?_⟩
    · intro text input document hcall hparse
      exact (hplain text document (hstartable text input hcall) hparse).1.plain
    · refine (WorkflowInterpreter.orderly_maintained (H.setup p h.key) embedded_other
        embeds_descends).step
          (i := { h.interpreter with world := { h.interpreter.world with script := replies } })
          hholds.2 call ?_
      intro text input hcall
      refine WorkflowInterpreter.orderly_roots _ embedded_other embeds_descends fun document hparse _ => ?_
      exact (hplain text document (hstartable text input hcall) hparse).2
  nested hholds hmem := hholds.2.2 _ hmem

section Sweep

def cancelled (H : HandlerSetup) (p : Party) (h : Hosted) : Hosted :=
  { h with interpreter := H.called p .cancel h [] }

structure Swept (H : HandlerSetup) (s s' : Handler) : Prop where
  key : ∀ q, (s'.host q).key = (s.host q).key
  runs : ∀ {key n}, s'.runs.lookup key = some n → s.runs.lookup key = some n
  kept : ∀ {q}, (s.Holds q → s'.Holds q) → s'.host q = s.host q
  gone : ∀ {q}, s.Holds q → ¬ s'.Holds q → s'.host q = cancelled H q (s.host q)

namespace Swept
variable {s'' : Handler}

lemma refl : Swept H s s := ⟨fun _ => rfl,id,fun _ => rfl,fun h h' => absurd h h'⟩

lemma holds (h : Swept H s s') (hq : s'.Holds q) : s.Holds q := by
  cases q with
  | task k => trivial
  | nested n =>
    rw [Holds,h.key] at hq
    exact h.runs hq

lemma trans (h : Swept H s s') (h' : Swept H s' s'') : Swept H s s'' where
  key q := (h'.key q).trans (h.key q)
  runs hn := h.runs (h'.runs hn)
  kept {q} hheld := by
    by_cases hq : s.Holds q
    · have hq' := h'.holds (hheld hq)
      rw [h'.kept fun _ => hheld hq,h.kept fun _ => hq']
    · rw [h'.kept fun hq' => absurd (h.holds hq') hq,h.kept fun hq' => absurd hq' hq]
  gone {q} hq hgone := by
    by_cases hq' : s'.Holds q
    · rw [h'.gone hq' hgone,h.kept fun _ => hq']
    · rw [h'.kept fun h => absurd h hq',h.gone hq hq']

lemma one (hn : s.Holds (.nested n)) :
    Swept H s ({ s with runs := s.runs.erase (s.host (.nested n)).key }.cancelOne H (.nested n)) := by
  have hgone : ¬ Holds ({ s with runs := s.runs.erase (s.host (.nested n)).key }.cancelOne H (.nested n))
      (.nested n) := by
    rw [cancelOne,put_holds]
    intro hheld
    cases (AList.lookup_erase _ _).symm.trans hheld
  refine ⟨fun q => put_key,fun hlookup => (lookup_erase_eq_some hlookup).2,fun {q} hheld => ?_,
    fun {q} hq hq' => ?_⟩
  · refine put_host_ne ?_
    rintro rfl
    exact hgone (hheld hn)
  · cases q with
    | task k => exact absurd trivial hq'
    | nested m =>
      have hkey : (s.host (.nested m)).key = (s.host (.nested n)).key := by
        by_contra hne
        refine hq' (put_holds.mpr ?_)
        exact (AList.lookup_erase_ne hne).trans hq
      have hnm : n = m := by
        rw [Holds,← hkey] at hn
        exact Option.some.inj (hn.symm.trans hq)
      subst hnm
      exact put_host_self

end Swept

lemma Upright.holds_of_lookup (hu : Upright (anyRegime H) [] s) {key : String}
    (h : s.runs.lookup key = some n) : s.Holds (.nested n) := by
  rw [Holds,(hu.runs h).2]
  exact h

lemma cancelRun_swept (hu : Upright (anyRegime H) [] s) (k : ℕ) (key : String) :
    Swept H s (cancelRun H k s key) := by
  induction k generalizing s key with
  | zero => exact .refl
  | succ k ih =>
    rw [cancelRun]
    split
    · exact .refl
    · next n hn =>
      have hone := Swept.one (H := H) (hu.holds_of_lookup hn)
      rw [(hu.runs hn).2] at hone
      refine (List.foldlRecOn _ _ (motive := fun s' => Upright (anyRegime H) [] s' ∧ Swept H s s')
        ⟨(hu.erase key).cancelOne _,hone⟩ ?_).2
      exact fun s' hs _ _ => ⟨hs.1.cancelRun _ _,hs.2.trans (ih hs.1 _)⟩

def awaitedBy (s : Handler) (n : ℕ) : List String := (s.host (.nested n)).interpreter.outstanding

lemma foldl_cancelRun_runs {k : ℕ} (hk : ∀ {s'}, Upright (anyRegime H) [] s' → Swept H s s' → ∀ key,
      (cancelRun H k s' key).runs = cascade s.awaitedBy k s'.runs key) (l : List String)
    (hu : Upright (anyRegime H) [] s') (hs : Swept H s s') :
    (l.foldl (cancelRun H k) s').runs = l.foldl (cascade s.awaitedBy k) s'.runs := by
  induction l generalizing s' with
  | nil => rfl
  | cons key l ih =>
    rw [List.foldl_cons,List.foldl_cons,← hk hu hs key]
    exact ih (hu.cancelRun _ _) (hs.trans (cancelRun_swept hu _ _))

/-- The runs that are left are what a cascade along the awaited children leaves. -/
lemma cancelRun_runs (k : ℕ) (hu : Upright (anyRegime H) [] s') (hs : Swept H s s') (key : String) :
    (cancelRun H k s' key).runs = cascade s.awaitedBy k s'.runs key := by
  induction k generalizing s' key with
  | zero => rfl
  | succ k ih =>
    cases hn : s'.runs.lookup key with
    | none => simp only [cancelRun,cascade,hn]
    | some n =>
      have hheld := hu.holds_of_lookup hn
      have hone := Swept.one (H := H) hheld
      rw [(hu.runs hn).2] at hone
      simp only [cancelRun,cascade,hn]
      rw [hs.kept fun _ => hheld]
      exact foldl_cancelRun_runs (fun hu hs => ih hu hs) _ ((hu.erase key).cancelOne _) (hs.trans hone)

end Sweep

def Awaits (s : Handler) (p q : Party) : Prop :=
  s.Holds q ∧ (∃ n, q = .nested n) ∧ (s.host p).interpreter.state = .ready ∧
    ∃ m, ∃ f : Frame m, (s.host p).interpreter.root = some ⟨m,f⟩ ∧
      ∃ frame, (frame,some (s.host q).key) ∈ f.slots

/-- The cancellation of an interpreter cancels it and the runs that are awaited, at every depth, and
changes no other interpreter; a run without a parent is never among them. -/
structure CancelsExactly (H : HandlerSetup) (s : Handler) (p : Party) : Prop where
  self : s.Holds p → (s.host p).interpreter.state.isTerminal = false →
    ((s.cancel H p).host p).interpreter.state = .cancelled
  awaited : ∀ q, TransGen s.Awaits p q → ((s.cancel H p).host q).interpreter.state = .cancelled
  spared : ∀ q, q ≠ p → ¬ TransGen s.Awaits p q → (s.cancel H p).host q = s.host q
  attached : ∀ q, TransGen s.Awaits p q → (s.host q).parent ≠ none

lemma awaited_nested (h : TransGen s.Awaits p q) : s.Holds q ∧ ∃ n, q = .nested n := by
  cases h with
  | single h => exact ⟨h.1,h.2.1⟩
  | tail _ h => exact ⟨h.1,h.2.1⟩

section Exact
variable (hexact : ∀ p, WorkflowInterpreter.Exact (contextAccount (H.setup p (s.host p).key))
  (s.host p).interpreter)
include hexact

lemma mem_outstanding_iff {id : String} : id ∈ (s.host p).interpreter.outstanding ↔
    (s.host p).interpreter.state = .ready ∧ ∃ m, ∃ f : Frame m,
      (s.host p).interpreter.root = some ⟨m,f⟩ ∧ ∃ frame, (frame,some id) ∈ f.slots := by
  rw [WorkflowInterpreter.outstanding]
  cases hexact p with
  | spoiled h => exact h.elim
  | idle hstate howners => simp [hstate,State.isTerminal,howners]
  | ended hterminal =>
    rw [if_pos hterminal]
    refine iff_of_false List.not_mem_nil ?_
    rintro ⟨hready,-⟩
    simp [hready,State.isTerminal] at hterminal
  | ready hstate h =>
    obtain ⟨m,f,hroot,-,hagrees⟩ := h
    rw [if_neg (by simp [hstate,State.isTerminal]),← AList.mem_keys,mem_iff_lookup]
    constructor
    · rintro ⟨frame,hframe⟩
      exact ⟨hstate,m,f,hroot,frame,(hagrees.owns.routes.lookup id frame).mp hframe⟩
    · rintro ⟨-,m',f',hroot',frame,hframe⟩
      cases hroot.symm.trans hroot'
      exact ⟨frame,(hagrees.owns.routes.lookup id frame).mpr hframe⟩

lemma awaits_iff (hheld : s.Holds (.nested n)) :
    s.Awaits p (.nested n) ↔ (s.host (.nested n)).key ∈ (s.host p).interpreter.outstanding := by
  rw [mem_outstanding_iff hexact]
  exact ⟨fun h => h.2.2,fun h => ⟨hheld,⟨n,rfl⟩,h⟩⟩

lemma parent_of_awaits (hfresh : H.Fresh) (hu : Upright (anyRegime H) [] s) (hs : Sane H [] s)
    (h : s.Awaits p q) : (s.host q).parent = some p := by
  obtain ⟨hheld,⟨n,rfl⟩,hready,m,f,hroot,frame,hframe⟩ := h
  obtain ⟨k,hk⟩ := hs.parents (hu.runs hheld).1
  cases hexact p with
  | spoiled h => exact h.elim
  | idle hstate => cases hstate.symm.trans hready
  | ended hterminal => simp [hready,State.isTerminal] at hterminal
  | ready _ h =>
    obtain ⟨m',f',hroot',-,hagrees⟩ := h
    cases hroot.symm.trans hroot'
    have hlookup := (hagrees.owns.routes.lookup _ frame).mpr hframe
    obtain ⟨k',-,hk'⟩ := hagrees.owns.ids _ (mem_iff_lookup.mpr ⟨frame,hlookup⟩)
    exact (hfresh (hk.symm.trans hk')).1

lemma reached_iff (hu : Upright (anyRegime H) [] s) (hheld : s.Holds (.nested n)) :
    (∃ a ∈ (s.host p).interpreter.outstanding,
      ReflTransGen (Links s.awaitedBy s.runs) a (s.host (.nested n)).key) ↔
    TransGen s.Awaits p (.nested n) := by
  constructor
  · rintro ⟨a,ha,hpath⟩
    generalize hkey : (s.host (.nested n)).key = key at hpath
    induction hpath generalizing n with
    | refl => exact .single ((awaits_iff hexact hheld).mpr (hkey ▸ ha))
    | tail _ hlink ih =>
      obtain ⟨m,hm,hmem⟩ := hlink
      refine .tail (ih (hu.holds_of_lookup hm) (hu.runs hm).2) ((awaits_iff hexact hheld).mpr ?_)
      rw [hkey]
      exact hmem
  · intro hpath
    generalize hq : Party.nested n = q at hpath
    induction hpath generalizing n with
    | single h =>
      subst hq
      exact ⟨_,(awaits_iff hexact hheld).mp h,.refl⟩
    | tail _ h ih =>
      subst hq
      rename_i r hpath
      obtain ⟨hr,m,rfl⟩ := awaited_nested hpath
      obtain ⟨a,ha,hlinks⟩ := ih hr rfl
      exact ⟨a,ha,.tail hlinks ⟨m,hr,(awaits_iff hexact hheld).mp h⟩⟩

end Exact

section Cancel

/-- What is left of the runs and of the interpreters when one of these is cancelled. -/
structure Cascade (H : HandlerSetup) (s : Handler) (p : Party) (s' : Handler) (sources : List String) :
    Prop where
  runs : Cascaded s.awaitedBy s.runs s'.runs sources
  kept : ∀ {q}, q ≠ p → (s.Holds q → s'.Holds q) → s'.host q = s.host q
  gone : ∀ {q}, q ≠ p → s.Holds q → ¬ s'.Holds q → s'.host q = cancelled H q (s.host q)
  self : s'.host p = cancelled H p (s.host p)
  key : ∀ q, (s'.host q).key = (s.host q).key

lemma cancel_nested (hu : Upright (anyRegime H) [] s) (hheld : s.Holds (.nested n)) :
    Cascade H s (.nested n) (s.cancel H (.nested n)) [(s.host (.nested n)).key] := by
  have hswept := cancelRun_swept hu s.runs.keys.length (s.host (.nested n)).key
  have hruns : Cascaded s.awaitedBy s.runs
      (cascade s.awaitedBy s.runs.keys.length s.runs (s.host (.nested n)).key) [(s.host (.nested n)).key] :=
    cascade_cascaded le_rfl _
  rw [← cancelRun_runs s.runs.keys.length hu .refl] at hruns
  rw [cancel,if_pos hheld]
  refine ⟨hruns,fun _ => hswept.kept,fun _ => hswept.gone,hswept.gone hheld fun hheld' => ?_,hswept.key⟩
  rw [Holds,hswept.key] at hheld'
  exact hruns.sources _ List.mem_cons_self (mem_iff_lookup.mpr ⟨n,hheld'⟩)

lemma cancel_task (hu : Upright (anyRegime H) [] s) (k : ℕ) :
    Cascade H s (.task k) (s.cancel H (.task k)) (s.host (.task k)).interpreter.outstanding := by
  have hu₁ := hu.cancelOne (.task k)
  have hawaited : (s.cancelOne H (.task k)).awaitedBy = s.awaitedBy := by
    funext n
    rw [awaitedBy,cancelOne,put_host_ne (by simp)]
    rfl
  generalize hl : (s.host (.task k)).interpreter.outstanding = l
  have hruns : Cascaded s.awaitedBy s.runs (l.foldl (cascade s.awaitedBy s.runs.keys.length) s.runs) l :=
    .foldl (fun a hm => cascade_cascaded hm a) le_rfl l
  have hleft := foldl_cancelRun_runs (fun hu hs => cancelRun_runs s.runs.keys.length hu hs) l hu₁ .refl
  rw [hawaited] at hleft
  have hswept : Swept H (s.cancelOne H (.task k))
      (l.foldl (cancelRun H s.runs.keys.length) (s.cancelOne H (.task k))) := by
    refine (List.foldlRecOn _ _ (motive := fun s' => Upright (anyRegime H) [] s' ∧
      Swept H (s.cancelOne H (.task k)) s') ⟨hu₁,.refl⟩ ?_).2
    exact fun s' hs _ _ => ⟨hs.1.cancelRun _ _,hs.2.trans (cancelRun_swept hs.1 _ _)⟩
  rw [cancel,hl]
  refine ⟨?_,fun hq hheld => ?_,fun hq hheld hgone => ?_,?_,fun q => (hswept.key q).trans put_key⟩
  · rw [hleft]
    exact hruns
  · rw [hswept.kept fun h => hheld (put_holds.mp h)]
    exact put_host_ne hq
  · rw [hswept.gone (put_holds.mpr hheld) hgone,cancelOne,put_host_ne hq]
  · rw [hswept.kept (q := .task k) fun _ => trivial]
    exact put_host_self

lemma Cascade.gone_iff {sources : List String} (h : Cascade H s p s' sources) (hheld : s.Holds (.nested n)) :
    ¬ s'.Holds (.nested n) ↔
      ∃ a ∈ sources, ReflTransGen (Links s.awaitedBy s.runs) a (s.host (.nested n)).key := by
  rw [← h.runs.gone_iff (mem_iff_lookup.mpr ⟨n,hheld⟩),not_iff_not,Holds,h.key]
  refine ⟨fun hn => mem_iff_lookup.mpr ⟨n,hn⟩,fun hmem => ?_⟩
  rw [h.runs.lookup hmem]
  exact hheld

section Exact
variable (hexact : ∀ p, WorkflowInterpreter.Exact (contextAccount (H.setup p (s.host p).key))
  (s.host p).interpreter)
include hexact

/-- The cancellation goes where awaited runs lead. -/
lemma Cascade.exactly (hfresh : H.Fresh) (hu : Upright (anyRegime H) [] s) (hs : Sane H [] s)
    {sources : List String} (h : Cascade H s p (s.cancel H p) sources)
    (hsources : ∀ {n}, .nested n ≠ p → s.Holds (.nested n) → ((∃ a ∈ sources,
      ReflTransGen (Links s.awaitedBy s.runs) a (s.host (.nested n)).key) ↔ TransGen s.Awaits p (.nested n))) :
    CancelsExactly H s p where
  self _ hlive := by
    rw [h.self]
    exact HandlerSetup.called_cancel_state hlive p []
  awaited q hq := by
    obtain ⟨hheld,n,rfl⟩ := awaited_nested hq
    have hlive := (hs.held (hu.runs hheld).1 List.not_mem_nil).mp hheld
    have hhost : (s.cancel H p).host (.nested n) = cancelled H (.nested n) (s.host (.nested n)) := by
      by_cases hp : .nested n = p
      · exact hp ▸ h.self
      · exact h.gone hp hheld ((h.gone_iff hheld).mpr ((hsources hp hheld).mpr hq))
    rw [hhost]
    exact HandlerSetup.called_cancel_state hlive _ []
  spared q hqp hq := by
    refine h.kept hqp fun hheld => ?_
    cases q with
    | task k => trivial
    | nested n =>
      by_contra hgone
      exact hq ((hsources hqp hheld).mp ((h.gone_iff hheld).mp hgone))
  attached q hq := by
    have hlast : ∃ r, s.Awaits r q := by
      cases hq with
      | single h => exact ⟨p,h⟩
      | tail _ h => exact ⟨_,h⟩
    obtain ⟨r,hr⟩ := hlast
    simp [parent_of_awaits hexact hfresh hu hs hr]

theorem cancelsExactly_task (hfresh : H.Fresh) (hu : Upright (anyRegime H) [] s) (hs : Sane H [] s) (k : ℕ) :
    CancelsExactly H s (.task k) :=
  (cancel_task hu k).exactly hexact hfresh hu hs fun _ hheld => reached_iff hexact hu hheld

theorem cancelsExactly_held (hfresh : H.Fresh) (hu : Upright (anyRegime H) [] s) (hs : Sane H [] s)
    (hheld : s.Holds (.nested n)) : CancelsExactly H s (.nested n) := by
  refine (cancel_nested hu hheld).exactly hexact hfresh hu hs fun {m} hne hm => ?_
  rw [← reached_iff hexact hu hm]
  simp only [List.mem_singleton,exists_eq_left]
  constructor
  · intro hpath
    cases hpath.cases_head with
    | inl heq =>
      have hlookup : s.runs.lookup (s.host (.nested n)).key = some m := heq ▸ hm
      exact absurd (congrArg _ (Option.some.inj (hlookup.symm.trans hheld))) hne
    | inr h =>
      obtain ⟨b,⟨n',hn',hb⟩,hpath⟩ := h
      cases hheld.symm.trans hn'
      exact ⟨b,hb,hpath⟩
  · rintro ⟨b,hb,hpath⟩
    exact .head ⟨n,hheld,hb⟩ hpath

end Exact

theorem cancelsExactly_over (hs : Sane H [] s) (hn : n < s.started) (hgone : ¬ s.Holds (.nested n)) :
    CancelsExactly H s (.nested n) := by
  have hnone : ∀ {q}, ¬ s.Awaits (.nested n) q := by
    intro q h
    refine hgone ((hs.held hn List.not_mem_nil).mpr ?_)
    rw [h.2.2.1]
    rfl
  have hnever : ∀ q, ¬ TransGen s.Awaits (.nested n) q := by
    intro q h
    obtain ⟨_,h,-⟩ := TransGen.head'_iff.mp h
    exact hnone h
  refine ⟨fun hheld => absurd hheld hgone,fun q hq => absurd hq (hnever q),fun q _ _ => ?_,
    fun q hq => absurd hq (hnever q)⟩
  rw [cancel,if_neg hgone]

end Cancel

def Hosts (s : Handler) : Party → Prop
  | .task _ => True
  | .nested n => n < s.started

def Completed (s : Handler) (n : ℕ) : Prop :=
  ∃ result, .complete result ∈ (s.host (.nested n)).interpreter.world.log

lemma lookup_iff (hu : Upright (endedRegime H) [] s) (hs : Sane H [] s) (key : String) (n : ℕ) :
    s.runs.lookup key = some n ↔ n < s.started ∧ (s.host (.nested n)).key = key ∧ ¬ s.Completed n ∧
      (s.host (.nested n)).interpreter.state ≠ .cancelled := by
  constructor
  · intro hlookup
    obtain ⟨hn,hkey⟩ := hu.runs hlookup
    have hlive := (hs.held hn List.not_mem_nil).mp (by rw [Holds,hkey]; exact hlookup)
    refine ⟨hn,hkey,?_,fun hcancelled => by simp [hcancelled,State.isTerminal] at hlive⟩
    rintro ⟨result,hresult⟩
    exact ((hu.inv _).live hlive).calm.not_complete result hresult
  · rintro ⟨hn,rfl,hcompleted,hcancelled⟩
    refine (hs.held hn List.not_mem_nil).mpr ?_
    by_contra hterminal
    exact (hu.holds (.nested n) (by simpa using hterminal)).elim hcancelled hcompleted

/-- As long as no document declares `export`: between the stimuli the runner holds exactly the runs that
are neither completed nor cancelled, calls each run back at most once and no cancelled one, and the
cancellation of an interpreter cancels exactly the awaited runs below it. -/
theorem nested_lifecycle (H : HandlerSetup) (hfresh : H.Fresh) (plain : String → Prop)
    (hplain : PlainTexts H.parse plain) (stimuli : List Stimulus) (s : Handler) (h : Runs H stimuli s)
    (hstarts : ∀ k text input, .start k text input ∈ stimuli → plain text) :
    (∀ key n, s.runs.lookup key = some n ↔ n < s.started ∧ (s.host (.nested n)).key = key ∧
      ¬ s.Completed n ∧ (s.host (.nested n)).interpreter.state ≠ .cancelled) ∧
    s.doneParties.Nodup ∧ (∀ p ∈ s.doneParties, (s.host p).interpreter.state ≠ .cancelled) ∧
    ∀ p, s.Hosts p → CancelsExactly H s p := by
  have hs := h.sane hfresh
  have hu := h.upright (anyRegime H) fun _ _ _ _ => trivial
  have hended := h.upright (endedRegime H) fun _ _ _ _ => trivial
  have hexact := fun p => ((h.upright (plainRegime hfresh hplain) hstarts).holds p).1
  refine ⟨lookup_iff hended hs,hs.doneOnce,fun p hp => ?_,fun p hp => ?_⟩
  · rcases hs.done p hp with hbusy | ⟨n,rfl,-,-,hstate⟩
    · cases hbusy
    · exact hstate
  · cases p with
    | task k => exact cancelsExactly_task hexact hfresh hu hs k
    | nested n =>
      by_cases hheld : s.Holds (.nested n)
      · exact cancelsExactly_held hexact hfresh hu hs hheld
      · exact cancelsExactly_over hs hp hheld

lemma miniHandler_fresh (exports : Bool) : (miniHandler exports).Fresh := by
  have hcount : ∀ j j' {k k' : ℕ}, List.replicate j 'b' ++ List.replicate k 'c' =
      List.replicate j' 'b' ++ List.replicate k' 'c' → j = j' ∧ k = k' := by
    intro j j' k k' heq
    have hb := congrArg (List.count 'b') heq
    have hc := congrArg (List.count 'c') heq
    simp [List.count_replicate] at hb hc
    exact ⟨hb,hc⟩
  intro source source' k k' heq
  have hlist := congrArg String.toList heq
  rcases source with _ | j | j <;> rcases source' with _ | j' | j' <;>
    simp only [miniHandler,miniId,String.toList_ofList,List.cons_append,List.cons.injEq] at hlist
  all_goals first
    | exact absurd hlist.1 (by decide)
    | exact ⟨rfl,(hcount 0 0 hlist.2).2⟩
    | obtain ⟨rfl,rfl⟩ := hcount j j' hlist.2
      exact ⟨rfl,rfl⟩

lemma miniHandler_plain : PlainTexts (miniHandler false).parse fun _ => True := by
  intro text document _ hparse
  simp only [miniHandler] at hparse
  split at hparse <;> cases hparse <;>
    simp [NoExport,Embeds,EveryTask,miniNested,miniParent,miniCall,TaskBody.nested]

/-- The run that the fork waits for is cancelled with the task. -/
theorem nested_lifecycle_miniStarted : (miniStarted false).runs.lookup "t" = some 0 ∧
    (∀ key n, (miniStarted false).runs.lookup key = some n ↔ n < (miniStarted false).started ∧
      ((miniStarted false).host (.nested n)).key = key ∧ ¬ (miniStarted false).Completed n ∧
      ((miniStarted false).host (.nested n)).interpreter.state ≠ .cancelled) ∧
    (miniStarted false).doneParties.Nodup ∧
    (∀ p ∈ (miniStarted false).doneParties, ((miniStarted false).host p).interpreter.state ≠ .cancelled) ∧
    ∀ p, (miniStarted false).Hosts p → CancelsExactly (miniHandler false) (miniStarted false) p :=
  ⟨by decide +kernel,nested_lifecycle _ (miniHandler_fresh false) _ miniHandler_plain _ _
    (miniStarted_runs false) fun _ _ _ _ => trivial⟩

/-- The handler once the call of the fork has returned: the context is no longer empty, so the inner `do` is
skipped with the fork inside it, the outer one completes, and the last call is made. -/
def miniResumed : Handler :=
  (miniStarted true).put ((miniHandler true).called (.task 0) (.onChildOutcome "tc" ⟨"true","",.ok⟩)
    ((miniStarted true).host (.task 0)) [{}]) (.task 0)

lemma miniResumed_runs : Runs (miniHandler true)
    [.outcome (.task 0) "tc" ⟨"true","",.ok⟩,.start 0 "" ""] miniResumed := by
  have hserve : Does (miniHandler true) [.task 0] (miniStarted true)
      (.serve (.task 0) [(.submit "tcc",{})]) (miniStarted true) [] := .submit .delivered .served
  have hcall : Does (miniHandler true) [] (miniStarted true)
      (.call (.task 0) (.onChildOutcome "tc" ⟨"true","",.ok⟩)) _ [] :=
    .ongoing _ (by decide) trivial (by decide +kernel) (by decide +kernel) hserve
  exact .step (miniStarted_runs true) (.outcome hcall)

def waitingIds (s : Handler) (p : Party) : List String :=
  ((s.host p).interpreter.root.map (fun r => (Frame.slots r.2).filterMap Prod.snd)).getD []

lemma waitingIds_of_awaits (h : s.Awaits p q) : (s.host q).key ∈ s.waitingIds p := by
  obtain ⟨-,-,-,m,f,hroot,frame,hframe⟩ := h
  rw [waitingIds,hroot]
  exact List.mem_filterMap.mpr ⟨_,hframe,rfl⟩

/-- With `export`, the cancellation of the task also cancels a run that none of its frames waits for. -/
theorem miniResumed_not_exactly :
    Runs (miniHandler true) [.outcome (.task 0) "tc" ⟨"true","",.ok⟩,.start 0 "" ""] miniResumed ∧
    miniResumed.Holds (.nested 0) ∧ miniResumed.waitingIds (.task 0) = ["tcc"] ∧
    ((miniResumed.cancel (miniHandler true) (.task 0)).host (.nested 0)).interpreter.state = .cancelled ∧
    ¬ CancelsExactly (miniHandler true) miniResumed (.task 0) := by
  have hwaiting : miniResumed.waitingIds (.task 0) = ["tcc"] := by decide +kernel
  have hcancelled : ((miniResumed.cancel (miniHandler true) (.task 0)).host
      (.nested 0)).interpreter.state = .cancelled := by decide +kernel
  refine ⟨miniResumed_runs,by decide +kernel,hwaiting,hcancelled,fun hexactly => ?_⟩
  have hnever : ¬ TransGen miniResumed.Awaits (.task 0) (.nested 0) := by
    intro hpath
    obtain ⟨q,hfirst,-⟩ := TransGen.head'_iff.mp hpath
    have hmem := waitingIds_of_awaits hfirst
    obtain ⟨hheld,⟨n,rfl⟩,-⟩ := hfirst
    rw [hwaiting,List.mem_singleton] at hmem
    have hnone : miniResumed.runs.lookup "tcc" = none := by decide +kernel
    rw [Holds,hmem,hnone] at hheld
    cases hheld
  have hspared := hexactly.spared (.nested 0) (by simp) hnever
  rw [hspared] at hcancelled
  exact absurd hcancelled (by decide +kernel)

end Handler
end Strij.OpenWorkflow
