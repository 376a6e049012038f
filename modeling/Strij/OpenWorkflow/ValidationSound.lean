import Strij.OpenWorkflow.Upkeep

/-! Runs of accepted documents: the frames come to none of the branches that validation rules out, and every
document that they start is accepted with one level of embedding less. -/
namespace Strij.OpenWorkflow
open Strij.Lib (bind_eq_ok seq_eq_ok forM_eq_ok)

section Checks
variable {engine : ExpressionEngine} {parse : Parser} {β : Type} {setup : ValidationSetup}
  {validateNested : Bool → List String → List (NamedTask β) → Except Failure Unit}
  {scope locals : List String} {name : String} {inside : Bool}

lemma malformed_eq_ok {α : Type} {step : String} {x : Except String α} {a : α} :
    malformed step x = .ok a ↔ x = .ok a := by
  cases x <;> simp [malformed]

lemma malformedFlowDirective_eq_ok {then_ : String} :
    malformedFlowDirective scope then_ name = .ok () ↔ ∃ d, resolveFlowDirective scope then_ = .ok d := by
  rw [malformedFlowDirective]
  cases resolveFlowDirective scope then_ <;> simp [malformed]

lemma validateTargets_eq_ok {cases : List NamedCase} : validateTargets scope name cases = .ok () ↔
      ∀ c ∈ cases, ∃ d, resolveFlowDirective scope (c.then_.getD "") = .ok d := by
  induction cases with
  | nil => simp [validateTargets]
  | cons c rest ih =>
    rw [validateTargets,seq_eq_ok,malformedFlowDirective_eq_ok,ih,List.forall_mem_cons]

lemma validateSwitchBody_targets {body : SwitchBody}
    (h : validateSwitchBody engine locals scope name body = .ok ()) :
    ∀ c ∈ body.cases, ∃ d, resolveFlowDirective scope (c.then_.getD "") = .ok d := by
  obtain ⟨-,h⟩ := seq_eq_ok.mp h
  obtain ⟨-,h⟩ := seq_eq_ok.mp h
  split at h
  · obtain ⟨⟨⟩,-⟩ := seq_eq_ok.mp h
  · exact validateTargets_eq_ok.mp h

lemma validateForBody_eq_ok {validateNested : List String → List (NamedTask β) → Except Failure Unit}
    {body : ForBody (NamedTask β)} : validateForBody engine validateNested locals name body = .ok () ↔
      validateForBody engine (fun _ (_ : List (NamedTask β)) => .ok ()) locals name body = .ok () ∧
      ∃ names, normalizeLoopVariables body.for_.each body.for_.at_ = .ok names ∧
        validateNested (locals ++ [names.each,names.at_]) body.do_ = .ok () := by
  simp only [validateForBody]
  cases normalizeLoopVariables body.for_.each body.for_.at_ with
  | error message => simp [malformed,bind,Except.bind]
  | ok names =>
    simp only [bind_eq_ok (x := malformed name (.ok names)),malformed_eq_ok,Except.ok.injEq,exists_eq_left']
    split
    · simp only [seq_eq_ok,and_true,and_assoc]
    · split <;> simp only [seq_eq_ok,and_true,and_assoc]

lemma parseEmbeddedDefinition_eq_ok {definition : String} {document : AnyDocument} :
    parseEmbeddedDefinition parse definition = .ok document ↔
      parse definition = .ok document ∧ validateEvaluateMode document.2 = .ok () := by
  rw [parseEmbeddedDefinition]
  cases parse definition with
  | error message => simp
  | ok found =>
    simp only [Except.ok.injEq]
    constructor
    · intro h
      split at h <;> cases h
      exact ⟨rfl,‹_›⟩
    · rintro ⟨rfl,hmode⟩
      rw [hmode]

lemma validateRunBody_eq_ok {validateChild : Option (AnyDocument → Except Failure Unit)} {body : RunBody} :
    validateRunBody parse validateChild name body = .ok () ↔ ∃ embedded validate document,
      extractEmbeddedWorkflow body = .ok embedded ∧ validateChild = some validate ∧
      parseEmbeddedDefinition parse embedded.definition = .ok document ∧ validate document = .ok () := by
  constructor
  · intro h
    rw [validateRunBody] at h
    split at h
    · cases h
    · cases h
    next embedded hextract =>
    split at h
    · cases h
    next validate =>
    split at h
    · cases h
    next document hparse =>
    split at h
    · next hvalid => exact ⟨embedded,validate,document,hextract,rfl,hparse,hvalid⟩
    · cases h
  · rintro ⟨embedded,validate,document,hextract,rfl,hparse,hvalid⟩
    simp only [validateRunBody,hextract,hparse,hvalid]

lemma validateTask_eq_ok {named : NamedTask (TaskBody (NamedTask β))} :
    validateTask setup validateNested scope inside locals named = .ok () ↔
      (inside = true → named.task.export_ = none) ∧ validateTaskSlots setup.engine locals named = .ok () ∧
      (∀ then_ ∈ named.task.then_, ∃ d, resolveFlowDirective scope then_ = .ok d) ∧
      validateTaskBody setup validateNested scope inside locals named.name named.task.body = .ok () := by
  rw [validateTask]
  cases inside <;> cases named.task.export_ <;> cases named.task.then_ <;>
    simp [seq_eq_ok,malformedFlowDirective_eq_ok,reject]

lemma validateSequence_eq_ok {n : ℕ} {tasks : Tasks (n+1)} :
    validateSequence setup (n+1) inside locals tasks = .ok () ↔ validateNames [] tasks = .ok () ∧
      ∀ t ∈ tasks, validateTask setup (validateSequence setup n) (tasks.map NamedTask.name) inside locals t =
        .ok () := by
  rw [validateSequence,seq_eq_ok]
  exact and_congr_right fun _ => forM_eq_ok

end Checks

section Levels
variable (engine : ExpressionEngine) (parse : Parser) {document : AnyDocument}

/-- The validation of the documents that are embedded in one with `k` levels of embedding below it. -/
def childValidator : ℕ → Option (AnyDocument → Except Failure Unit)
  | 0 => none
  | k+1 => some (validateDocumentAt engine parse k)

/-- The text is a document that is accepted with `k` levels of embedding below it. -/
def Accepted (k : ℕ) (definition : String) : Prop :=
  ∃ document, parse definition = .ok document ∧ validateEvaluateMode document.2 = .ok () ∧
    validateDocumentAt engine parse k document = .ok ()

/-- The tasks were accepted as a sequence, with `k` levels of embedding below their document. -/
def ValidSequence (k n : ℕ) (tasks : Tasks n) : Prop :=
  ∃ setup inside locals, setup.validateRun = validateRunBody parse (childValidator engine parse k) ∧
    validateSequence setup n inside locals tasks = .ok ()

/-- What may happen in the run of such a document: no defect, and nested runs of accepted documents. -/
def Event.Sound (k : ℕ) : Event → Prop
  | .defect _ => False
  | .startRun _ definition _ => ∃ m, k = m+1 ∧ Accepted engine parse m definition
  | _ => True

variable {engine parse}

lemma validateDocumentAt_eq_ok {k : ℕ} : validateDocumentAt engine parse k document = .ok () ↔
      validateOptional engine [] "" (document.2.input.bind Input.from_) .inputFrom = .ok () ∧
      validateOptional engine [] "" (document.2.output.bind Output.as_) .documentOutput = .ok () ∧
      validateSequence ⟨engine,validateRunBody parse (childValidator engine parse k),document.1,document.2⟩
        document.1 false [] document.2.do_ = .ok () := by
  obtain ⟨n,document⟩ := document
  cases k <;> rw [validateDocumentAt] <;> simp only [seq_eq_ok,childValidator]

section Descent
variable {k n : ℕ} {steps : List (NamedTask (TaskBody (NamedTask (Body n))))}
  {step : NamedTask (TaskBody (NamedTask (Body n)))}

variable (h : ValidSequence engine parse k (n+1) steps)
include h

variable (hstep : step ∈ steps)
include hstep

lemma ValidSequence.task :
    ∃ setup inside locals, setup.validateRun = validateRunBody parse (childValidator engine parse k) ∧
      (∀ then_ ∈ step.task.then_, ∃ d, resolveFlowDirective (steps.map NamedTask.name) then_ = .ok d) ∧
      validateTaskBody setup (validateSequence setup n) (steps.map NamedTask.name) inside locals step.name
        step.task.body = .ok () := by
  obtain ⟨setup,inside,locals,hrun,h⟩ := h
  have htask := (validateSequence_eq_ok.mp h).2 step hstep
  obtain ⟨-,-,hthen,hbody⟩ := validateTask_eq_ok.mp htask
  exact ⟨setup,inside,locals,hrun,hthen,hbody⟩

lemma ValidSequence.directs {then_ : String} (hthen : (Terms.of step).directs then_) :
    ∃ d, resolveFlowDirective (steps.map NamedTask.name) then_ = .ok d := by
  obtain ⟨setup,inside,locals,-,hresolves,hbody⟩ := h.task hstep
  rcases hthen with rfl | ⟨body,hswitch,c,hc,hcase⟩
  · rw [stepThen]
    cases hthen : step.task.then_ with
    | none => exact ⟨.continue_,by simp [resolveFlowDirective]⟩
    | some then_ => exact hresolves then_ hthen
  · rw [hswitch] at hbody
    simpa [hcase] using validateSwitchBody_targets hbody c hc

omit hstep in
omit h in
lemma validateRun_accepted {setup : ValidationSetup} {name : String} {body : RunBody}
    (hrun : setup.validateRun = validateRunBody parse (childValidator engine parse k))
    (h : setup.validateRun name body = .ok ()) : ∃ embedded m, extractEmbeddedWorkflow body = .ok embedded ∧
      k = m+1 ∧ Accepted engine parse m embedded.definition := by
  rw [hrun] at h
  obtain ⟨embedded,validate,document,hextract,hchild,hparse,hvalid⟩ := validateRunBody_eq_ok.mp h
  cases k with
  | zero => cases hchild
  | succ m =>
    cases hchild
    obtain ⟨hparse,hmode⟩ := parseEmbeddedDefinition_eq_ok.mp hparse
    exact ⟨embedded,m,hextract,rfl,document,hparse,hmode,hvalid⟩

lemma ValidSequence.terms :
    (Terms.of step).Allowed (Event.Sound engine parse k) (steps.map NamedTask.name) := by
  obtain ⟨setup,inside,locals,hrun,-,hbody⟩ := h.task hstep
  constructor
  · intro then_ message hthen hresolve
    obtain ⟨d,hd⟩ := h.directs hstep hthen
    cases hd.symm.trans hresolve
  · intro id e hasks
    simp only [Terms.of] at hasks
    split at hasks
    · obtain ⟨id',child,-,rfl⟩ := hasks
      trivial
    · next body hrunBody =>
      obtain ⟨embedded,input,hextract,rfl⟩ := hasks
      rw [hrunBody] at hbody
      obtain ⟨embedded',m,hextract',hk,haccepted⟩ := validateRun_accepted hrun hbody
      cases hextract'.symm.trans hextract
      exact ⟨m,hk,haccepted⟩
    · exact hasks.elim
  · intro d hdefect
    simp only [Terms.of] at hdefect
    split at hdefect
    · next body hrunBody =>
      obtain ⟨-,e,hextract⟩ := hdefect
      rw [hrunBody] at hbody
      obtain ⟨embedded,m,hextract',-⟩ := validateRun_accepted hrun hbody
      cases hextract'.symm.trans hextract
    all_goals first | exact hdefect.elim | (next hkind => rw [hkind] at hbody; cases hbody)

lemma ValidSequence.loops : Container.misnamesLoop step.task.body = false := by
  obtain ⟨setup,inside,locals,-,-,hbody⟩ := h.task hstep
  cases hkind : step.task.body with
  | for_ body =>
    rw [hkind] at hbody
    obtain ⟨-,names,hnames,-⟩ := validateForBody_eq_ok.mp hbody
    rw [Container.misnamesLoop,hnames]
    rfl
  | _ => rfl

lemma ValidSequence.nested
    {l : Tasks n} (hl : l ∈ step.task.body.sequences) : ValidSequence engine parse k n l := by
  obtain ⟨setup,inside,locals,hrun,-,hbody⟩ := h.task hstep
  cases hkind : step.task.body <;> rw [hkind] at hbody hl
  case do_ tasks =>
    obtain rfl := List.mem_singleton.mp hl
    exact ⟨setup,inside,locals,hrun,hbody⟩
  case for_ body =>
    obtain rfl := List.mem_singleton.mp hl
    obtain ⟨-,names,-,hnested⟩ := validateForBody_eq_ok.mp hbody
    exact ⟨setup,inside,_,hrun,hnested⟩
  case fork body =>
    rw [validateTaskBody] at hbody
    obtain ⟨branch,hbranch,rfl⟩ := List.mem_map.mp hl
    split at hbody
    · cases hbody
    · exact ⟨setup,true,locals,hrun,forM_eq_ok.mp hbody branch hbranch⟩
  all_goals cases hl

omit hstep

omit h

theorem validSequence_descends (k n : ℕ) : Descends (Event.Sound engine parse k)
    (ValidSequence engine parse k (n+1)) (ValidSequence engine parse k n) where
  terms h hstep := h.terms hstep
  loops h hstep hloop := nomatch (h.loops hstep).symm.trans hloop
  nested h hstep _ hl := h.nested hstep hl

end Descent

section Monotone
variable {setup : ValidationSetup} {run : String → RunBody → Except Failure Unit}
  (hrun : ∀ name body, setup.validateRun name body = .ok () → run name body = .ok ()) {locals : List String}
include hrun

lemma validateTaskBody_mono {β : Type}
    {nested nested' : Bool → List String → List (NamedTask β) → Except Failure Unit}
    (hnested : ∀ inside locals tasks, nested inside locals tasks = .ok () →
      nested' inside locals tasks = .ok ())
    {scope : List String} {inside : Bool} {name : String} {body : TaskBody (NamedTask β)}
    (h : validateTaskBody setup nested scope inside locals name body = .ok ()) :
    validateTaskBody { setup with validateRun := run } nested' scope inside locals name body = .ok () := by
  cases body with
  | do_ tasks => exact hnested _ _ _ h
  | fork body =>
    rw [validateTaskBody] at h ⊢
    split at h
    · cases h
    next hcompete =>
    rw [if_neg hcompete]
    exact forM_eq_ok.mpr fun branch hbranch => hnested _ _ _ (forM_eq_ok.mp h branch hbranch)
  | for_ body =>
    obtain ⟨hloop,names,hnames,h⟩ := validateForBody_eq_ok.mp h
    exact validateForBody_eq_ok.mpr ⟨hloop,names,hnames,hnested _ _ _ h⟩
  | run body => exact hrun _ _ h
  | _ => exact h

lemma validateSequence_mono {n : ℕ} {inside : Bool} {tasks : Tasks n}
    (h : validateSequence setup n inside locals tasks = .ok ()) :
    validateSequence { setup with validateRun := run } n inside locals tasks = .ok () := by
  induction n generalizing inside locals with
  | zero => exact h
  | succ n ih =>
    obtain ⟨hnames,h⟩ := validateSequence_eq_ok.mp h
    refine validateSequence_eq_ok.mpr ⟨hnames,fun t ht => ?_⟩
    obtain ⟨hexport,hslots,hthen,hbody⟩ := validateTask_eq_ok.mp (h t ht)
    exact validateTask_eq_ok.mpr ⟨hexport,hslots,hthen,
      validateTaskBody_mono hrun (fun _ _ _ hnested => ih hnested) hbody⟩

end Monotone

lemma validateDocumentAt_succ {k : ℕ} (h : validateDocumentAt engine parse k document = .ok ()) :
    validateDocumentAt engine parse (k+1) document = .ok () := by
  induction k generalizing document with
  | zero =>
    obtain ⟨hinput,houtput,h⟩ := validateDocumentAt_eq_ok.mp h
    refine validateDocumentAt_eq_ok.mpr ⟨hinput,houtput,validateSequence_mono ?_ h⟩
    intro name body hbody
    dsimp only at hbody
    obtain ⟨_,_,_,-,hnone,-⟩ := validateRunBody_eq_ok.mp hbody
    cases hnone
  | succ k ih =>
    obtain ⟨hinput,houtput,h⟩ := validateDocumentAt_eq_ok.mp h
    refine validateDocumentAt_eq_ok.mpr ⟨hinput,houtput,validateSequence_mono ?_ h⟩
    intro name body hbody
    dsimp only at hbody
    obtain ⟨embedded,_,child,hextract,⟨⟩,hparse,hvalid⟩ := validateRunBody_eq_ok.mp hbody
    exact validateRunBody_eq_ok.mpr ⟨embedded,_,child,hextract,rfl,hparse,ih hvalid⟩

lemma validateDocumentAt_mono {k m : ℕ} (hk : k ≤ m)
    (h : validateDocumentAt engine parse k document = .ok ()) :
    validateDocumentAt engine parse m document = .ok () := by
  induction hk with
  | refl => exact h
  | step _ ih => exact validateDocumentAt_succ ih

end Levels

namespace WorkflowInterpreter
variable (setup : Setup) (k : ℕ)

def SoundTree (root : Option (Σ n, Frame n)) (w : World) : Prop :=
  (∀ r ∈ root, Frame.Orderly (ValidSequence setup.engine setup.parse k) True r.1 r.2) ∧
    w.Clean (Event.Sound setup.engine setup.parse k)

lemma sound_other (e : Event) (hasks : e.asksFor = none) (hdefect : e.isDefect = false) :
    Event.Sound setup.engine setup.parse k e := by
  cases e <;> trivial

theorem sound_maintained : Maintained setup (SoundTree setup k) :=
  orderly_maintained setup (sound_other setup k) (validSequence_descends k)

variable {setup k}

lemma sound_roots {text : String} (htext : ∀ document : AnyDocument, setup.parse text = .ok document →
    validateDocument setup.engine setup.parse document.2 = .ok () →
      validateDocumentAt setup.engine setup.parse k document = .ok ()) :
    Roots setup (SoundTree setup k) text := by
  refine orderly_roots setup (sound_other setup k) (validSequence_descends k) fun document hparse hvalid => ?_
  obtain ⟨-,-,hsequence⟩ := validateDocumentAt_eq_ok.mp (htext document hparse hvalid)
  exact ⟨_,_,_,rfl,hsequence⟩

end WorkflowInterpreter
end Strij.OpenWorkflow
