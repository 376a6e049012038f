import Strij.OpenWorkflow.Acts

/-! The lifecycle of a run, for every document and every sequence of calls: the log of the run obeys
the law below, and the status of its result says whether it could be completed. -/
namespace Strij.OpenWorkflow
open Strij.Wire (TaskStatus)

/-- What an event may follow. A result is final, the only one, and comes after no cancellation; no
child is asked for after the end; every transition satisfies the assertion of `setState`. -/
def Event.Lawful (before : List Event) : Event → Prop
  | .complete result => result.isFinal = true ∧ (∀ r, .complete r ∉ before) ∧
      ∀ old, .setState old .cancelled ∉ before
  | .submit _ _ | .startRun _ _ _ => ∀ old new, .setState old new ∈ before → new.isTerminal = false
  | .setState old new => old.allows new = true
  | _ => True

def LawfulLog : List Event → Prop
  | [] => True
  | e :: before => e.Lawful before ∧ LawfulLog before

def Event.quiet : Event → Bool
  | .complete _ | .concluded _ => false
  | .setState _ new => !new.isTerminal
  | _ => true

structure World.Calm (w : World) : Prop where
  lawful : LawfulLog w.log
  quiet : ∀ e ∈ w.log, e.quiet = true

namespace World.Calm
variable {w : World} {e : Event} {setup : Setup}

variable (h : w.Calm)
include h

lemma record (hlawful : e.Lawful w.log) (hquiet : e.quiet = true) : (w.record e).Calm :=
  ⟨⟨hlawful,h.lawful⟩,List.forall_mem_cons.mpr ⟨hquiet,h.quiet⟩⟩

lemma not_complete (r : TaskResult) : .complete r ∉ w.log :=
  fun hr => nomatch h.quiet _ hr

lemma not_concluded (v : StepDataValue) : .concluded v ∉ w.log :=
  fun hv => nomatch h.quiet _ hv

lemma not_terminal {old new : State} (hs : .setState old new ∈ w.log) : new.isTerminal = false := by
  simpa [Event.quiet] using h.quiet _ hs

lemma recordFrames (he : e.ofFrames = true) : (w.record e).Calm := by
  cases e <;> first | exact h.record trivial rfl | cases he

lemma recordAsk {id : Option String} (he : e.asksFor = some id) : (w.record e).Calm := by
  cases e with
  | submit => exact h.record (fun _ _ => h.not_terminal) rfl
  | startRun => exact h.record (fun _ _ => h.not_terminal) rfl
  | _ => cases he

lemma deliver (x : String × ChildOutcome) : (w.deliver x).Calm := by
  have h' : (w.record (.deliver x.1 x.2)).Calm := h.record trivial rfl
  rw [World.deliver]
  split
  · exact ⟨h'.lawful,h'.quiet⟩
  · exact h'

lemma converse : w.converse.2.Calm :=
  converse_keeps (fun _ _ h => ⟨h.lawful,h.quiet⟩) (fun _ x h => h.deliver x) h

lemma act {w' : World} (hact : Act setup w w') : w'.Calm := by
  cases hact with
  | record he => exact h.recordFrames he
  | ask owner he => exact recordAsk (w := w.register _ owner) ⟨h.lawful,h.quiet⟩ he
  | detach he => exact h.recordAsk he
  | converse => exact h.converse
  | _ => exact ⟨h.lawful,h.quiet⟩

lemma acts {w' : World} (hacts : Acts setup w w') : w'.Calm := by
  induction hacts with
  | refl => exact h
  | tail _ hact ih => exact ih.act hact

end World.Calm

namespace WorkflowInterpreter
variable (setup : Setup) {i : WorkflowInterpreter} {new : State}

/-- A result is OK exactly when the root frame completed or ended and the document's output could be
formed. -/
def Settled (i : WorkflowInterpreter) : Prop :=
  ∀ result, .complete result ∈ i.world.log → (result.status = .ok ↔
    ∃ value, .concluded value ∈ i.world.log ∧ ∃ output, i.documentResult setup value = .ok output)

structure Live (i : WorkflowInterpreter) : Prop where
  calm : i.world.Calm
  honest : ∀ root ∈ i.root, Frame.Honest root.1 root.2

structure Inv (i : WorkflowInterpreter) : Prop where
  lawful : LawfulLog i.world.log
  settled : Settled setup i
  live : i.state.isTerminal = false → i.Live

variable {setup}

lemma Live.inv (h : i.Live) : Inv setup i :=
  ⟨h.calm.lawful,fun _ hr => absurd hr (h.calm.not_complete _),fun _ => h⟩

lemma Live.setState (h : i.Live) (hallows : i.state.allows new = true)
    (hnew : new.isTerminal = false) : (i.setState new).Live :=
  ⟨h.calm.record hallows (by simp [Event.quiet,hnew]),h.honest⟩

lemma inv_complete {result : TaskResult} (hlawful : LawfulLog i.world.log)
    (hcomplete : ∀ r, .complete r ∉ i.world.log) (hcancel : ∀ old, .setState old .cancelled ∉ i.world.log)
    (hallows : i.state.allows new = true) (hterminal : new.isTerminal = true) (hnew : new ≠ .cancelled)
    (hfinal : result.isFinal = true) (hstatus : result.status = .ok ↔
      ∃ value, .concluded value ∈ i.world.log ∧ ∃ output, i.documentResult setup value = .ok output) :
    Inv setup ((i.setState new).complete result) where
  lawful := by
    refine ⟨⟨hfinal,?_,?_⟩,hallows,hlawful⟩
    · simpa [WorkflowInterpreter.setState,World.record] using hcomplete
    · simpa [WorkflowInterpreter.setState,World.record,hnew.symm] using hcancel
  settled := by
    intro r hr
    have hr : r = result := by
      simpa [complete,WorkflowInterpreter.setState,World.record,hcomplete] using hr
    subst hr
    have hsame : ∀ value, ((i.setState new).complete r).documentResult setup value =
      i.documentResult setup value := fun _ => rfl
    simp only [hsame]
    simpa [complete,WorkflowInterpreter.setState,World.record] using hstatus
  live h := by
    rw [show ((i.setState new).complete result).state = new from rfl,hterminal] at h
    cases h

lemma Live.fail (h : i.Live) {status : TaskStatus} (hstatus : status ≠ .ok) (step message : String)
    (hallows : i.state.allows .failed = true) : Inv setup (i.fail setup status step message) := by
  refine inv_complete h.calm.lawful h.calm.not_complete ?_ hallows rfl (by decide) rfl ?_
  · exact fun old hs => nomatch h.calm.not_terminal hs
  · simp [hstatus,h.calm.not_concluded]

lemma Live.finish (h : i.Live) (hstate : i.state = .advancing) (value : StepDataValue) :
    Inv setup (i.finish setup value) := by
  have hcomplete : ∀ r, .complete r ∉ Event.concluded value :: i.world.log := by
    simpa using h.calm.not_complete
  have hcancel : ∀ old, .setState old .cancelled ∉ Event.concluded value :: i.world.log := by
    simp only [List.mem_cons,reduceCtorEq,false_or]
    exact fun old hs => nomatch h.calm.not_terminal hs
  have hmem : ∀ v, .concluded v ∈ Event.concluded value :: i.world.log ↔ v = value := by
    simp [h.calm.not_concluded]
  rw [WorkflowInterpreter.finish]
  split
  · next output houtput =>
    refine inv_complete ⟨trivial,h.calm.lawful⟩ hcomplete hcancel ?_ rfl (by decide) rfl ?_
    · rw [show WorkflowInterpreter.state _ = i.state from rfl,hstate]
      rfl
    · simpa [World.record,hmem] using ⟨output,houtput⟩
  · next message hmessage =>
    refine inv_complete ⟨trivial,h.calm.lawful⟩ hcomplete hcancel ?_ rfl (by decide) rfl ?_
    · rw [show WorkflowInterpreter.state _ = i.state from rfl,hstate]
      rfl
    · refine ⟨by simp,?_⟩
      rintro ⟨v,hv,output,houtput⟩
      obtain rfl := (hmem v).mp hv
      cases hmessage.symm.trans houtput

inductive Driven (setup : Setup) (i : WorkflowInterpreter) : Prop
  | going (hstate : i.state = .advancing) (h : i.Live)
  | ended (hstate : i.state.isTerminal = true) (h : Inv setup i)

lemma Driven.inv (h : Driven setup i) : Inv setup i := by
  cases h with
  | going _ h => exact h.inv
  | ended _ h => exact h

lemma finish_isTerminal (i : WorkflowInterpreter) (value : StepDataValue) :
    (i.finish setup value).state.isTerminal = true := by
  rw [finish]
  split <;> rfl

lemma Live.terminalize (h : i.Live) (hstate : i.state = .advancing) {r : FrameResult}
    (hr : r.Fine ExecutionFailure.Honest) : Driven setup (i.terminalize setup r) := by
  cases r with
  | suspended => exact .going hstate h
  | completed value => exact .ended (finish_isTerminal _ _) (h.finish hstate value)
  | ended value => exact .ended (finish_isTerminal _ _) (h.finish hstate value)
  | failed failure => exact .ended rfl (h.fail hr _ _ (by rw [hstate]; rfl))

lemma Live.advanceRoot (h : i.Live) (hstate : i.state = .advancing) : Driven setup (i.advanceRoot setup) := by
  rw [WorkflowInterpreter.advanceRoot]
  split
  · exact .going hstate h
  next n f hroot =>
  obtain ⟨hresult,hframe,-⟩ := (frameOps_honest setup n).advance f i.world (h.honest _ hroot)
    (fun _ _ => trivial)
  apply Live.terminalize
  · refine ⟨h.calm.acts ((frameOps_bounded setup n).advance f i.world),?_⟩
    rintro _ ⟨⟩
    exact hframe
  · exact hstate
  · exact hresult

lemma Live.applyOutcome (h : i.Live) (id : String) (frame : FrameId) (outcome : ChildOutcome) :
    (i.applyOutcome setup id frame outcome).Live := by
  rw [WorkflowInterpreter.applyOutcome]
  split
  · exact h
  next n f hroot =>
  split
  · next r hr =>
    refine ⟨h.calm.acts ((frameOps_bounded setup n).applyOutcome _ _ f i.world r hr),?_⟩
    rintro _ ⟨⟩
    exact ((frameOps_honest setup n).applyOutcome _ _ f _ r (h.honest _ hroot) (fun _ _ => trivial) hr).1
  · exact ⟨h.calm.record trivial rfl,h.honest⟩

lemma applyOutcome_state (i : WorkflowInterpreter) (id : String) (frame : FrameId)
    (outcome : ChildOutcome) : (i.applyOutcome setup id frame outcome).state = i.state := by
  rw [WorkflowInterpreter.applyOutcome]
  split
  · rfl
  · split <;> rfl

lemma Live.drainOne (h : i.Live) (hstate : i.state = .advancing) (id : String)
    (outcome : ChildOutcome) : Driven setup (i.drainOne setup id outcome) := by
  rw [WorkflowInterpreter.drainOne]
  split
  · exact .going hstate ⟨⟨h.calm.lawful,h.calm.quiet⟩,h.honest⟩
  · apply Live.advanceRoot
    · apply Live.applyOutcome
      exact ⟨⟨h.calm.lawful,h.calm.quiet⟩,h.honest⟩
    · rw [applyOutcome_state]
      exact hstate

lemma Driven.drain (h : Driven setup i) (k : ℕ) : Driven setup (drain setup k i) := by
  refine drain_keeps (fun i id outcome h hrunning _ => ?_) h k
  cases h with
  | going hstate h => exact h.drainOne hstate id outcome
  | ended hterminal => exact absurd hterminal (by simp [hrunning])

lemma Live.drive (h : i.Live) : Inv setup (i.drive setup) := by
  rw [WorkflowInterpreter.drive]
  split
  · next hready =>
    have hadvanced : Driven setup ((i.setState .advancing).advanceRoot setup) :=
      (h.setState (by rw [hready]; rfl) rfl).advanceRoot rfl
    have hdriven := hadvanced.drain (workLeft ((i.setState .advancing).advanceRoot setup).world)
    dsimp only
    split
    · exact hdriven.inv
    · next hrunning =>
      cases hdriven with
      | going hstate h => exact (h.setState (by rw [hstate]; rfl) rfl).inv
      | ended hterminal => exact absurd hterminal hrunning
  · exact h.inv

lemma Live.startDocument (h : i.Live) (hidle : i.state = .idle) {n : ℕ} (document : Document n)
    (invocationInput : String) : Inv setup (i.startDocument setup document invocationInput) := by
  have hallows : i.state.allows .failed = true := by
    rw [hidle]
    rfl
  have h' : ({ i with documentOutput := document.output.bind Output.as_ } : WorkflowInterpreter).Live :=
    ⟨h.calm,h.honest⟩
  rw [WorkflowInterpreter.startDocument]
  split
  · exact h'.fail (by decide) _ _ hallows
  split
  · next failure hfailure =>
    exact h'.fail (validateDocument_refuses _ _ document failure hfailure) _ _ hallows
  split
  · exact h'.fail (by decide) _ _ hallows
  · apply Live.drive
    apply Live.setState
    · refine ⟨⟨h.calm.lawful,h.calm.quiet⟩,?_⟩
      rintro _ ⟨⟩
      exact (frameOps_honest setup n).fresh _ trivial rfl rfl rfl
    · rw [show WorkflowInterpreter.state _ = i.state from rfl,hidle]
      rfl
    · rfl

variable (h : Inv setup i)
include h

lemma Inv.start (documentText invocationInput : String) :
    Inv setup (i.start setup documentText invocationInput) := by
  rw [WorkflowInterpreter.start]
  split
  · exact h
  next hidle =>
  have hidle : i.state = .idle := by simpa using hidle
  have hlive := h.live (by rw [hidle]; rfl)
  split
  · exact hlive.fail (by decide) _ _ (by rw [hidle]; rfl)
  · exact hlive.startDocument hidle _ _

lemma Inv.record {id : String} {outcome : ChildOutcome} :
    Inv setup { i with world := i.world.record (.deliver id outcome) } where
  lawful := ⟨trivial,h.lawful⟩
  settled := by
    have hsettled := h.settled
    simpa [Settled,World.record,documentResult] using hsettled
  live hrunning := ⟨(h.live hrunning).calm.record trivial rfl,(h.live hrunning).honest⟩

lemma Inv.onChildOutcome (id : String) (outcome : ChildOutcome) :
    Inv setup (i.onChildOutcome setup id outcome) := by
  have h' : Inv setup { i with world := i.world.record (.deliver id outcome) } := h.record
  simp only [WorkflowInterpreter.onChildOutcome]
  split
  · exact h'
  next hrunning =>
  have hlive := h'.live (by simpa using hrunning)
  split
  · exact h'
  split
  · exact Live.inv ⟨⟨hlive.calm.lawful,hlive.calm.quiet⟩,hlive.honest⟩
  · apply Live.drive
    apply Live.applyOutcome
    exact ⟨⟨hlive.calm.lawful,hlive.calm.quiet⟩,hlive.honest⟩

omit h in
lemma cancelRuns_lawful {w : World} (hlawful : LawfulLog w.log) (hcomplete : ∀ r, .complete r ∉ w.log) :
    LawfulLog (cancelRuns setup w).log ∧ ∀ r, .complete r ∉ (cancelRuns setup w).log :=
  cancelRuns_keeps (P := fun w => LawfulLog w.log ∧ ∀ r, .complete r ∉ w.log)
    (fun _ _ h => ⟨⟨trivial,h.1⟩,by simpa [World.record] using h.2⟩) ⟨hlawful,hcomplete⟩

lemma Inv.cancel : Inv setup (i.cancel setup) := by
  rw [WorkflowInterpreter.cancel]
  split
  · exact h
  next hrunning =>
  have hlive := h.live (by simpa using hrunning)
  have hlawful : LawfulLog (i.setState .cancelled).world.log :=
    ⟨by cases hs : i.state <;> simp_all [Event.Lawful,State.allows,State.isTerminal],h.lawful⟩
  have hcomplete : ∀ r, .complete r ∉ (i.setState .cancelled).world.log := by
    simpa [setState,World.record] using hlive.calm.not_complete
  obtain ⟨hlawful,hcomplete⟩ := cancelRuns_lawful hlawful hcomplete
  refine ⟨hlawful,fun r hr => absurd hr (hcomplete r),?_⟩
  rintro ⟨⟩

lemma Inv.step (call : Call) : Inv setup (i.step setup call) := by
  cases call with
  | start documentText invocationInput => exact h.start _ _
  | onChildOutcome id outcome => exact h.onChildOutcome _ _
  | cancel => exact h.cancel

lemma Inv.run (calls : List Call) : Inv setup (i.run setup calls) := by
  induction calls generalizing i with
  | nil => exact h
  | cons call calls ih => exact ih (h.step call)

omit h

lemma create_inv (script : List Reply) : Inv setup (create script) :=
  Live.inv ⟨⟨trivial,by simp [create]⟩,by simp [create]⟩

end WorkflowInterpreter

section Miniature

def miniLib : Libjq where
  jvParse text :=
    if text = "null" then some .null
    else if text = "true" then some (.bool true)
    else if text = "false" then some (.bool false)
    else none
  jvDump
    | .null => "null"
    | .bool true => "true"
    | .bool false => "false"
    | _ => ""
  literalValue _ := ⟨0⟩
  showDouble _ := ""

def miniEvaluator : Evaluator where
  compile _ _ := .ok ()
  run program _ subject args :=
    if program = "." then .ok [subject]
    else if program = "$context == \x7b\x7d" then .ok [.bool (args.head? matches some (.object []))]
    else .error "cannot evaluate"

def miniSetup {n : ℕ} (document : Document n) : Setup where
  engine := ⟨miniLib,miniEvaluator⟩
  parse _ := .ok ⟨n,document⟩
  freshId k := String.ofList (List.replicate k 'c')
  parentId := "w"

lemma miniSetup_fresh {n : ℕ} (document : Document n) : Function.Injective (miniSetup document).freshId := by
  intro a b h
  simpa [miniSetup] using congrArg String.length h

def miniCall (name : String) : NamedTask (Body 1) :=
  ⟨name,{ body := .call ⟨"strij",.object [("type",.string "echo")]⟩ }⟩

end Miniature

def Event.isConcluded : Event → Bool
  | .concluded _ => true
  | _ => false

def Event.result? : Event → Option TaskResult
  | .complete result => some result
  | _ => none

def brokenOutput : Document 1 where
  do_ := [⟨"s",{ body := .set ⟨.inr .null⟩ }⟩]
  output := some ⟨some (.inl "$\x7b boom \x7d")⟩

end Strij.OpenWorkflow
