import Strij.OpenWorkflow.Calls

/-! Workflows without `fork` call one child at a time: at every call, the outcomes of all earlier calls have
been delivered. -/
namespace Strij.OpenWorkflow
variable {log : List Event}

def Answered (log : List Event) (id : String) : Prop := ∃ outcome, .deliver id outcome ∈ log

/-- At every call, the children of all earlier calls were answered. -/
def SerialLog : List Event → Prop
  | [] => True
  | e :: before => SerialLog before ∧ ∀ id child, e = .submit id child →
      ∀ id' child', .submit id' child' ∈ before → Answered before id'

lemma Answered.cons {id : String} (h : Answered log id) (e : Event) : Answered (e :: log) id :=
  h.imp fun _ h => List.mem_cons_of_mem _ h

lemma SerialLog.answered (h : SerialLog log) {id id' : String} {child child' : ChildTask}
    (hid : .submit id child ∈ log) (hid' : .submit id' child' ∈ log) (hne : id ≠ id') :
    Answered log id ∨ Answered log id' := by
  induction log with
  | nil => cases hid
  | cons e before ih =>
    rcases List.mem_cons.mp hid with rfl | hbefore
    · rcases List.mem_cons.mp hid' with heq | hbefore'
      · cases heq
        exact absurd rfl hne
      · exact .inr ((h.2 _ _ rfl _ _ hbefore').cons _)
    · rcases List.mem_cons.mp hid' with rfl | hbefore'
      · exact .inl ((h.2 _ _ rfl _ _ hbefore).cons _)
      · exact (ih h.1 hbefore hbefore').imp (·.cons _) (·.cons _)

def Event.isSubmit : Event → Bool
  | .submit _ _ => true
  | _ => false

lemma Event.isSubmit_of_asksFor {e : Event} (h : e.asksFor = none ∨ e.asksFor = some none) : e.isSubmit = false := by
  cases e with
  | submit id child => rcases h with h | h <;> cases h
  | _ => rfl

namespace World

/-- Calls are made one at a time: a child that was not answered is the only one with a route. -/
structure Serial (w : World) : Prop where
  log : SerialLog w.log
  queued : ∀ id ∈ w.pending, Answered w.log id
  awaited : ∀ id child, .submit id child ∈ w.log → Answered w.log id ∨ id ∈ w.owners
  single : ∀ id ∈ w.owners, ∀ id' ∈ w.owners, id = id'

structure Rested (w : World) : Prop extends w.Serial where
  idle : ∀ id, id ∉ w.owners

variable {w w' : World}

namespace Serial

lemma same (h : w.Serial) (hlog : w'.log = w.log) (hpending : w'.pending = w.pending)
    (howners : w'.owners = w.owners) : w'.Serial where
  log := hlog ▸ h.log
  queued := by rw [hlog,hpending]; exact h.queued
  awaited := by rw [hlog,howners]; exact h.awaited
  single := by rw [howners]; exact h.single

lemma record (h : w.Serial) {e : Event} (he : e.isSubmit = false) : (w.record e).Serial where
  log := by
    refine ⟨h.log,?_⟩
    rintro id child rfl
    cases he
  queued id hid := (h.queued id hid).cons e
  awaited id child hmem := by
    rcases List.mem_cons.mp hmem with rfl | hmem
    · cases he
    · exact (h.awaited id child hmem).imp_left (Answered.cons · e)
  single := h.single

lemma deliver (h : w.Serial) (x : String × ChildOutcome) : (w.deliver x).Serial := by
  have hrecord : (w.record (.deliver x.1 x.2)).Serial := h.record rfl
  rw [World.deliver]
  split
  · refine ⟨hrecord.log,fun id hid => ?_,hrecord.awaited,hrecord.single⟩
    rcases (AList.mem_insert _).mp hid with rfl | hid
    · exact ⟨x.2,List.mem_cons_self⟩
    · exact hrecord.queued id hid
  · exact hrecord

lemma converse (h : w.Serial) : w.converse.2.Serial :=
  converse_keeps (fun _ _ h => h.same rfl rfl rfl) (fun _ x h => h.deliver x) h

end Serial

lemma converse_owners (w : World) : w.converse.2.owners = w.owners := by
  refine converse_keeps (P := fun w' => w'.owners = w.owners) (fun _ _ h => h) (fun w' x h => ?_) rfl
  rw [World.deliver]
  split <;> exact h

namespace Rested
variable {id : String}

variable (h : w.Rested)
include h

lemma same (hlog : w'.log = w.log) (hpending : w'.pending = w.pending)
    (howners : w'.owners = w.owners) : w'.Rested :=
  ⟨h.toSerial.same hlog hpending howners,by rw [howners]; exact h.idle⟩

lemma record {e : Event} (he : e.isSubmit = false) : (w.record e).Rested :=
  ⟨h.toSerial.record he,h.idle⟩

lemma converse : w.converse.2.Rested :=
  ⟨h.toSerial.converse,by rw [converse_owners]; exact h.idle⟩

lemma answered {child : ChildTask} (hmem : .submit id child ∈ w.log) : Answered w.log id :=
  (h.awaited id child hmem).resolve_right (h.idle id)

lemma ask {e : Event} (he : e.asksFor = some (some id)) (owner : FrameId) :
    ((w.register id owner).record e).Serial where
  log := ⟨h.log,fun _ _ _ _ _ hmem => h.answered hmem⟩
  queued k hk := (h.queued k hk).cons e
  awaited k child hmem := by
    rcases List.mem_cons.mp hmem with rfl | hmem
    · cases he
      exact .inr ((AList.mem_insert _).mpr (.inl rfl))
    · exact .inl ((h.answered hmem).cons e)
  single k hk k' hk' := by
    have honly : ∀ j ∈ w.owners.insert id owner, j = id := fun j hj =>
      ((AList.mem_insert _).mp hj).resolve_right (h.idle j)
    rw [honly k hk,honly k' hk']

end Rested

lemma Serial.rest (h : w.Serial) {id : String} (hid : id ∈ w.owners) (hanswered : Answered w.log id)
    (hlog : w'.log = w.log) (hpending : ∀ k ∈ w'.pending, k ∈ w.pending)
    (howners : w'.owners = w.owners.erase id) : w'.Rested where
  log := hlog ▸ h.log
  queued k hk := hlog ▸ h.queued k (hpending k hk)
  awaited k child hmem := by
    rw [hlog] at hmem ⊢
    rcases h.awaited k child hmem with hk | hk
    · exact .inl hk
    · exact .inl (h.single id hid k hk ▸ hanswered)
  single k hk := by
    rw [howners,AList.mem_erase] at hk
    exact absurd (h.single k hk.2 id hid) hk.1
  idle k hk := by
    rw [howners,AList.mem_erase] at hk
    exact hk.1 (h.single k hk.2 id hid)

def Leaves (w : World) : Option FrameResult → Prop
  | none | some (.completed _) => w.Rested
  | some .suspended => w.Serial
  | some (.ended _) | some (.failed _) => SerialLog w.log

lemma Rested.leaves (h : w.Rested) (r : Option FrameResult) : w.Leaves r := by
  rcases r with _ | r
  · exact h
  · cases r with
    | suspended => exact h.toSerial
    | completed value => exact h
    | ended value => exact h.log
    | failed failure => exact h.log

end World

def Rule.serial : Rule := ⟨World.Rested,fun r w => w.Leaves r,ExecutionFailure.Honest,False⟩

lemma Rule.serial_lawful : Rule.serial.Lawful where
  leave h r := World.Rested.leaves h r
  next h := h
  completed h := h
  fail h := World.Serial.log h
  context h _ := World.Rested.same h rfl rfl rfl
  frames h _ := World.Rested.same h rfl rfl rfl
  record h hframes _ := World.Rested.record h (Event.isSubmit_of_asksFor (.inl (Event.asksFor_of_ofFrames hframes)))
  honest h := h
  alike h hstatus := fun hok => h (hstatus ▸ hok)
  fork hforks := hforks.elim
  forget hforks := hforks.elim

lemma Rule.serial_allows (setup : Setup) (names : List String) (T : Terms) : Rule.serial.Allows setup names T where
  directs _ _ hw := World.Rested.record hw rfl
  defects _ hw := World.Rested.record hw rfl
  asks {e w} owner he hw := by
    have hasked := (World.Rested.ask hw (T.asksFor he) owner).converse
    have hroute : setup.freshId w.nextChild ∈
        ((w.register (setup.freshId w.nextChild) owner).record e).converse.2.owners := by
      rw [World.converse_owners]
      exact (AList.mem_insert _).mpr (.inl rfl)
    refine ⟨hasked,fun outcome hpending => ?_,fun _ => hasked.log⟩
    have hanswered := hasked.queued _ (AList.lookup_isSome.mp (by rw [hpending]; rfl))
    exact hasked.rest hroute hanswered rfl (fun k hk => (AList.mem_erase.mp hk).2) rfl
  detaches he hw := (World.Rested.record hw (Event.isSubmit_of_asksFor (.inr (T.asksFor he)))).converse

def NoFork {n : ℕ} (tasks : Tasks n) : Prop := EveryTask (fun t => ∀ b, t.body ≠ .fork b) n tasks

lemma NoFork.sequences {n : ℕ} {steps : Tasks (n+1)} (h : NoFork steps) {step : NamedTask (Body (n+1))}
    (hstep : step ∈ steps) : ∀ l ∈ step.task.body.sequences, NoFork (n := n) l := by
  obtain ⟨hfork,hnested⟩ := h step hstep
  intro l hl
  cases hbody : step.task.body with
  | do_ tasks =>
    rw [hbody] at hl hnested
    cases List.mem_singleton.mp hl
    exact hnested
  | for_ body =>
    rw [hbody] at hl hnested
    cases List.mem_singleton.mp hl
    exact hnested
  | fork body => exact absurd hbody (hfork body)
  | _ =>
    rw [hbody] at hl
    cases hl

abbrev Frame.Linear (n : ℕ) (f : Frame n) : Prop :=
  Frame.Orderly (fun _ => NoFork) False n f

theorem frameOps_linear (setup : Setup) (n : ℕ) :
    (frameOps setup n).Orderly Rule.serial NoFork (Frame.Linear n) :=
  frameOps_orderly setup Rule.serial_lawful (fun _ => {
    terms := fun _ _ => Rule.serial_allows setup _ _
    loops := fun _ _ _ hw => World.Rested.record hw rfl
    nested := fun hsteps hstep => NoFork.sequences hsteps hstep
    forks := fun hsteps hstep hfork => (hsteps _ hstep).1 _ hfork }) n

namespace WorkflowInterpreter
open Strij.Wire (TaskStatus)
variable {setup : Setup} {i : WorkflowInterpreter}

def LinearRoot (i : WorkflowInterpreter) : Prop := ∀ r ∈ i.root, Frame.Linear r.1 r.2

structure Serial (i : WorkflowInterpreter) : Prop where
  log : SerialLog i.world.log
  world : i.state.isTerminal = false → i.world.Serial
  root : i.LinearRoot

lemma Serial.of_rested (hw : i.world.Rested) (hroot : i.LinearRoot) : i.Serial :=
  ⟨hw.log,fun _ => hw.toSerial,hroot⟩

lemma Serial.over {old : World} (hlog : SerialLog old.log) (hroot : i.LinearRoot)
    (hterminal : i.state.isTerminal = true)
    (hevents : ∃ events, i.world.log = events ++ old.log ∧ ∀ e ∈ events, e.isSubmit = false) : i.Serial := by
  refine ⟨?_,fun h => absurd hterminal (by simp [h]),hroot⟩
  obtain ⟨events,heq,hevents⟩ := hevents
  rw [heq]
  clear heq
  induction events with
  | nil => exact hlog
  | cons e events ih =>
    obtain ⟨he,hrest⟩ := List.forall_mem_cons.mp hevents
    refine ⟨ih hrest,?_⟩
    rintro id child rfl
    cases he

lemma fail_serial (hlog : SerialLog i.world.log) (hroot : i.LinearRoot) (status : TaskStatus)
    (step message : String) : (i.fail setup status step message).Serial :=
  .over hlog hroot rfl ⟨[_,_],rfl,by simp [Event.isSubmit]⟩

lemma finish_serial (hlog : SerialLog i.world.log) (hroot : i.LinearRoot) (value : StepDataValue) :
    (i.finish setup value).Serial := by
  rw [finish]
  split
  · exact .over hlog hroot rfl ⟨[_,_,_],rfl,by simp [Event.isSubmit]⟩
  · exact .over hlog hroot rfl ⟨[_,_,_],rfl,by simp [Event.isSubmit]⟩

lemma terminalize_serial {r : FrameResult} (hw : i.world.Leaves (some r)) (hroot : i.LinearRoot) :
    (i.terminalize setup r).Serial := by
  cases r with
  | suspended =>
    have hserial : i.world.Serial := hw
    exact ⟨hserial.log,fun _ => hserial,hroot⟩
  | completed value =>
    have hrested : i.world.Rested := hw
    exact finish_serial hrested.log hroot value
  | ended value => exact finish_serial hw hroot value
  | failed failure => exact fail_serial hw hroot _ _ _

lemma advanceRoot_serial (hw : i.world.Rested) (hroot : i.LinearRoot) : (i.advanceRoot setup).Serial := by
  rw [advanceRoot]
  split
  · exact .of_rested hw hroot
  next n f hf =>
  obtain ⟨-,hframe,hleaves⟩ := (frameOps_linear setup n).advance f i.world (hroot _ hf) hw
  refine terminalize_serial hleaves ?_
  rintro _ ⟨⟩
  exact hframe

lemma applyOutcome_rested (hw : i.world.Rested) (hroot : i.LinearRoot) (id : String) (frame : FrameId)
    (outcome : ChildOutcome) : (i.applyOutcome setup id frame outcome).world.Rested ∧
      (i.applyOutcome setup id frame outcome).LinearRoot := by
  rw [applyOutcome]
  split
  · exact ⟨hw,hroot⟩
  next n f hf =>
  split
  · next r hr =>
    obtain ⟨hframe,hrested⟩ := (frameOps_linear setup n).applyOutcome _ _ _ _ _ (hroot _ hf) hw hr
    refine ⟨hrested,?_⟩
    rintro _ ⟨⟩
    exact hframe
  · exact ⟨hw.record rfl,hroot⟩

lemma Serial.drainOne (h : i.Serial) (hrunning : i.state.isTerminal = false) {id : String}
    {outcome : ChildOutcome} (hid : i.world.pending.lookup id = some outcome) :
    (i.drainOne setup id outcome).Serial := by
  have hw := h.world hrunning
  rw [WorkflowInterpreter.drainOne]
  split
  · refine ⟨h.log,fun _ => ⟨hw.log,fun k hk => ?_,hw.awaited,hw.single⟩,h.root⟩
    exact hw.queued k (AList.mem_erase.mp hk).2
  next frame hframe =>
  have hqueued := hw.queued id (AList.lookup_isSome.mp (by rw [hid]; rfl))
  let taken : WorkflowInterpreter := { i with world := { i.world with
    pending := i.world.pending.erase id, owners := i.world.owners.erase id } }
  have hrested : taken.world.Rested := hw.rest (AList.lookup_isSome.mp (by rw [hframe]; rfl)) hqueued rfl
    (fun k hk => (AList.mem_erase.mp hk).2) rfl
  obtain ⟨hw',hroot⟩ := applyOutcome_rested hrested h.root id frame outcome
  exact advanceRoot_serial hw' hroot

lemma Serial.drain (h : i.Serial) (k : ℕ) : (drain setup k i).Serial :=
  drain_keeps (fun _ _ _ h hrunning hid => h.drainOne hrunning hid) h k

lemma Serial.ready (h : i.Serial) (hrunning : i.state.isTerminal = false) : (i.setState .ready).Serial := by
  have hworld : (i.setState .ready).world.Serial := (h.world hrunning).record rfl
  exact ⟨hworld.log,fun _ => hworld,h.root⟩

lemma drive_serial (hw : i.world.Rested) (hroot : i.LinearRoot) : (i.drive setup).Serial := by
  rw [drive]
  split
  · have hadvanced : ((i.setState .advancing).advanceRoot setup).Serial :=
      advanceRoot_serial (hw.record rfl) hroot
    dsimp only
    split
    · exact hadvanced.drain _
    · next hrunning => exact (hadvanced.drain _).ready (by simpa using hrunning)
  · exact .of_rested hw hroot

lemma drive_state (h : i.state ≠ .idle) : (i.drive setup).state ≠ .idle := by
  rw [drive]
  split
  · dsimp only
    split
    · next hterminal =>
      intro hidle
      rw [hidle] at hterminal
      cases hterminal
    · simp [setState]
  · exact h

structure SerialRun (i : WorkflowInterpreter) : Prop extends i.Serial where
  idle : i.state = .idle → i.world.Rested

namespace SerialRun

lemma of_started (h : i.Serial) (hstate : i.state ≠ .idle) : i.SerialRun := ⟨h,fun hidle => absurd hidle hstate⟩

lemma created (script : List Reply) : (create script).SerialRun := by
  have hw : (create script).world.Rested := {
    log := trivial
    queued := fun id hid => absurd hid (AList.notMem_empty id)
    awaited := fun _ _ hmem => absurd hmem List.not_mem_nil
    single := fun id hid => absurd hid (AList.notMem_empty id)
    idle := AList.notMem_empty }
  have hroot : (create script).LinearRoot := fun r hr => absurd hr (by simp [create])
  exact ⟨.of_rested hw hroot,fun _ => hw⟩

lemma fail (hlog : SerialLog i.world.log) (hroot : i.LinearRoot) (status : TaskStatus)
    (step message : String) : (i.fail setup status step message).SerialRun :=
  .of_started (fail_serial hlog hroot _ _ _) (by simp [WorkflowInterpreter.fail,complete,setState])

variable (h : i.SerialRun)
include h

lemma start {text : String} (input : String)
    (hfork : ∀ document, setup.parse text = .ok document → NoFork document.2.do_) :
    (i.start setup text input).SerialRun := by
  rw [WorkflowInterpreter.start]
  split
  · exact h
  next hidle =>
  have hw := h.idle (by simpa using hidle)
  split
  · exact .fail h.log h.root _ _ _
  next document hparse =>
  let named : WorkflowInterpreter := { i with documentOutput := document.2.output.bind Output.as_ }
  have hlog : SerialLog named.world.log := h.log
  have hroot : named.LinearRoot := h.root
  rw [startDocument]
  split
  · exact .fail hlog hroot _ _ _
  split
  · exact .fail hlog hroot _ _ _
  split
  · exact .fail hlog hroot _ _ _
  refine .of_started (drive_serial ?_ ?_) (drive_state (by simp [setState]))
  · refine World.Rested.record ?_ rfl
    exact hw.same rfl rfl rfl
  · rintro _ ⟨⟩
    exact (frameOps_linear setup _).fresh _ (hfork document hparse) rfl rfl rfl

lemma onChildOutcome (id : String) (outcome : ChildOutcome) :
    (i.onChildOutcome setup id outcome).SerialRun := by
  have hlog : SerialLog (i.world.record (.deliver id outcome)).log := ⟨h.log,fun _ _ heq => nomatch heq⟩
  have hsame : ({ i with world := i.world.record (.deliver id outcome) } : WorkflowInterpreter).SerialRun :=
    ⟨⟨hlog,fun hrunning => (h.world hrunning).record rfl,h.root⟩,fun hidle => (h.idle hidle).record rfl⟩
  simp only [WorkflowInterpreter.onChildOutcome]
  split
  · exact hsame
  next hrunning =>
  have hw := hsame.world (by simpa using hrunning)
  have hanswered : Answered (i.world.record (.deliver id outcome)).log id := ⟨outcome,List.mem_cons_self⟩
  split
  · exact hsame
  next frame hframe =>
  have hroute : id ∈ i.world.owners := AList.lookup_isSome.mp (Option.isSome_of_mem hframe)
  have hstate : i.state ≠ .idle := fun hidle => (h.idle hidle).idle id hroute
  split
  · refine .of_started ⟨hlog,fun _ => ⟨hw.log,fun k hk => ?_,hw.awaited,hw.single⟩,h.root⟩ hstate
    rcases (AList.mem_insert _).mp hk with rfl | hk
    · exact hanswered
    · exact hw.queued k hk
  · let taken : WorkflowInterpreter :=
      { i with world := (i.world.record (.deliver id outcome)).forgetChild id }
    have hrested : taken.world.Rested := hw.rest hroute hanswered rfl (fun k hk => hk) rfl
    obtain ⟨hw',hroot⟩ := applyOutcome_rested hrested h.root id frame outcome
    refine .of_started (drive_serial hw' hroot) (drive_state ?_)
    rw [applyOutcome_state]
    exact hstate

omit h in
omit i in
lemma cancelRuns_log (w : World) : ∃ events, (cancelRuns setup w).log = events ++ w.log ∧
    ∀ e ∈ events, e.isSubmit = false := by
  refine cancelRuns_keeps (P := fun w' => ∃ events, w'.log = events ++ w.log ∧ ∀ e ∈ events, e.isSubmit = false)
    (fun w' id h => ?_) ⟨[],rfl,by simp⟩
  obtain ⟨events,heq,hevents⟩ := h
  exact ⟨.cancelRun id :: events,by simp [World.record,heq],List.forall_mem_cons.mpr ⟨rfl,hevents⟩⟩

lemma cancel : (i.cancel setup).SerialRun := by
  rw [WorkflowInterpreter.cancel]
  split
  · exact h
  obtain ⟨events,heq,hevents⟩ := @cancelRuns_log setup (i.setState .cancelled).world
  refine .of_started (.over h.log h.root rfl ⟨events ++ [.setState i.state .cancelled],?_,?_⟩)
    (by simp [setState])
  · exact heq.trans (by simp [setState,World.record])
  · rw [List.forall_mem_append]
    exact ⟨hevents,by simp [Event.isSubmit]⟩

lemma script (replies : List Reply) :
    ({ i with world := { i.world with script := replies } } : WorkflowInterpreter).SerialRun :=
  ⟨⟨h.log,fun hrunning => (h.world hrunning).same rfl rfl rfl,h.root⟩,fun hidle => (h.idle hidle).same rfl rfl rfl⟩

theorem step (call : Call) (hfork : ∀ text input document, call = .start text input →
    setup.parse text = .ok document → NoFork document.2.do_) : (i.step setup call).SerialRun := by
  cases call with
  | start text input => exact h.start input fun document => hfork text input document rfl
  | onChildOutcome id outcome => exact h.onChildOutcome id outcome
  | cancel => exact h.cancel

end SerialRun
end WorkflowInterpreter
end Strij.OpenWorkflow
