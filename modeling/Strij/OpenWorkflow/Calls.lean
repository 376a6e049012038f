import Strij.OpenWorkflow.Handler
import Strij.OpenWorkflow.Upkeep

/-! A call of an interpreter as the handler sees it: the children it asks for have fresh ids, and it
calls the completion callback exactly when it completes. -/
namespace Strij.OpenWorkflow
open Strij.Wire (TaskStatus)
variable {w w' : World}

def Event.childId (e : Event) : Option String := e.asksFor.join

/-- The second world comes after the first, and the children asked for in between have new ids. -/
structure World.Follows (setup : Setup) (w w' : World) (events : List Event) : Prop where
  log : w'.log = events ++ w.log
  nextChild : w.nextChild ≤ w'.nextChild
  nodup : (events.filterMap Event.childId).Nodup
  ids : ∀ id ∈ events.filterMap Event.childId, ∃ k, w.nextChild ≤ k ∧ k < w'.nextChild ∧
    id = setup.freshId k

lemma World.since_of_log {events : List Event} (h : w'.log = events ++ w.log) : w.since w' = events := by
  rw [World.since,h,List.length_append,Nat.add_sub_cancel,List.take_left]

namespace World.Follows
variable {setup : Setup} {w w' w'' : World} {events : List Event} {e : Event}

lemma refl : w.Follows setup w [] := ⟨rfl,le_rfl,List.nodup_nil,by simp⟩

variable (h : w.Follows setup w' events)
include h

lemma same (hlog : w''.log = w'.log) (hchild : w''.nextChild = w'.nextChild) : w.Follows setup w'' events :=
  ⟨hlog.trans h.log,hchild ▸ h.nextChild,h.nodup,by rw [hchild]; exact h.ids⟩

lemma record (he : e.childId = none) : w.Follows setup (w'.record e) (e :: events) := by
  have hids : (e :: events).filterMap Event.childId = events.filterMap Event.childId :=
    List.filterMap_cons_none he
  exact ⟨congrArg (e :: ·) h.log,h.nextChild,hids ▸ h.nodup,by rw [hids]; exact h.ids⟩

omit h in
lemma ask (hfresh : Function.Injective setup.freshId) (h : w.Follows setup w' events)
    (he : e.asksFor = some (some (setup.freshId w'.nextChild))) (owner : FrameId) :
    w.Follows setup ((w'.register (setup.freshId w'.nextChild) owner).record e) (e :: events) := by
  have hids : (e :: events).filterMap Event.childId =
      setup.freshId w'.nextChild :: events.filterMap Event.childId :=
    List.filterMap_cons_some (by rw [Event.childId,he]; rfl)
  refine ⟨congrArg (e :: ·) h.log,h.nextChild.trans (Nat.le_succ _),?_,?_⟩
  · rw [hids,List.nodup_cons]
    refine ⟨fun hmem => ?_,h.nodup⟩
    obtain ⟨k,-,hk,heq⟩ := h.ids _ hmem
    exact hk.ne (hfresh heq).symm
  · rw [hids]
    refine List.forall_mem_cons.mpr ⟨⟨w'.nextChild,h.nextChild,Nat.lt_succ_self _,rfl⟩,fun id hid => ?_⟩
    obtain ⟨k,hle,hlt,rfl⟩ := h.ids id hid
    exact ⟨k,hle,Nat.lt_succ_of_lt hlt,rfl⟩

lemma deliver (x : String × ChildOutcome) : w.Follows setup (w'.deliver x) (.deliver x.1 x.2 :: events) := by
  have h' := h.record (e := .deliver x.1 x.2) rfl
  rw [World.deliver]
  split
  · exact h'.same rfl rfl
  · exact h'

lemma converse : ∃ events, w.Follows setup w'.converse.2 events := by
  refine converse_keeps (P := fun w' => ∃ events, w.Follows setup w' events) (fun _ _ => ?_) (fun _ x => ?_) ⟨_,h⟩
  · exact fun ⟨_,h⟩ => ⟨_,h.same rfl rfl⟩
  · exact fun ⟨_,h⟩ => ⟨_,h.deliver x⟩

omit h in
lemma act (hfresh : Function.Injective setup.freshId) (h : w.Follows setup w' events)
    (hact : Act setup w' w'') : ∃ events, w.Follows setup w'' events := by
  cases hact with
  | record he =>
    refine ⟨_,h.record ?_⟩
    rename_i e
    cases e <;> first | rfl | cases he
  | ask owner he => exact ⟨_,h.ask hfresh he owner⟩
  | detach he => exact ⟨_,h.record (by rw [Event.childId,he]; rfl)⟩
  | converse => exact h.converse
  | _ => exact ⟨_,h.same rfl rfl⟩

omit h in
lemma acts (hfresh : Function.Injective setup.freshId) (h : w.Follows setup w' events)
    (hacts : Acts setup w' w'') : ∃ events, w.Follows setup w'' events := by
  induction hacts with
  | refl => exact ⟨_,h⟩
  | tail _ hact ih =>
    obtain ⟨_,h⟩ := ih
    exact h.act hfresh hact

lemma since : w.since w' = events := World.since_of_log h.log

end World.Follows

namespace WorkflowInterpreter
variable {setup : Setup} {i : WorkflowInterpreter}

lemma follows_maintained (hfresh : Function.Injective setup.freshId) (w : World) :
    Maintained setup (fun _ w' => ∃ events, w.Follows setup w' events) where
  record hasks _ h := h.imp' (_ :: ·) fun _ h => h.record (by rw [Event.childId,hasks]; rfl)
  same hlog hchild h := h.imp fun _ h => h.same hlog hchild
  advance h := h.elim fun _ h => h.acts hfresh ((frameOps_bounded setup _).advance _ _)
  applyOutcome h hr := h.elim fun _ h => h.acts hfresh ((frameOps_bounded setup _).applyOutcome _ _ _ _ _ hr)

def Concluded (i : WorkflowInterpreter) : Prop :=
  i.state.isTerminal = true → i.state ≠ .cancelled ∧ ∃ result, .complete result ∈ i.world.log

lemma fail_concluded (i : WorkflowInterpreter) (status : TaskStatus) (step message : String) :
    (i.fail setup status step message).Concluded := fun _ => ⟨by simp [fail,complete,setState],_,List.mem_cons_self⟩

lemma finish_concluded (i : WorkflowInterpreter) (value : StepDataValue) :
    (i.finish setup value).Concluded := by
  rw [finish]
  split
  · exact fun _ => ⟨by simp [succeed,complete,setState],_,List.mem_cons_self⟩
  · exact fail_concluded _ _ _ _

lemma Concluded.terminalize (h : i.Concluded) (r : FrameResult) : (i.terminalize setup r).Concluded := by
  cases r with
  | suspended => exact h
  | completed value => exact finish_concluded i value
  | ended value => exact finish_concluded i value
  | failed failure => exact fail_concluded i _ _ _

variable (h : i.state.isTerminal = false)
include h

lemma concluded_of_running : i.Concluded :=
  fun hterminal => absurd hterminal (by simp [h])

lemma advanceRoot_concluded : (i.advanceRoot setup).Concluded := by
  rw [advanceRoot]
  split
  · exact concluded_of_running h
  · apply Concluded.terminalize
    exact concluded_of_running h

lemma drainOne_concluded (id : String) (outcome : ChildOutcome) :
    (i.drainOne setup id outcome).Concluded := by
  rw [drainOne]
  split
  · exact concluded_of_running h
  · apply advanceRoot_concluded
    rw [applyOutcome_state]
    exact h

omit h in
lemma Concluded.drain (h : i.Concluded) (k : ℕ) : (drain setup k i).Concluded :=
  drain_keeps (fun _ id outcome _ hrunning _ => drainOne_concluded hrunning id outcome) h k

lemma drive_concluded : (i.drive setup).Concluded := by
  rw [drive]
  split
  · have hadvanced : ((i.setState .advancing).advanceRoot setup).Concluded := advanceRoot_concluded rfl
    have hdrained : (drain setup (workLeft ((i.setState .advancing).advanceRoot setup).world)
      ((i.setState .advancing).advanceRoot setup)).Concluded := hadvanced.drain _
    dsimp only
    split
    · exact hdrained
    · exact concluded_of_running rfl
  · exact concluded_of_running h

lemma start_concluded (text input : String) : (i.start setup text input).Concluded := by
  rw [start]
  split
  · exact concluded_of_running h
  split
  · exact fail_concluded _ _ _ _
  rw [startDocument]
  split
  · exact fail_concluded _ _ _ _
  split
  · exact fail_concluded _ _ _ _
  split
  · exact fail_concluded _ _ _ _
  · exact drive_concluded rfl

lemma onChildOutcome_concluded (id : String) (outcome : ChildOutcome) :
    (i.onChildOutcome setup id outcome).Concluded := by
  simp only [onChildOutcome]
  split
  · exact concluded_of_running h
  split
  · exact concluded_of_running h
  split
  · exact concluded_of_running h
  · apply drive_concluded
    rw [applyOutcome_state]
    exact h

end WorkflowInterpreter

namespace HandlerSetup
variable {H : HandlerSetup} {p : Party} {h : Hosted} {call : Call} {replies : List Reply}

def Fresh (H : HandlerSetup) : Prop :=
  ∀ {source source' k k'}, H.generateId source k = H.generateId source' k' → source = source' ∧ k = k'

lemma Fresh.injective (hfresh : H.Fresh) (p : Party) (key : String) :
    Function.Injective (H.setup p key).freshId :=
  fun _ _ heq => (hfresh heq).2

lemma called_inv (hinv : h.interpreter.Inv (H.setup p h.key)) (call : Call) (replies : List Reply) :
    (H.called p call h replies).Inv (H.setup p h.key) := by
  apply WorkflowInterpreter.Inv.step
  exact ⟨hinv.lawful,hinv.settled,fun hrunning => ⟨⟨(hinv.live hrunning).calm.lawful,
    (hinv.live hrunning).calm.quiet⟩,(hinv.live hrunning).honest⟩⟩

lemma called_follows (hfresh : H.Fresh) (p : Party) (call : Call) (h : Hosted) (replies : List Reply) :
    ∃ events, h.interpreter.world.Follows (H.setup p h.key) (H.called p call h replies).world events := by
  refine (WorkflowInterpreter.follows_maintained (hfresh.injective p h.key) h.interpreter.world).step
    (i := { h.interpreter with world := { h.interpreter.world with script := replies } })
    ⟨_,World.Follows.refl.same rfl rfl⟩ call ?_
  exact fun _ _ _ _ _ _ _ _ h _ _ => h

lemma called_concluded (hlive : h.interpreter.state.isTerminal = false) (hcall : call ≠ .cancel)
    (replies : List Reply) : (H.called p call h replies).Concluded := by
  rw [called]
  cases call with
  | start text input =>
    apply WorkflowInterpreter.start_concluded
    exact hlive
  | onChildOutcome id outcome =>
    apply WorkflowInterpreter.onChildOutcome_concluded
    exact hlive
  | cancel => exact absurd rfl hcall

lemma called_cancel_state (hlive : h.interpreter.state.isTerminal = false) (p : Party)
    (replies : List Reply) : (H.called p .cancel h replies).state = .cancelled := by
  rw [called,WorkflowInterpreter.step,WorkflowInterpreter.cancel,if_neg (by simp [hlive])]
  rfl

lemma called_terminal (hterminal : h.interpreter.state.isTerminal = true) (call : Call)
    (replies : List Reply) : (H.called p call h replies).state = h.interpreter.state ∧
      h.interpreter.world.log <:+ (H.called p call h replies).world.log := by
  rw [called]
  cases call with
  | start text input =>
    have hstarted : h.interpreter.state ≠ .idle := by
      rintro hidle
      simp [hidle,State.isTerminal] at hterminal
    rw [WorkflowInterpreter.step,WorkflowInterpreter.start,if_pos hstarted]
    exact ⟨rfl,List.suffix_rfl⟩
  | onChildOutcome id outcome =>
    rw [WorkflowInterpreter.step,WorkflowInterpreter.onChildOutcome,if_pos hterminal]
    exact ⟨rfl,List.suffix_cons _ _⟩
  | cancel =>
    rw [WorkflowInterpreter.step,WorkflowInterpreter.cancel,if_pos hterminal]
    exact ⟨rfl,List.suffix_rfl⟩

lemma completion_isSome (hfresh : H.Fresh) (hinv : h.interpreter.Inv (H.setup p h.key))
    (hlive : h.interpreter.state.isTerminal = false) (hcall : call ≠ .cancel) (replies : List Reply) :
    (h.interpreter.world.completion (H.called p call h replies).world).isSome =
      (H.called p call h replies).state.isTerminal := by
  obtain ⟨events,hfollows⟩ := called_follows hfresh p call h replies
  rw [World.completion,hfollows.since]
  cases hterminal : (H.called p call h replies).state.isTerminal with
  | false =>
    have hcalm := ((called_inv hinv call replies).live hterminal).calm
    rw [Option.isSome_eq_false_iff,Option.isNone_iff_eq_none,List.findSome?_eq_none_iff]
    intro e he
    cases e with
    | complete result =>
      exact absurd (hfollows.log ▸ List.mem_append_left _ he) (hcalm.not_complete result)
    | _ => rfl
  | true =>
    obtain ⟨-,result,hresult⟩ := called_concluded hlive hcall replies hterminal
    rw [hfollows.log,List.mem_append] at hresult
    rw [List.findSome?_isSome_iff]
    refine ⟨_,hresult.resolve_right ((hinv.live hlive).calm.not_complete result),rfl⟩

end HandlerSetup

def Request.key? : Request → Option String
  | .submit _ => none
  | .startRun id _ _ => id

def Event.runKey? (e : Event) : Option String := e.request?.bind Request.key?

lemma Event.childId_of_runKey {e : Event} {id : String} (h : e.runKey? = some id) : e.childId = some id := by
  cases e with
  | startRun id' definition input =>
    cases id' with
    | none => cases h
    | some id' => exact h
  | submit id' child => cases h
  | _ => cases h

lemma World.mem_requests {id : Option String} {definition input : String}
    (h : .startRun id definition input ∈ w.requests w') : .startRun id definition input ∈ w'.log := by
  rw [World.requests,List.mem_reverse] at h
  obtain ⟨e,he,heq⟩ := List.mem_filterMap.mp h
  cases e with
  | startRun id definition input =>
    cases heq
    exact List.mem_of_mem_take he
  | _ => cases heq

namespace World.Follows
variable {setup : Setup} {w w' : World} {events : List Event}

lemma keys_nodup (h : w.Follows setup w' events) : ((w.requests w').filterMap Request.key?).Nodup := by
  rw [World.requests,← List.filterMap_reverse,List.filterMap_filterMap,h.since]
  rw [List.filterMap_reverse,List.nodup_reverse]
  have hsub : ∀ l : List Event, (l.filterMap Event.runKey?).Sublist
      (l.filterMap Event.childId) := by
    intro l
    induction l with
    | nil => exact .slnil
    | cons e l ih =>
      cases hkey : e.runKey? with
      | none =>
        rw [List.filterMap_cons_none hkey]
        exact ih.trans ((List.sublist_cons_self _ _).filterMap _)
      | some id =>
        rw [List.filterMap_cons_some hkey,List.filterMap_cons_some (Event.childId_of_runKey hkey)]
        exact ih.cons_cons _
  exact h.nodup.sublist (hsub events)

lemma keys_fresh (h : w.Follows setup w' events) {id : String}
    (hid : id ∈ (w.requests w').filterMap Request.key?) :
    ∃ k, w.nextChild ≤ k ∧ k < w'.nextChild ∧ id = setup.freshId k := by
  obtain ⟨r,hr,hkey⟩ := List.mem_filterMap.mp hid
  rw [World.requests,List.mem_reverse,h.since] at hr
  obtain ⟨e,he,hrequest⟩ := List.mem_filterMap.mp hr
  refine h.ids id (List.mem_filterMap.mpr ⟨e,he,Event.childId_of_runKey ?_⟩)
  rw [Event.runKey?,hrequest]
  exact hkey

end World.Follows
end Strij.OpenWorkflow
