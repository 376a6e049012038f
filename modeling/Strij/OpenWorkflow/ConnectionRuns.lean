import Strij.Io.OutboundMailbox
import Strij.Lib.Runs

/-! The runs of the task handler and the close registrations of their senders. A registration has only the id
of its task, and it stays in its mailbox when `HandleTask` replaces the run. -/
namespace Strij.OpenWorkflow
open Strij.Io (OutboundMailbox)
open Strij.Lib

/-- A run, with its interpreter's place among all that were made. A `StorageResultSender` has no connection. -/
structure ConnectionRun where
  interpreter : ℕ
  connection : Option ℕ
  closeToken : ℕ
  deriving DecidableEq

structure ConnectionRuns where
  runs : String → Option ConnectionRun := fun _ => none
  mailboxes : ℕ → OutboundMailbox String := fun _ => {}
  made : ℕ := 0
  /-- The runs whose interpreter's `Cancel` was called, which also cancels its awaited nested runs. -/
  cancelled : List (String × ConnectionRun) := []

namespace ConnectionRuns

inductive Event
  | handleTask (taskId : String) (connection : Option ℕ) (loads : Bool)
  | complete (taskId : String)
  | close (connection : ℕ)

def onClose (s : ConnectionRuns) (taskId : String) : ConnectionRuns :=
  match s.runs taskId with
  | none => s
  | some run => { s with runs := Function.update s.runs taskId none, cancelled := (taskId,run) :: s.cancelled }

/-- `HandleTask`, up to `Start`. -/
def handleTask (s : ConnectionRuns) (taskId : String) (connection : Option ℕ) (loads : Bool) : ConnectionRuns :=
  let s := { s with runs := Function.update s.runs taskId none }
  if !loads then s else match connection with
    | none => { s with made := s.made+1, runs := Function.update s.runs taskId (some ⟨s.made,none,0⟩) }
    | some c =>
      let (token,now,mailbox) := (s.mailboxes c).registerOnClose taskId
      now.foldl onClose { s with
        made := s.made+1
        runs := Function.update s.runs taskId (some ⟨s.made,some c,token⟩)
        mailboxes := Function.update s.mailboxes c mailbox }

def send (s : ConnectionRuns) (taskId : String) : ConnectionRuns :=
  match s.runs taskId with
  | none => s
  | some run =>
    let s := { s with runs := Function.update s.runs taskId none }
    match run.connection with
    | none => s
    | some c => { s with
        mailboxes := Function.update s.mailboxes c ((s.mailboxes c).unregisterOnClose run.closeToken) }

def close (s : ConnectionRuns) (c : ℕ) : ConnectionRuns :=
  (s.mailboxes c).close.1.foldl onClose { s with mailboxes := Function.update s.mailboxes c (s.mailboxes c).close.2 }

def step (s : ConnectionRuns) : Event → Option ConnectionRuns
  | .handleTask taskId connection loads => some (s.handleTask taskId connection loads)
  | .complete taskId => some (s.send taskId)
  | .close c => some (s.close c)

def Fresh (s : ConnectionRuns) : Event → Prop
  | .handleTask taskId _ _ => s.runs taskId = none
  | _ => True

instance (s : ConnectionRuns) : (e : Event) → Decidable (s.Fresh e)
  | .handleTask taskId _ _ => inferInstanceAs (Decidable (s.runs taskId = none))
  | .complete _ | .close _ => instDecidableTrue

/-- The registrations are those of the runs in the table. -/
structure Tidy (s : ConnectionRuns) : Prop where
  registered : ∀ {c token id}, (token,id) ∈ (s.mailboxes c).closeCallbacks ↔
    ∃ i, s.runs id = some ⟨i,some c,token⟩
  tokens : ∀ {c token id id'}, (token,id) ∈ (s.mailboxes c).closeCallbacks →
    (token,id') ∈ (s.mailboxes c).closeCallbacks → id = id'
  fresh : ∀ {c token id}, (token,id) ∈ (s.mailboxes c).closeCallbacks → token < (s.mailboxes c).nextToken

variable {s t : ConnectionRuns} {id : String} {run : ConnectionRun} {c : ℕ}

lemma foldl_onClose (ids : List String) (s : ConnectionRuns) : (ids.foldl onClose s).mailboxes = s.mailboxes ∧
    (∀ id, (ids.foldl onClose s).runs id = if id ∈ ids then none else s.runs id) ∧
    ∃ now, (ids.foldl onClose s).cancelled = now ++ s.cancelled ∧
      ∀ id run, (id,run) ∈ now ↔ id ∈ ids ∧ s.runs id = some run := by
  induction ids generalizing s with
  | nil => exact ⟨rfl,fun _ => rfl,[],rfl,by simp⟩
  | cons id ids ih =>
    obtain ⟨hmail,hruns,now,hnow,hmem⟩ := ih (s.onClose id)
    rw [List.foldl_cons,hmail,hnow]
    cases hrun : s.runs id with
    | none =>
      have hsame : s.onClose id = s := by rw [onClose,hrun]
      rw [hsame] at hmem hruns ⊢
      exact ⟨rfl,by grind,now,rfl,by grind⟩
    | some run =>
      have herased : s.onClose id = { s with
        runs := Function.update s.runs id none, cancelled := (id,run) :: s.cancelled } := by rw [onClose,hrun]
      rw [herased] at hmem hruns ⊢
      exact ⟨rfl,by grind,now ++ [(id,run)],by simp,by grind⟩

namespace Tidy

lemma mem_close (h : s.Tidy) : id ∈ (s.mailboxes c).close.1 ↔ ∃ run, s.runs id = some run ∧ run.connection = some c := by
  refine ⟨fun hid => ?_,fun ⟨run,hrun,hc⟩ => ?_⟩
  · obtain ⟨⟨token,id⟩,hmem,rfl⟩ := List.mem_map.mp hid
    obtain ⟨i,hi⟩ := h.registered.mp hmem
    exact ⟨_,hi,rfl⟩
  · exact List.mem_map_of_mem (h.registered.mpr ⟨run.interpreter,by rw [hrun,← hc]⟩)

lemma close (h : s.Tidy) (c : ℕ) : (s.close c).Tidy := by
  obtain ⟨hmail,hruns,-⟩ := foldl_onClose (s.mailboxes c).close.1
    { s with mailboxes := Function.update s.mailboxes c (s.mailboxes c).close.2 }
  have hgone := @h.mem_close
  constructor <;> simp only [ConnectionRuns.close,hmail,hruns]
  · grind [h.registered,OutboundMailbox.close]
  · grind [h.tokens,OutboundMailbox.close]
  · grind [→ h.fresh,OutboundMailbox.close]

lemma send (h : s.Tidy) (id : String) : (s.send id).Tidy := by
  rw [ConnectionRuns.send]
  split
  · exact h
  next run hrun =>
  dsimp only
  split
  · exact ⟨by grind [h.registered],h.tokens,h.fresh⟩
  next c hc =>
  have hown : (run.closeToken,id) ∈ (s.mailboxes c).closeCallbacks :=
    h.registered.mpr ⟨run.interpreter,by rw [hrun,← hc]⟩
  constructor
  · grind [h.registered,h.tokens,OutboundMailbox.unregisterOnClose]
  · grind [h.tokens,OutboundMailbox.unregisterOnClose]
  · grind [→ h.fresh,OutboundMailbox.unregisterOnClose]

lemma handleTask (h : s.Tidy) (hid : s.runs id = none) (connection : Option ℕ) (loads : Bool) :
    (s.handleTask id connection loads).Tidy := by
  have herase : Function.update s.runs id none = s.runs := hid ▸ Function.update_eq_self id s.runs
  simp only [ConnectionRuns.handleTask,herase]
  split
  · exact h
  split
  · exact ⟨by grind [h.registered],h.tokens,h.fresh⟩
  next c =>
  rw [OutboundMailbox.registerOnClose]
  split
  · rw [List.foldl_nil]
    constructor
    · intro c' token' id'
      by_cases hid' : id' = id
      · subst hid'
        by_cases hc : c' = c
        · subst hc
          simp [h.registered,hid,eq_comm]
        · simp [hc,h.registered,hid,Ne.symm hc]
      · grind [h.registered]
    · grind [h.tokens,→ h.fresh]
    · grind [→ h.fresh]
  -- the mailbox is closed: the run is cancelled at once
  · rw [List.foldl_cons,List.foldl_nil,onClose]
    simp only [Function.update_self,Function.update_idem,herase]
    exact ⟨by grind [h.registered],by grind [h.tokens],by grind [→ h.fresh]⟩

end Tidy

lemma tidy_of_step {e : Event} (h : s.Tidy) (hfresh : s.Fresh e) (hstep : s.step e = some t) : t.Tidy := by
  cases e with
  | handleTask id connection loads =>
    cases hstep
    exact h.handleTask hfresh connection loads
  | complete id =>
    cases hstep
    exact h.send id
  | close c =>
    cases hstep
    exact h.close c

/-- Two tasks on a connection and one on another; the first completes, and its id comes again. -/
def twoConnections : List Event := [.handleTask "a" (some 0) true,.handleTask "b" (some 0) true,
  .handleTask "c" (some 1) true,.complete "a",.handleTask "a" (some 1) true]

end ConnectionRuns
end Strij.OpenWorkflow
