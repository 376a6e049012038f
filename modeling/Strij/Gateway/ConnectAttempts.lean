import Strij.Gateway.LoopTurns

/-! The connect attempts of one node: neither a completion nor a deletion command is checked against the attempt
or the connection that it is for. -/
namespace Strij.Gateway
open Strij.Lib

/-- How `StartConnect` gets on with the address and the socket; all but the last throw. -/
inductive ConnectStart
  | invalidFormat
  | noSocket
  | invalidHost
  | prepared (fd : ℕ)
  deriving DecidableEq, Repr

/-- A connection with its descriptor, `none` for a negative one. -/
structure NodeConnection where
  key : ℕ
  fd : Option ℕ
  isOpen : Bool
  deriving DecidableEq, Repr

structure ConnectingNode where
  status : NodeStatus := .initial
  fd : Option ℕ := none
  connection : Option NodeConnection := none
  attempts : List (Option ℕ) := []
  inFlight : List ℕ := []
  /-- The connections whose `DEFERRED_DELETE` is waiting. -/
  commands : List ℕ := []
  nextKey : ℕ := 0
  deriving DecidableEq, Repr

inductive AttemptEvent
  | startConnect (start : ConnectStart)
  | reconnectTo (start : ConnectStart)
  | disconnect
  | completion (attempt : ℕ) (ok : Bool)
  | endOfStream
  | command (conn : ℕ)
  deriving DecidableEq, Repr

namespace ConnectingNode
variable (s : ConnectingNode) {e : AttemptEvent}

def disconnect : ConnectingNode := { s with connection := none, status := .disconnected }

def startConnect : ConnectStart → ConnectingNode
  | .invalidFormat => { s with attempts := s.attempts ++ [none] }
  | .noSocket => { s with attempts := s.attempts ++ [none], fd := none }
  | .invalidHost => { s with attempts := s.attempts ++ [none], fd := none }
  | .prepared fd => { s with
      attempts := s.attempts ++ [some fd]
      inFlight := s.attempts.length :: s.inFlight
      fd := some fd
      status := .connecting }

def reconnectTo (start : ConnectStart) : ConnectingNode :=
  { s.disconnect with status := .initial }.startConnect start

def handleCompletion (ok : Bool) : ConnectingNode :=
  if ok then { s with
    connection := some ⟨s.nextKey,s.fd,true⟩, fd := none, status := .connected, nextKey := s.nextKey+1 }
  else { s with fd := none, status := .disconnected }

def onEndOfStream (c : NodeConnection) : ConnectingNode :=
  { s with connection := some { c with fd := none, isOpen := false }, commands := c.key :: s.commands }

def processCommand : ConnectingNode := { s with connection := none, status := .disconnected }

/-- One event; `none` if it cannot happen: `StartConnect` asserts that nothing was done, completions and
commands arrive once, a stream ends once. -/
def step : AttemptEvent → Option ConnectingNode
  | .startConnect start => if s.status = .initial then some (s.startConnect start) else none
  | .reconnectTo start => some (s.reconnectTo start)
  | .disconnect => some s.disconnect
  | .completion attempt ok =>
    if attempt ∈ s.inFlight then
      some (handleCompletion { s with inFlight := s.inFlight.erase attempt } ok)
    else none
  | .endOfStream =>
    match s.connection with
    | some c => if c.isOpen then some (s.onEndOfStream c) else none
    | none => none
  | .command conn =>
    if conn ∈ s.commands then some (processCommand { s with commands := s.commands.erase conn }) else none

def Latest (attempt : ℕ) : Prop := attempt+1 = s.attempts.length

instance (attempt : ℕ) : Decidable (s.Latest attempt) := inferInstanceAs (Decidable (_ = _))

/-- No completion of a superseded attempt arrives, and no connect succeeds while a command is waiting. -/
def Timely : AttemptEvent → Prop
  | .completion attempt ok => s.Latest attempt ∧ (ok = true → s.commands = [])
  | _ => True

instance (e : AttemptEvent) : Decidable (s.Timely e) := by
  unfold Timely
  split <;> infer_instance

structure InStep : Prop where
  nodup : s.inFlight.Nodup
  started : ∀ attempt ∈ s.inFlight, attempt < s.attempts.length
  current : ∀ attempt ∈ s.inFlight, s.Latest attempt → ∃ fd, s.attempts[attempt]? = some (some fd) ∧ s.fd = some fd
  raised : ∀ conn ∈ s.commands, ∀ c, s.connection = some c → c.key = conn

variable {s} {t : ConnectingNode}

lemma step_endOfStream (h : s.step .endOfStream = some t) :
    ∃ c, s.connection = some c ∧ c.isOpen = true ∧ t = s.onEndOfStream c := by
  rw [step] at h
  split at h
  · next c hc =>
    obtain ⟨hopen,heq⟩ := Option.ite_none_right_eq_some.mp h
    exact ⟨c,hc,hopen,(Option.some.inj heq).symm⟩
  · cases h

namespace InStep

variable (h : s.InStep)
include h

lemma refused (fd : Option ℕ) : InStep { s with attempts := s.attempts ++ [none], fd := fd } := by
  refine ⟨h.nodup,fun attempt hmem => ?_,fun attempt hmem hlatest => ?_,h.raised⟩
  · have hlt := h.started attempt hmem
    simp only [List.length_append,List.length_singleton]
    omega
  · have hlt := h.started attempt hmem
    simp only [Latest,List.length_append,List.length_singleton] at hlatest
    omega

lemma startConnect (start : ConnectStart) : (s.startConnect start).InStep := by
  cases start with
  | invalidFormat => exact h.refused s.fd
  | noSocket => exact h.refused none
  | invalidHost => exact h.refused none
  | prepared fd =>
    refine ⟨List.nodup_cons.mpr ⟨fun hmem => (h.started _ hmem).false,h.nodup⟩,fun attempt hmem => ?_,
      fun attempt hmem hlatest => ?_,h.raised⟩
    · simp only [ConnectingNode.startConnect,List.length_append,List.length_singleton]
      rcases List.mem_cons.mp hmem with rfl | hmem
      · exact Nat.lt_succ_self _
      · exact Nat.lt_succ_of_lt (h.started attempt hmem)
    · simp only [Latest,ConnectingNode.startConnect,List.length_append,List.length_singleton] at hlatest
      obtain rfl : attempt = s.attempts.length := by omega
      exact ⟨fd,List.getElem?_concat_length,rfl⟩

lemma disconnect : s.disconnect.InStep := ⟨h.nodup,h.started,h.current,fun _ _ _ hc => nomatch hc⟩

lemma reconnectTo (start : ConnectStart) : (s.reconnectTo start).InStep := by
  have hinitial : InStep { s.disconnect with status := .initial } := ⟨h.nodup,h.started,h.current,h.disconnect.raised⟩
  exact hinitial.startConnect start

lemma handleCompletion {attempt : ℕ} (hlatest : s.Latest attempt) {ok : Bool}
    (hquiet : ok = true → s.commands = []) :
    InStep (ConnectingNode.handleCompletion { s with inFlight := s.inFlight.erase attempt } ok) := by
  have hstarted (k : ℕ) (hk : k ∈ s.inFlight.erase attempt) : k < s.attempts.length :=
    h.started k (List.mem_of_mem_erase hk)
  have hnone (k : ℕ) (hk : k ∈ s.inFlight.erase attempt) (hk' : s.Latest k) : False := by
    rw [h.nodup.mem_erase_iff] at hk
    rw [Latest] at hlatest hk'
    omega
  cases ok with
  | true =>
    refine ⟨h.nodup.erase attempt,hstarted,fun k hk hk' => (hnone k hk hk').elim,fun conn hconn => ?_⟩
    change conn ∈ s.commands at hconn
    rw [hquiet rfl] at hconn
    cases hconn
  | false => exact ⟨h.nodup.erase attempt,hstarted,fun k hk hk' => (hnone k hk hk').elim,h.raised⟩

lemma onEndOfStream {c : NodeConnection} (hc : s.connection = some c) : (s.onEndOfStream c).InStep := by
  refine ⟨h.nodup,h.started,h.current,fun conn hconn c' hc' => ?_⟩
  cases Option.some.inj hc'
  rcases List.mem_cons.mp hconn with rfl | hconn
  · rfl
  · exact h.raised conn hconn c hc

lemma step {e : AttemptEvent} (htimely : s.Timely e) (hstep : s.step e = some t) : t.InStep := by
  cases e with
  | startConnect start =>
    obtain ⟨-,heq⟩ := Option.ite_none_right_eq_some.mp hstep
    obtain rfl := Option.some.inj heq
    exact h.startConnect start
  | reconnectTo start =>
    obtain rfl := Option.some.inj hstep
    exact h.reconnectTo start
  | disconnect =>
    obtain rfl := Option.some.inj hstep
    exact h.disconnect
  | completion attempt ok =>
    obtain ⟨-,heq⟩ := Option.ite_none_right_eq_some.mp hstep
    obtain rfl := Option.some.inj heq
    exact h.handleCompletion htimely.1 htimely.2
  | endOfStream =>
    obtain ⟨c,hc,-,rfl⟩ := step_endOfStream hstep
    exact h.onEndOfStream hc
  | command conn =>
    obtain ⟨-,heq⟩ := Option.ite_none_right_eq_some.mp hstep
    obtain rfl := Option.some.inj heq
    exact ⟨h.nodup,h.started,h.current,fun _ _ _ hc => nomatch hc⟩

end InStep

lemma connected_of_step (hstep : s.step e = some t) (hconnected : t.status = .connected) :
    (s.status = .connected ∧ t.connection.map (·.key) = s.connection.map (·.key)) ∨
      ∃ attempt, e = .completion attempt true ∧ attempt ∈ s.inFlight ∧ t.connection = some ⟨s.nextKey,s.fd,true⟩ := by
  cases e with
  | startConnect start =>
    obtain ⟨hinitial,heq⟩ := Option.ite_none_right_eq_some.mp hstep
    obtain rfl := Option.some.inj heq
    cases start with
    | prepared fd => cases hconnected
    | _ => cases hinitial.symm.trans hconnected
  | reconnectTo start =>
    obtain rfl := Option.some.inj hstep
    cases start <;> cases hconnected
  | disconnect =>
    obtain rfl := Option.some.inj hstep
    cases hconnected
  | completion attempt ok =>
    obtain ⟨hmem,heq⟩ := Option.ite_none_right_eq_some.mp hstep
    obtain rfl := Option.some.inj heq
    cases ok with
    | true => exact .inr ⟨attempt,rfl,hmem,rfl⟩
    | false => cases hconnected
  | endOfStream =>
    obtain ⟨c,hc,-,rfl⟩ := step_endOfStream hstep
    exact .inl ⟨hconnected,by rw [hc]; rfl⟩
  | command conn =>
    obtain ⟨-,heq⟩ := Option.ite_none_right_eq_some.mp hstep
    obtain rfl := Option.some.inj heq
    cases hconnected

/-- In runs in which no completion of a superseded attempt arrives and no connect succeeds while a deletion
command is waiting: a node becomes connected only through the completion of its latest attempt, with that
attempt's descriptor, and a command drops no connection but the one that has raised it. -/
theorem only_latest_attempt_connects (events : List AttemptEvent) (s : ConnectingNode)
    (htimely : Throughout step Timely {} events) (hrun : runAll step {} events = some s) :
    (∀ e t, s.Timely e → s.step e = some t → t.status = .connected →
      (s.status = .connected ∧ t.connection.map (·.key) = s.connection.map (·.key)) ∨
        ∃ attempt fd, e = .completion attempt true ∧ s.Latest attempt ∧ s.attempts[attempt]? = some (some fd) ∧
          t.connection = some ⟨s.nextKey,some fd,true⟩) ∧
    ∀ conn t, s.step (.command conn) = some t → ∀ c, s.connection = some c → c.key = conn := by
  have hinStep : s.InStep := runAll_invariant (fun _ _ _ h hP hstep => h.step hP hstep)
    ⟨List.nodup_nil,by simp,by simp,by simp⟩ htimely hrun
  refine ⟨fun e t htimely hstep hconnected => ?_,fun conn t hstep c hc => ?_⟩
  · refine (connected_of_step hstep hconnected).imp_right ?_
    rintro ⟨attempt,rfl,hmem,hconnection⟩
    obtain ⟨fd,hattempt,hfd⟩ := hinStep.current attempt hmem htimely.1
    exact ⟨attempt,fd,rfl,htimely.1,hattempt,hfd ▸ hconnection⟩
  · obtain ⟨hmem,-⟩ := Option.ite_none_right_eq_some.mp hstep
    exact hinStep.raised conn hmem c hc

/-- A connection ends while the node is told to connect elsewhere; its command is processed before the new
connect succeeds. -/
def movedNode : List AttemptEvent :=
  [.startConnect (.prepared 7),.completion 0 true,.endOfStream,.reconnectTo (.prepared 8),.command 0]

theorem only_latest_attempt_connects_movedNode :
    ∃ s t, runAll step {} movedNode = some s ∧ s.step (.completion 1 true) = some t ∧ s.status ≠ .connected ∧
      t.status = .connected ∧ ∃ attempt fd, AttemptEvent.completion 1 true = .completion attempt true ∧
        s.Latest attempt ∧ s.attempts[attempt]? = some (some fd) ∧ t.connection = some ⟨s.nextKey,some fd,true⟩ := by
  refine ⟨_,_,rfl,rfl,by decide,rfl,?_⟩
  have hconnects := (only_latest_attempt_connects movedNode _ (by decide) rfl).1 (.completion 1 true) _ (by decide) rfl rfl
  exact hconnects.resolve_left (by decide)

/-- The completion of the first attempt makes a connection of the second one's descriptor, whose connect is still in
flight; and the command of the first connection drops the second one. -/
theorem stale_events_connect_and_drop :
    (∃ s t, runAll step {} [.startConnect (.prepared 7),.reconnectTo (.prepared 8)] = some s ∧
      s.step (.completion 0 true) = some t ∧ ¬s.Latest 0 ∧ t.status = .connected ∧
      t.connection = some ⟨0,some 8,true⟩ ∧ t.inFlight = [1]) ∧
    ∃ s t, runAll step {} [.startConnect (.prepared 7),.completion 0 true,.endOfStream,.reconnectTo (.prepared 8),
        .completion 1 true] = some s ∧
      s.connection = some ⟨1,some 8,true⟩ ∧ s.step (.command 0) = some t ∧ t.connection = none ∧
      t.status = .disconnected :=
  ⟨⟨_,_,rfl,rfl,by decide,rfl,rfl,rfl⟩,_,_,rfl,rfl,rfl,rfl,rfl⟩

def record (s : ConnectingNode) (n : NodeRecord) : NodeRecord := { n with
  status := s.status
  link := s.connection.map (fun c => ⟨c.key,c.isOpen⟩)
  connects := s.inFlight.length }

def recordStep (key : ℕ) (n : NodeRecord) : AttemptEvent → NodeRecord
  | .startConnect _ => n.startConnect
  | .reconnectTo _ => n.reconnectTo n.address
  | .disconnect => n.disconnect
  | .completion _ ok => n.handleConnect key ok
  | .endOfStream => n.endOfStream
  | .command _ => n.disconnect

def Prepares : AttemptEvent → Prop
  | .startConnect start => ∃ fd, start = .prepared fd
  | .reconnectTo start => ∃ fd, start = .prepared fd
  | _ => True

/-- The records of the directory are the nodes without the identities of their attempts. -/
theorem record_of_step (hprepares : Prepares e) (hstep : s.step e = some t) (n : NodeRecord) :
    t.record n = recordStep s.nextKey (s.record n) e := by
  cases e with
  | startConnect start =>
    obtain ⟨fd,rfl⟩ := hprepares
    obtain ⟨-,heq⟩ := Option.ite_none_right_eq_some.mp hstep
    obtain rfl := Option.some.inj heq
    rfl
  | reconnectTo start =>
    obtain ⟨fd,rfl⟩ := hprepares
    obtain rfl := Option.some.inj hstep
    rfl
  | disconnect =>
    obtain rfl := Option.some.inj hstep
    rfl
  | completion attempt ok =>
    obtain ⟨hmem,heq⟩ := Option.ite_none_right_eq_some.mp hstep
    obtain rfl := Option.some.inj heq
    have hlength : (s.inFlight.erase attempt).length = s.inFlight.length-1 := List.length_erase_of_mem hmem
    cases ok <;> simp [record,recordStep,handleCompletion,NodeRecord.handleConnect,hlength]
  | endOfStream =>
    obtain ⟨c,hc,-,rfl⟩ := step_endOfStream hstep
    simp [record,recordStep,onEndOfStream,NodeRecord.endOfStream,hc]
  | command conn =>
    obtain ⟨-,heq⟩ := Option.ite_none_right_eq_some.mp hstep
    obtain rfl := Option.some.inj heq
    rfl

end ConnectingNode
end Strij.Gateway
