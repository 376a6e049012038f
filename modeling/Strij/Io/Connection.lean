import Strij.Io.OutboundMailbox
import Strij.Lib.Runs

/-! A connection on the completion queue. A read is submitted again only if the parser asks for more data, so a
connection whose parser has a complete message no longer sees the end of its stream. -/
namespace Strij.Io
open Strij.Lib

inductive Action
  | needMoreData
  | messageComplete
  deriving DecidableEq, Repr

/-- What is done to a connection from outside its completion handler. -/
inductive ConnectionCall (κ : Type*)
  | write (data : List UInt8)
  | enqueue (frame : List UInt8)
  | registerOnClose (callback : κ)
  | close

/-- A parser: what it makes of the data it gets, what its message handler does to the connection, and
the action that it returns. -/
structure ProtocolParser (σ κ : Type*) where
  onData : σ → List UInt8 → σ × List (ConnectionCall κ) × Action

/-- A connection, with the callbacks that have run and the data that `Write` has accepted. -/
structure Connection (σ κ : Type*) where
  parser : σ
  /-- `fd_ >= 0`. -/
  isOpen : Bool := true
  mailbox : OutboundMailbox κ := {}
  writeQueue : List (List UInt8) := []
  writeOffset : ℕ := 0
  reads : ℕ := 1
  writes : ℕ := 0
  deletes : ℕ := 0
  ran : List κ := []
  written : List UInt8 := []

inductive ConnectionEvent (κ : Type*)
  | readDone (data : List UInt8)
  | endOfStream
  | writeDone (count : ℕ)
  | writeFailed
  | call (call : ConnectionCall κ)

namespace Connection
variable {σ κ : Type*} (c : Connection σ κ)

def init (parser : σ) : Connection σ κ := { parser := parser }

def write (data : List UInt8) : Connection σ κ :=
  if !c.isOpen then c
  else { c with
    writeQueue := c.writeQueue ++ [data]
    writes := if c.writeQueue = [] then c.writes+1 else c.writes
    written := c.written ++ data }

def closeMailbox : Connection σ κ :=
  { c with mailbox := c.mailbox.close.2, ran := c.ran ++ c.mailbox.close.1 }

def close : Connection σ κ := { c with isOpen := false }.closeMailbox

def onEndOfStream : Connection σ κ := { { c with isOpen := false }.closeMailbox with deletes := c.deletes+1 }

def registerOnClose (callback : κ) : Connection σ κ :=
  { c with
    mailbox := (c.mailbox.registerOnClose callback).2.2
    ran := c.ran ++ (c.mailbox.registerOnClose callback).2.1 }

def doCall (c : Connection σ κ) : ConnectionCall κ → Connection σ κ
  | .write data => c.write data
  | .enqueue frame => (c.mailbox.enqueue frame).foldl write c
  | .registerOnClose callback => c.registerOnClose callback
  | .close => c.close

/-- The data of a read goes to the parser; the read is submitted again if it asks for more. -/
def handleRead (p : ProtocolParser σ κ) (data : List UInt8) : Connection σ κ :=
  let (parser,calls,action) := p.onData c.parser data
  let c := calls.foldl doCall { c with parser := parser }
  match action with
  | .needMoreData => { c with reads := c.reads+1 }
  | .messageComplete => c

/-- A write is done in part or in full, and the rest or the next one is submitted. -/
def handleWrite (count : ℕ) : Connection σ κ :=
  if c.writeOffset+count < (c.writeQueue.head?.getD []).length then
    { c with writeOffset := c.writeOffset+count, writes := c.writes+1 }
  else { c with
    writeQueue := c.writeQueue.tail
    writeOffset := 0
    writes := if c.writeQueue.tail = [] then c.writes else c.writes+1 }

def step (p : ProtocolParser σ κ) (c : Connection σ κ) : ConnectionEvent κ → Option (Connection σ κ)
  | .readDone data => if c.reads = 0 then none else some ({ c with reads := c.reads-1 }.handleRead p data)
  | .endOfStream => if c.reads = 0 then none else some { c with reads := c.reads-1 }.onEndOfStream
  | .writeDone count => if c.writes = 0 then none else some ({ c with writes := c.writes-1 }.handleWrite count)
  | .writeFailed =>
    if c.writes = 0 then none
    else some { c with writes := c.writes-1, writeQueue := [], writeOffset := 0 }
  | .call call => some (c.doCall call)

/-- The end of the stream can be seen, and then the connection closes and the callbacks registered with
its mailbox run. -/
def SeesEnd (p : ProtocolParser σ κ) : Prop :=
  ∃ c', c.step p .endOfStream = some c' ∧ c'.isOpen = false ∧ c'.mailbox.active = false ∧
    c'.ran = c.ran ++ c.mailbox.closeCallbacks.map Prod.snd

def Incomplete (p : ProtocolParser σ κ) (c : Connection σ κ) : ConnectionEvent κ → Prop
  | .readDone data => (p.onData c.parser data).2.2 = .needMoreData
  | _ => True

instance (p : ProtocolParser σ κ) (e : ConnectionEvent κ) : Decidable (c.Incomplete p e) := by
  cases e <;> unfold Incomplete <;> infer_instance

section Calls
variable {c}

@[simp] lemma reads_write (data : List UInt8) : (c.write data).reads = c.reads := by
  rw [write]
  split <;> rfl

lemma isOpen_write {data : List UInt8} (h : (c.write data).isOpen = true) : c.isOpen = true := by
  rw [write] at h
  split at h <;> exact h

lemma doCall_spec (call : ConnectionCall κ) :
    (c.doCall call).reads = c.reads ∧ ((c.doCall call).isOpen = true → c.isOpen = true) := by
  cases call with
  | write data => exact ⟨reads_write data,isOpen_write⟩
  | enqueue frame =>
    rw [doCall,OutboundMailbox.enqueue]
    split
    · exact ⟨reads_write frame,isOpen_write⟩
    · exact ⟨rfl,id⟩
  | registerOnClose callback => exact ⟨rfl,id⟩
  | close => exact ⟨rfl,nofun⟩

lemma doCalls_spec (calls : List (ConnectionCall κ)) :
    (calls.foldl doCall c).reads = c.reads ∧ ((calls.foldl doCall c).isOpen = true → c.isOpen = true) := by
  induction calls generalizing c with
  | nil => exact ⟨rfl,id⟩
  | cons call calls ih =>
    obtain ⟨hreads,hopen⟩ := doCall_spec (c := c) call
    obtain ⟨hreads',hopen'⟩ := ih (c := c.doCall call)
    exact ⟨hreads'.trans hreads,fun h => hopen (hopen' h)⟩

end Calls

section Runs
variable {c} {c' : Connection σ κ} {p : ProtocolParser σ κ}

def Armed (c : Connection σ κ) : Prop := c.isOpen = true → c.reads = 1

lemma Armed.handleRead {data : List UInt8} (h : c.Armed)
    (hincomplete : (p.onData c.parser data).2.2 = .needMoreData) :
    ({ c with reads := c.reads-1 }.handleRead p data).Armed := by
  rw [Connection.handleRead]
  generalize p.onData c.parser data = r at hincomplete
  obtain ⟨parser,calls,action⟩ := r
  cases hincomplete
  intro hopen
  obtain ⟨hkept,hwas⟩ := doCalls_spec (c := { c with reads := c.reads-1, parser := parser }) calls
  have hone := h (hwas hopen)
  change (calls.foldl doCall _).reads+1 = 1
  rw [hkept]
  change c.reads-1+1 = 1
  omega

lemma Armed.step {e : ConnectionEvent κ} (h : c.Armed) (hincomplete : c.Incomplete p e)
    (hstep : c.step p e = some c') : c'.Armed := by
  cases e with
  | readDone data =>
    rw [Connection.step] at hstep
    split at hstep
    · cases hstep
    · cases hstep
      exact h.handleRead hincomplete
  | endOfStream =>
    rw [Connection.step] at hstep
    split at hstep
    · cases hstep
    · cases hstep
      exact nofun
  | writeDone count =>
    rw [Connection.step] at hstep
    split at hstep
    · cases hstep
    · cases hstep
      rw [handleWrite]
      split <;> exact h
  | writeFailed =>
    rw [Connection.step] at hstep
    split at hstep
    · cases hstep
    · cases hstep
      exact h
  | call call =>
    cases hstep
    obtain ⟨hreads,hopen⟩ := doCall_spec (c := c) call
    exact fun hnow => hreads.trans (h (hopen hnow))

lemma seesEnd_of_reads (h : c.reads = 1) : c.SeesEnd p := by
  refine ⟨_,if_neg (by omega),rfl,rfl,rfl⟩

/-- As long as no data completes a message, an open connection has exactly one read on its way, and with
it sees the end of its stream. -/
theorem one_read_outstanding (p : ProtocolParser σ κ) (parser : σ) (events : List (ConnectionEvent κ))
    (hincomplete : Throughout (step p) (Incomplete p) (init parser) events)
    (hrun : runAll (step p) (init parser) events = some c) (hopen : c.isOpen = true) :
    c.reads = 1 ∧ c.SeesEnd p := by
  have harmed : c.Armed := runAll_invariant (I := Armed) (fun c e c' h hi hstep => h.step hi hstep)
    (fun _ => rfl) hincomplete hrun
  exact ⟨harmed hopen,seesEnd_of_reads (harmed hopen)⟩

end Runs
end Connection

/-- An `LlhttpParser`: the bytes it was given, and the flag that its library sets and nothing resets. -/
structure LlhttpParser where
  received : List UInt8 := []
  isMessageComplete : Bool := false

/-- What the library reports about the bytes so far. -/
structure Llhttp (ρ : Type*) where
  complete : List UInt8 → Bool
  request : List UInt8 → ρ

def llhttpParser {ρ κ : Type*} (llhttp : Llhttp ρ) (onMessage : ρ → List (ConnectionCall κ)) :
    ProtocolParser LlhttpParser κ where
  onData s data :=
    let received := s.received ++ data
    let s := ⟨received,s.isMessageComplete || llhttp.complete received⟩
    if s.isMessageComplete then (s,onMessage (llhttp.request received),.messageComplete)
    else (s,[],.needMoreData)

namespace Connection

/-- A connection that registers a callback for each of its messages, which end with an empty line. -/
def lineParser : ProtocolParser LlhttpParser String :=
  llhttpParser ⟨fun bytes => [13,10,13,10].isSuffixOf bytes,fun _ => ()⟩ (fun _ => [.registerOnClose "task"])

def getRequest : List UInt8 := [71,69,84,32,47,32,72,84,84,80,47,49,46,49,13,10,13,10]

theorem one_read_outstanding_getRequest : ∃ c, runAll (step lineParser) (init {})
        [.readDone (getRequest.take 10),.call (.registerOnClose "idle")] = some c ∧
      c.reads = 1 ∧ c.SeesEnd lineParser := by
  obtain ⟨c,hc,hopen⟩ : ∃ c, runAll (step lineParser) (init {})
      [.readDone (getRequest.take 10),.call (.registerOnClose "idle")] = some c ∧ c.isOpen = true :=
    ⟨_,rfl,rfl⟩
  exact ⟨c,hc,one_read_outstanding _ _ _ (by decide +kernel) hc hopen⟩

/-- The request is complete: the connection is open, the callback of its task is registered, and no
read is left that could end. -/
theorem getRequest_unread : ∃ c, runAll (step lineParser) (init {}) [.readDone getRequest] = some c ∧
      c.isOpen = true ∧ c.mailbox.closeCallbacks = [(0,"task")] ∧ c.reads = 0 ∧
      c.step lineParser .endOfStream = none :=
  ⟨_,rfl,rfl,rfl,rfl,rfl⟩

end Connection
end Strij.Io
