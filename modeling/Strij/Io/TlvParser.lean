import Strij.Lib.Slice
import Strij.Io.TlvFrame

/-! The incremental TLV parser over its fixed read buffer. A failed assertion does not stop the run, as in a
build with assertions disabled. -/
namespace Strij.Io
open Strij.Lib

def kBufferSize : ℕ := 4096

def lengthSize : ℕ := 4

inductive ParserState
  | empty
  | typeRead
  | lengthRead
  | valuePartiallyCopied
  deriving DecidableEq, Repr

structure FrameHeader where
  typeId : UInt8
  length : UInt32
  deriving DecidableEq, Repr

structure TlvParser where
  state : ParserState := .empty
  frame : FrameHeader := ⟨0,0⟩
  buffer : List UInt8 := List.replicate kBufferSize 0
  buffer_length : buffer.length = kBufferSize := by exact List.length_replicate
  cursor : ℕ := 0
  bytesNotParsed : ℕ := 0
  accumulatedValue : Option (List UInt8) := none
  messages : List TlvFrame := []
  assertionsHold : Bool := true

namespace TlvParser

def check (c : Prop) [Decidable c] (p : TlvParser) : TlvParser :=
  { p with assertionsHold := p.assertionsHold && decide c }

def onMessage (value : List UInt8) (p : TlvParser) : TlvParser :=
  { p with messages := p.messages ++ [⟨p.frame.typeId,value⟩] }

def moveCursor (n : ℕ) (p : TlvParser) : TlvParser := { p with cursor := n }

/-- The part of the buffer offered to the next read. -/
structure ReadWindow where
  start : ℕ
  size : ℕ
  deriving DecidableEq, Repr

def getReadBuffer (p : TlvParser) : TlvParser × ReadWindow :=
  let p := p.check (p.cursor ≤ kBufferSize)
  let p := if p.cursor = kBufferSize then p.moveCursor 0 else p
  match p.state with
  | .empty => (p,⟨p.cursor,kBufferSize-p.cursor⟩)
  | .typeRead | .lengthRead =>
    (p.check (p.cursor+p.bytesNotParsed < kBufferSize),
      ⟨p.cursor+p.bytesNotParsed,kBufferSize-(p.cursor+p.bytesNotParsed)⟩)
  | .valuePartiallyCopied => (p,⟨p.cursor,kBufferSize-p.cursor⟩)

def setState (newState : ParserState) (p : TlvParser) : TlvParser :=
  let p : TlvParser := match newState with
    | .empty =>
      let p : TlvParser := p.check (p.state = .typeRead ∨ p.state = .lengthRead ∨
        p.state = .valuePartiallyCopied)
      match p.state with
      | .typeRead => p.onMessage []
      | .lengthRead => p.onMessage (slice p.buffer p.cursor p.frame.length.toNat)
      | .valuePartiallyCopied =>
        let p := p.check (p.accumulatedValue.isSome)
        { p.onMessage (p.accumulatedValue.getD []) with accumulatedValue := none }
      | .empty => p
    | .typeRead => p.check (p.state = .empty)
    | .lengthRead => p.check (p.state = .typeRead)
    | .valuePartiallyCopied =>
      (p.check (p.state = .lengthRead)).check (p.accumulatedValue.isSome)
  { p with state := newState }

def window (p : TlvParser) : List UInt8 := slice p.buffer p.cursor p.bytesNotParsed

def advance (n : ℕ) (p : TlvParser) : TlvParser :=
  { p with cursor := p.cursor+n, bytesNotParsed := p.bytesNotParsed-n }

def iterateThroughReadBuffer (p : TlvParser) : TlvParser × Bool :=
  match p.state with
  | .empty =>
    let p := p.check (p.cursor < kBufferSize)
    let p := { p with frame := { p.frame with typeId := p.buffer.getD p.cursor 0 } }
    ((p.setState .typeRead).advance 1,true)
  | .typeRead =>
    if p.cursor+lengthSize ≥ kBufferSize then
      let p := p.check (p.bytesNotParsed < lengthSize)
      let p := { p with
        buffer := copyFront p.buffer p.cursor p.bytesNotParsed
        buffer_length := (copyFront_length _ _ _).trans p.buffer_length }
      (p.moveCursor 0,false)
    else if p.bytesNotParsed < lengthSize then (p,false)
    else
      let p := { p with
        frame := { p.frame with length := ntohl (slice p.buffer p.cursor lengthSize) } }
      let p := p.advance lengthSize
      if p.frame.length = (0 : UInt32) then (p.setState .empty,true)
      else (p.setState .lengthRead,true)
  | .lengthRead =>
    if p.bytesNotParsed ≥ p.frame.length.toNat then
      let p := { p with bytesNotParsed := p.bytesNotParsed-p.frame.length.toNat }
      let p := p.setState .empty
      (p.moveCursor (p.cursor+p.frame.length.toNat),true)
    else if p.cursor+p.frame.length.toNat < kBufferSize then (p,false)
    else
      let p := { p with accumulatedValue := some p.window }
      ((p.advance p.bytesNotParsed).setState .valuePartiallyCopied,false)
  | .valuePartiallyCopied =>
    let accumulated := p.accumulatedValue.getD []
    let missing := p.frame.length.toNat-accumulated.length
    if accumulated.length+p.bytesNotParsed ≥ p.frame.length.toNat then
      let p := { p with
        accumulatedValue := some (accumulated ++ slice p.buffer p.cursor missing) }
      ((p.advance missing).setState .empty,true)
    else
      let p := { p with accumulatedValue := some (accumulated ++ p.window) }
      (p.advance p.bytesNotParsed,false)

/-- `while (bytes_not_parsed_ > 0 && iterateThroughReadBuffer()) {}`, for at most `fuel` passes. -/
def parseLoop : ℕ → TlvParser → TlvParser
  | 0,p => p
  | fuel+1,p =>
    if p.bytesNotParsed = 0 then p
    else
      match p.iterateThroughReadBuffer with
      | (p,true) => parseLoop fuel p
      | (p,false) => p

def loopPasses : ℕ → TlvParser → List TlvParser
  | 0,_ => []
  | fuel+1,p =>
    if p.bytesNotParsed = 0 then []
    else
      p :: match p.iterateThroughReadBuffer with
        | (p,true) => loopPasses fuel p
        | (_,false) => []

def received (bytesRead : ℕ) (p : TlvParser) : TlvParser :=
  { p with bytesNotParsed := p.bytesNotParsed+bytesRead }

/-- A pass that asks for another one consumes at least one byte, so there are no more passes
than unparsed bytes. -/
def onData (bytesRead : ℕ) (p : TlvParser) : TlvParser :=
  parseLoop (p.received bytesRead).bytesNotParsed (p.received bytesRead)

def store (start : ℕ) (chunk : List UInt8) (p : TlvParser) : TlvParser :=
  if h : start+chunk.length ≤ kBufferSize then { p with
    buffer := splice p.buffer start chunk
    buffer_length := by rw [splice_length (by rw [p.buffer_length]; exact h),p.buffer_length] }
  else p

/-- `GetReadBuffer`, and the bytes of one read in the window it returned. -/
def fill (chunk : List UInt8) (p : TlvParser) : TlvParser :=
  p.getReadBuffer.1.store p.getReadBuffer.2.start chunk

def read (chunk : List UInt8) (p : TlvParser) : TlvParser :=
  (p.fill chunk).onData chunk.length

def readPasses (chunk : List UInt8) (p : TlvParser) : List TlvParser :=
  let p := (p.fill chunk).received chunk.length
  loopPasses p.bytesNotParsed p

def run : List (List UInt8) → TlvParser → TlvParser
  | [],p => p
  | c :: cs,p => run cs (p.read c)

/-- The states in which the passes of a whole run start. -/
def passes : List (List UInt8) → TlvParser → List TlvParser
  | [],_ => []
  | c :: cs,p => p.readPasses c ++ passes cs (p.read c)

def Fits : List (List UInt8) → TlvParser → Prop
  | [],_ => True
  | c :: cs,p => c.length ≤ p.getReadBuffer.2.size ∧ Fits cs (p.read c)

instance Fits.decidable : (cs : List (List UInt8)) → (p : TlvParser) → Decidable (Fits cs p)
  | [],_ => inferInstanceAs (Decidable True)
  | c :: cs,p =>
    have := Fits.decidable cs (p.read c)
    inferInstanceAs (Decidable (_ ∧ _))

/-- The points of a run: the bytes received so far with the parser before the first read, at the
start of every pass and after every read. -/
def points : List (List UInt8) → List UInt8 → TlvParser → List (List UInt8 × TlvParser)
  | [],bytes,p => [(bytes,p)]
  | c :: cs,bytes,p =>
    (bytes,p) :: (p.readPasses c).map (bytes ++ c,·) ++ points cs (bytes ++ c) (p.read c)

end TlvParser
end Strij.Io
