import Strij.Io.TlvParser

/-! What one pass of the parse loop, one `OnData` and a whole sequence of reads do to the byte stream. -/
namespace Strij.Io
open Strij.Lib

/-- The bytes not yet delivered, from the parser state, the frame header, the accumulated value
and the unparsed part of the buffer. -/
def unreadBytes (s : ParserState) (h : FrameHeader) (accumulated : Option (List UInt8))
    (w : List UInt8) : List UInt8 :=
  match s with
  | .empty => w
  | .typeRead => h.typeId :: w
  | .lengthRead => h.typeId :: htonl h.length ++ w
  | .valuePartiallyCopied => h.typeId :: htonl h.length ++ (accumulated.getD [] ++ w)

lemma unreadBytes_append (s : ParserState) (h : FrameHeader) (accumulated : Option (List UInt8))
    (w chunk : List UInt8) :
    unreadBytes s h accumulated (w ++ chunk) = unreadBytes s h accumulated w ++ chunk := by
  cases s <;> simp [unreadBytes]

namespace TlvParser
variable {p : TlvParser}

def unread (p : TlvParser) : List UInt8 :=
  unreadBytes p.state p.frame p.accumulatedValue p.window

def stream (p : TlvParser) : List UInt8 := wire p.messages ++ p.unread

/-- The four length bytes of a header are the last four of the buffer. -/
def Straddles (p : TlvParser) : Prop :=
  p.state = .typeRead ∧ p.cursor+lengthSize = kBufferSize ∧ p.bytesNotParsed = lengthSize

instance (p : TlvParser) : Decidable p.Straddles := by unfold Straddles; infer_instance

structure Parsing (p : TlvParser) : Prop where
  bound : p.cursor+p.bytesNotParsed ≤ kBufferSize
  started : p.state = .lengthRead → 0 < p.frame.length.toNat ∧ p.cursor < kBufferSize
  copied : p.state = .valuePartiallyCopied →
    ∃ a, p.accumulatedValue = some a ∧ a.length < p.frame.length.toNat

structure Resting (p : TlvParser) : Prop extends Parsing p where
  parsed : p.state = .empty ∨ p.state = .valuePartiallyCopied → p.bytesNotParsed = 0
  room : p.bytesNotParsed = 0 ∨ p.cursor+p.bytesNotParsed < kBufferSize

@[simp] lemma check_of_true {c : Prop} [Decidable c] (p : TlvParser) (h : c) : p.check c = p := by
  simp [check,h]

lemma setState_lengthRead (h : p.state = .typeRead) :
    p.setState .lengthRead = { p with state := .lengthRead } := by
  simp [setState,h]

lemma setState_copied (h : p.state = .lengthRead) (ha : p.accumulatedValue.isSome) :
    p.setState .valuePartiallyCopied = { p with state := .valuePartiallyCopied } := by
  simp [setState,h,ha]

lemma setState_empty_zero (h : p.state = .typeRead) :
    p.setState .empty = { p.onMessage [] with state := .empty } := by
  simp [setState,h]

lemma setState_empty_buffered (h : p.state = .lengthRead) : p.setState .empty =
      { p.onMessage (slice p.buffer p.cursor p.frame.length.toNat) with state := .empty } := by
  simp [setState,h]

lemma setState_empty_copied {a : List UInt8} (h : p.state = .valuePartiallyCopied)
    (ha : p.accumulatedValue = some a) :
    p.setState .empty = { p.onMessage a with state := .empty, accumulatedValue := none } := by
  simp [setState,h,ha]

lemma window_length (h : p.cursor+p.bytesNotParsed ≤ kBufferSize) : p.window.length = p.bytesNotParsed :=
  slice_length (by rw [p.buffer_length]; exact h)

lemma window_split {n : ℕ} (h : n ≤ p.bytesNotParsed) :
    p.window = slice p.buffer p.cursor n ++ slice p.buffer (p.cursor+n) (p.bytesNotParsed-n) := by
  rw [← slice_add,Nat.add_sub_cancel' h,window]

structure Pass (p q : TlvParser) (more : Bool) : Prop where
  parsing : q.Parsing
  stream : q.stream = p.stream
  sized : (∀ f ∈ p.messages, f.Sized) → ∀ f ∈ q.messages, f.Sized
  consumes : more = true → q.bytesNotParsed < p.bytesNotParsed
  rests : more = false → q.Resting
  settles : more = false → ¬p.Straddles → splitFrame q.unread = none
  asserts : q.assertionsHold = (p.assertionsHold && !decide p.Straddles)

section Passes
variable {p q : TlvParser} {v : List UInt8}

lemma Pass.goOn (parsing : q.Parsing) (stream : q.stream = p.stream)
    (sized : (∀ f ∈ p.messages, f.Sized) → ∀ f ∈ q.messages, f.Sized)
    (consumes : q.bytesNotParsed < p.bytesNotParsed) (hno : ¬p.Straddles)
    (asserts : q.assertionsHold = p.assertionsHold) : Pass p q true where
  parsing := parsing
  stream := stream
  sized := sized
  consumes _ := consumes
  rests h := by cases h
  settles h := by cases h
  asserts := by simp [asserts,hno]

lemma Pass.stop (rests : q.Resting) (stream : q.stream = p.stream) (messages : q.messages = p.messages)
    (settles : ¬p.Straddles → splitFrame q.unread = none)
    (asserts : q.assertionsHold = (p.assertionsHold && !decide p.Straddles)) : Pass p q false where
  parsing := rests.toParsing
  stream := stream
  sized h := by rw [messages]; exact h
  consumes h := by cases h
  rests _ := rests
  settles _ := settles
  asserts := asserts

lemma serialize_of_length {n : UInt32} (h : v.length = n.toNat) (t : UInt8) :
    serializeTlvFrame t v = t :: htonl n ++ v := by
  rw [serializeTlvFrame,h,UInt32.ofNat_toNat]

lemma sized_append {fs : List TlvFrame} {t : UInt8} {n : UInt32}
    (h : v.length = n.toNat) (hfs : ∀ f ∈ fs, f.Sized) : ∀ f ∈ fs ++ [⟨t,v⟩], f.Sized := by
  intro f hf
  rcases List.mem_append.mp hf with hf | hf
  · exact hfs f hf
  · cases List.mem_singleton.mp hf
    simp only [TlvFrame.Sized,h]
    exact n.toNat_lt

lemma Pass.deliver {t : UInt8} {n : UInt32} (hn : v.length = n.toNat) (hs : q.state = .empty)
    (hbound : q.cursor+q.bytesNotParsed ≤ kBufferSize) (hmessages : q.messages = p.messages ++ [⟨t,v⟩])
    (hunread : p.unread = t :: htonl n ++ (v ++ q.window)) (hconsumes : q.bytesNotParsed < p.bytesNotParsed)
    (hno : ¬p.Straddles) (hasserts : q.assertionsHold = p.assertionsHold) : Pass p q true := by
  have hstream : q.stream = p.stream := by
    rw [TlvParser.stream,TlvParser.stream,hmessages,hunread,wire_append,wire_singleton,serialize_of_length hn]
    simp [unread,unreadBytes,hs]
  refine .goOn ⟨hbound,by simp [hs],by simp [hs]⟩ hstream ?_ hconsumes hno hasserts
  rw [hmessages]
  exact sized_append hn

lemma Pass.copy (hs : q.state = .valuePartiallyCopied) (hv : q.accumulatedValue = some v)
    (hshort : v.length < q.frame.length.toNat) (hb : q.bytesNotParsed = 0) (hcursor : q.cursor ≤ kBufferSize)
    (hmessages : q.messages = p.messages)
    (hunread : p.unread = q.frame.typeId :: htonl q.frame.length ++ v) (hno : ¬p.Straddles)
    (hasserts : q.assertionsHold = p.assertionsHold) : Pass p q false := by
  have hheld : q.unread = q.frame.typeId :: htonl q.frame.length ++ v := by
    simp [unread,unreadBytes,window,hs,hv,hb]
  refine .stop ⟨⟨by omega,by simp [hs],fun _ => ⟨v,hv,hshort⟩⟩,fun _ => hb,.inl hb⟩ ?_ hmessages ?_
    (by simp [hasserts,hno])
  · rw [TlvParser.stream,TlvParser.stream,hmessages,hheld,hunread]
  · intro _
    rw [hheld,splitFrame_header,if_neg (by omega)]

variable (hp : p.Parsing)
include hp

lemma pass_empty (hs : p.state = .empty) (hb : 0 < p.bytesNotParsed) :
    Pass p p.iterateThroughReadBuffer.1 p.iterateThroughReadBuffer.2 := by
  have hbound := hp.bound
  have hlt : p.cursor < kBufferSize := by omega
  have hw : p.window = p.buffer.getD p.cursor 0 ::
      slice p.buffer (p.cursor+1) (p.bytesNotParsed-1) := by
    rw [window_split (show 1 ≤ p.bytesNotParsed by omega),
      slice_one (by rw [p.buffer_length]; exact hlt) 0]
    rfl
  simp only [iterateThroughReadBuffer,hs]
  apply Pass.goOn
  case parsing =>
    constructor <;> simp only [advance,setState,check,reduceCtorEq,false_implies]
    omega
  case stream =>
    simp [stream,unread,unreadBytes,window,advance,setState,check,hs] at hw ⊢
    exact hw.symm
  case sized => exact fun h => h
  case consumes => simp only [advance,setState,check]; omega
  case hno => simp [Straddles,hs]
  case asserts => simp [advance,setState,check,hlt,hs]

lemma pass_relocate (hs : p.state = .typeRead) (hc : p.cursor+lengthSize ≥ kBufferSize) :
    Pass p p.iterateThroughReadBuffer.1 p.iterateThroughReadBuffer.2 := by
  have hbound := hp.bound
  have hsize : lengthSize = 4 := rfl
  have hbuffer : kBufferSize = 4096 := rfl
  have hcopy : slice (copyFront p.buffer p.cursor p.bytesNotParsed) 0 p.bytesNotParsed =
      p.window := slice_copyFront (by omega) (by rw [p.buffer_length]; exact hbound)
  have hstraddle : p.bytesNotParsed < lengthSize ↔ ¬p.Straddles := by
    simp only [Straddles,hs,true_and]
    omega
  simp only [iterateThroughReadBuffer,hs,if_pos hc]
  apply Pass.stop
  case rests =>
    refine ⟨⟨?_,?_,?_⟩,?_,?_⟩ <;>
      simp only [moveCursor,check,hs,reduceCtorEq,false_implies,or_self]
    · omega
    · omega
  case stream =>
    simp only [stream,unread,unreadBytes,window,moveCursor,check,hs] at hcopy ⊢
    rw [hcopy]
  case messages => rfl
  case settles =>
    intro hno
    have hlt := hstraddle.mpr hno
    simp only [unread,unreadBytes,window,moveCursor,check,hs] at hcopy ⊢
    rw [hcopy]
    apply splitFrame_short
    rw [List.length_cons,slice_length (by rw [p.buffer_length]; exact hbound)]
    omega
  case asserts => simp only [moveCursor,check,hstraddle,decide_not]

lemma pass_typeRead (hs : p.state = .typeRead) :
    Pass p p.iterateThroughReadBuffer.1 p.iterateThroughReadBuffer.2 := by
  rcases Nat.lt_or_ge (p.cursor+lengthSize) kBufferSize with hc | hc
  swap
  · exact pass_relocate hp hs hc
  have hbound := hp.bound
  have hsize : lengthSize = 4 := rfl
  have hno : ¬p.Straddles := by
    simp only [Straddles]
    omega
  simp only [iterateThroughReadBuffer,hs,if_neg (show ¬p.cursor+lengthSize ≥ kBufferSize by omega)]
  rcases Nat.lt_or_ge p.bytesNotParsed lengthSize with hb | hb
  · simp only [if_pos hb]
    apply Pass.stop ⟨hp,by simp [hs],by omega⟩ rfl rfl _ (by simp [hno])
    intro _
    apply splitFrame_short
    simp only [unread,unreadBytes,hs,List.length_cons,window_length hbound]
    omega
  simp only [if_neg (show ¬p.bytesNotParsed < lengthSize by omega)]
  have hfield : htonl (ntohl (slice p.buffer p.cursor lengthSize)) =
      slice p.buffer p.cursor lengthSize :=
    htonl_ntohl (slice_length (by rw [p.buffer_length]; omega))
  have hw := window_split hb
  rw [← hfield] at hw
  generalize hn : ntohl (slice p.buffer p.cursor lengthSize) = n at hw ⊢
  split
  next hz =>
    change n = 0 at hz
    subst hz
    simp only [advance,setState_empty_zero]
    refine Pass.deliver (v := []) (n := 0) rfl rfl ?_ rfl ?_ ?_ hno rfl
    · simp only [onMessage]
      omega
    · simp only [unread,unreadBytes,hs,hw,List.cons_append,List.nil_append]
      rfl
    · simp only [onMessage]
      omega
  next hz =>
    change n ≠ 0 at hz
    have hpos : 0 < n.toNat :=
      Nat.pos_of_ne_zero (fun h => hz (UInt32.toNat_inj.mp (by simpa using h)))
    simp only [advance,setState_lengthRead]
    apply Pass.goOn
    case parsing =>
      constructor <;> simp only [reduceCtorEq,false_implies]
      · omega
      · exact fun _ => ⟨hpos,by omega⟩
    case stream =>
      simp only [stream,unread,unreadBytes,window,hs] at hw ⊢
      rw [hw]
      simp
    case sized => exact fun h => h
    case consumes => change p.bytesNotParsed-lengthSize < p.bytesNotParsed; omega
    case hno => exact hno
    case asserts => rfl

lemma pass_lengthRead (hs : p.state = .lengthRead) :
    Pass p p.iterateThroughReadBuffer.1 p.iterateThroughReadBuffer.2 := by
  obtain ⟨hpos,hcursor⟩ := hp.started hs
  have hbound := hp.bound
  have hlen : (slice p.buffer p.cursor p.bytesNotParsed).length = p.bytesNotParsed :=
    window_length hbound
  have hno : ¬p.Straddles := by simp [Straddles,hs]
  have hheld : p.unread = p.frame.typeId :: htonl p.frame.length ++ p.window := by
    simp only [unread,unreadBytes,hs]
  simp only [iterateThroughReadBuffer,hs]
  rcases Nat.lt_or_ge p.bytesNotParsed p.frame.length.toNat with hb | hb
  · simp only [if_neg (show ¬p.bytesNotParsed ≥ p.frame.length.toNat by omega)]
    by_cases hc : p.cursor+p.frame.length.toNat < kBufferSize
    · simp only [if_pos hc]
      apply Pass.stop ⟨hp,by simp [hs],by omega⟩ rfl rfl _ (by simp [hno])
      intro _
      rw [hheld,splitFrame_header,window_length hbound,if_neg (by omega)]
    · simp only [if_neg hc]
      rw [setState_copied rfl rfl]
      refine Pass.copy (v := p.window) rfl rfl ?_ (Nat.sub_self _) hbound rfl hheld hno rfl
      exact hlen.trans_lt hb
  · simp only [if_pos hb]
    have hvalue : (slice p.buffer p.cursor p.frame.length.toNat).length = p.frame.length.toNat :=
      slice_length (by rw [p.buffer_length]; omega)
    have hw := window_split hb
    rw [setState_empty_buffered rfl]
    refine Pass.deliver hvalue rfl ?_ rfl ?_ ?_ hno rfl
    · simp only [moveCursor,onMessage]
      omega
    · rw [hheld,hw]
      rfl
    · simp only [moveCursor,onMessage]
      omega

lemma pass_copied (hs : p.state = .valuePartiallyCopied) :
    Pass p p.iterateThroughReadBuffer.1 p.iterateThroughReadBuffer.2 := by
  obtain ⟨a,ha,hlen⟩ := hp.copied hs
  have hbound := hp.bound
  have hno : ¬p.Straddles := by simp [Straddles,hs]
  have hheld : p.unread = p.frame.typeId :: htonl p.frame.length ++ (a ++ p.window) := by
    simp only [unread,unreadBytes,hs,ha,Option.getD_some]
  simp only [iterateThroughReadBuffer,hs,ha,Option.getD_some]
  by_cases hm : a.length+p.bytesNotParsed ≥ p.frame.length.toNat
  · simp only [if_pos hm]
    have hmissing : p.frame.length.toNat-a.length ≤ p.bytesNotParsed := by omega
    have hvalue : (a ++ slice p.buffer p.cursor (p.frame.length.toNat-a.length)).length =
        p.frame.length.toNat := by
      rw [List.length_append,slice_length (by rw [p.buffer_length]; omega)]
      omega
    have hw := window_split hmissing
    rw [setState_empty_copied rfl rfl]
    refine Pass.deliver hvalue rfl ?_ rfl ?_ ?_ hno rfl
    · simp only [onMessage,advance]
      omega
    · rw [hheld,hw,List.append_assoc]
      rfl
    · simp only [onMessage,advance]
      omega
  · simp only [if_neg hm]
    have hshort : (a ++ slice p.buffer p.cursor p.bytesNotParsed).length <
        p.frame.length.toNat := by
      rw [List.length_append,slice_length (by rw [p.buffer_length]; exact hbound)]
      omega
    exact Pass.copy rfl rfl hshort (Nat.sub_self _) hbound rfl hheld hno rfl

theorem pass_iterate (hb : 0 < p.bytesNotParsed) :
    Pass p p.iterateThroughReadBuffer.1 p.iterateThroughReadBuffer.2 := by
  cases hs : p.state with
  | empty => exact pass_empty hp hs hb
  | typeRead => exact pass_typeRead hp hs
  | lengthRead => exact pass_lengthRead hp hs
  | valuePartiallyCopied => exact pass_copied hp hs

end Passes

structure Loop (p q : TlvParser) (ps : List TlvParser) : Prop where
  rests : q.Resting
  stream : q.stream = p.stream
  sized : (∀ f ∈ p.messages, f.Sized) → ∀ f ∈ q.messages, f.Sized
  settles : (∀ r ∈ ps, ¬r.Straddles) → splitFrame q.unread = none
  asserts : q.assertionsHold = (p.assertionsHold && ps.all (fun r => !decide r.Straddles))
  between : ∀ r ∈ ps, r.Parsing ∧ r.stream = p.stream ∧
    ((∀ f ∈ p.messages, f.Sized) → ∀ f ∈ r.messages, f.Sized)

section Loops
variable {p : TlvParser} {chunk : List UInt8}

lemma Parsing.exhausted (hp : p.Parsing) (hb : p.bytesNotParsed = 0) : Loop p p [] where
  rests := ⟨hp,fun _ => hb,.inl hb⟩
  stream := rfl
  sized h := h
  settles _ := by
    cases hs : p.state with
    | empty => simp [unread,unreadBytes,window,hs,hb,splitFrame_short]
    | typeRead => simp [unread,unreadBytes,window,hs,hb,splitFrame_short]
    | lengthRead =>
      have hpos := (hp.started hs).1
      simp only [unread,unreadBytes,window,hs,hb,slice_zero]
      rw [splitFrame_header,if_neg (by rw [List.length_nil]; omega)]
    | valuePartiallyCopied =>
      obtain ⟨a,ha,hlen⟩ := hp.copied hs
      simp only [unread,unreadBytes,window,hs,hb,ha,slice_zero,Option.getD_some,List.append_nil]
      rw [splitFrame_header,if_neg (by omega)]
  asserts := by simp
  between := by simp

theorem loop_parseLoop (fuel : ℕ) (hp : p.Parsing) (hf : p.bytesNotParsed ≤ fuel) :
    Loop p (parseLoop fuel p) (loopPasses fuel p) := by
  induction fuel generalizing p with
  | zero => exact hp.exhausted (by omega)
  | succ fuel ih =>
    by_cases hb : p.bytesNotParsed = 0
    · simp only [parseLoop,loopPasses,if_pos hb]
      exact hp.exhausted hb
    have hpass := pass_iterate hp (Nat.pos_of_ne_zero hb)
    simp only [parseLoop,loopPasses,if_neg hb]
    generalize p.iterateThroughReadBuffer = r at hpass ⊢
    obtain ⟨q,more⟩ := r
    have hasserts : q.assertionsHold = (p.assertionsHold && !decide p.Straddles) := hpass.asserts
    cases more with
    | true =>
      have hloop := ih hpass.parsing (by have := hpass.consumes rfl; omega)
      constructor
      case rests => exact hloop.rests
      case stream => exact hloop.stream.trans hpass.stream
      case sized => exact fun h => hloop.sized (hpass.sized h)
      case settles => exact fun h => hloop.settles fun r hr => h r (List.mem_cons_of_mem _ hr)
      case asserts => simp only [hloop.asserts,hasserts,List.all_cons,Bool.and_assoc]
      case between =>
        intro r hr
        rcases List.mem_cons.mp hr with rfl | hr
        · exact ⟨hp,rfl,fun h => h⟩
        · obtain ⟨hparsing,hstream,hsized⟩ := hloop.between r hr
          exact ⟨hparsing,hstream.trans hpass.stream,fun h => hsized (hpass.sized h)⟩
    | false =>
      constructor
      case rests => exact hpass.rests rfl
      case stream => exact hpass.stream
      case sized => exact hpass.sized
      case settles => exact fun h => hpass.settles rfl (h p (List.mem_singleton_self p))
      case asserts => simp [hasserts]
      case between =>
        intro r hr
        cases List.mem_singleton.mp hr
        exact ⟨hp,rfl,fun h => h⟩

/-- What `GetReadBuffer` leaves: a non-empty window right behind the unparsed bytes. -/
structure Window (p : TlvParser) (r : TlvParser × ReadWindow) : Prop where
  parsing : r.1.Parsing
  start : r.2.start = r.1.cursor+r.1.bytesNotParsed
  size : r.2.start+r.2.size = kBufferSize
  nonempty : 0 < r.2.size
  unread : r.1.unread = p.unread
  messages : r.1.messages = p.messages
  asserts : r.1.assertionsHold = p.assertionsHold

variable (hp : p.Resting)
include hp

lemma Resting.rewind (hc : p.cursor = kBufferSize) :
    (p.moveCursor 0).Resting ∧ (p.moveCursor 0).unread = p.unread := by
  have hb : p.bytesNotParsed = 0 := by
    have := hp.bound
    omega
  refine ⟨⟨⟨?_,?_,hp.copied⟩,hp.parsed,.inl hb⟩,?_⟩
  · simp only [moveCursor,hb]
    omega
  · exact fun hs => ⟨(hp.started hs).1,by simp [moveCursor,kBufferSize]⟩
  · simp only [unread,window,moveCursor,hb,slice_zero]

lemma window_of_room (hc : p.cursor < kBufferSize) : Window p (p.getReadBuffer) := by
  have hroom : p.cursor+p.bytesNotParsed < kBufferSize := by
    rcases hp.room with hb | hb <;> omega
  have hne : p.cursor ≠ kBufferSize := by omega
  have hparsed := hp.parsed
  have heq : p.getReadBuffer = (p,⟨p.cursor+p.bytesNotParsed,
      kBufferSize-(p.cursor+p.bytesNotParsed)⟩) := by
    cases hs : p.state with
    | empty => simp [getReadBuffer,hs,hne,hc.le,hparsed (.inl hs)]
    | typeRead => simp [getReadBuffer,hs,hne,hc.le,hroom]
    | lengthRead => simp [getReadBuffer,hs,hne,hc.le,hroom]
    | valuePartiallyCopied => simp [getReadBuffer,hs,hne,hc.le,hparsed (.inr hs)]
  rw [heq]
  exact ⟨hp.toParsing,rfl,Nat.add_sub_cancel' hroom.le,Nat.sub_pos_of_lt hroom,rfl,rfl,rfl⟩

theorem window_getReadBuffer : Window p (p.getReadBuffer) := by
  have hbound := hp.bound
  rcases Nat.lt_or_ge p.cursor kBufferSize with hc | hc
  · exact window_of_room hp hc
  have hc : p.cursor = kBufferSize := by omega
  obtain ⟨hrest,hunread⟩ := hp.rewind hc
  have heq : p.getReadBuffer = (p.moveCursor 0).getReadBuffer := by
    simp [getReadBuffer,hc,moveCursor,kBufferSize]
  have hw := window_of_room hrest (by simp [moveCursor,kBufferSize])
  rw [heq]
  exact { hw with unread := hw.unread.trans hunread }

lemma fill_spec (hfit : chunk.length ≤ p.getReadBuffer.2.size) :
    ((p.fill chunk).received chunk.length).Parsing ∧
      ((p.fill chunk).received chunk.length).stream = p.stream ++ chunk ∧
      (p.fill chunk).messages = p.messages ∧ (p.fill chunk).assertionsHold = p.assertionsHold := by
  have hw := window_getReadBuffer hp
  have hlen : p.getReadBuffer.2.start+chunk.length ≤ kBufferSize := by
    have := hw.size
    omega
  have hslice : slice (splice p.getReadBuffer.1.buffer p.getReadBuffer.2.start chunk)
      p.getReadBuffer.1.cursor (p.getReadBuffer.1.bytesNotParsed+chunk.length) =
      p.getReadBuffer.1.window ++ chunk := by
    rw [hw.start]
    apply slice_splice
    rw [TlvParser.buffer_length]
    rw [hw.start] at hlen
    exact hlen
  have hparsing := hw.parsing
  have hstart := hw.start
  refine ⟨⟨?_,?_,?_⟩,?_,?_,?_⟩ <;> simp only [fill,store,dif_pos hlen,received]
  · omega
  · exact hparsing.started
  · exact hparsing.copied
  · have hstream : p.getReadBuffer.1.stream = p.stream := by
      rw [TlvParser.stream,hw.messages,hw.unread,← TlvParser.stream]
    rw [← hstream]
    simp only [TlvParser.stream,unread,window] at hslice ⊢
    rw [hslice,unreadBytes_append,List.append_assoc]
  · exact hw.messages
  · exact hw.asserts

theorem loop_read (hfit : chunk.length ≤ p.getReadBuffer.2.size) :
    ∃ q : TlvParser, q.stream = p.stream ++ chunk ∧ q.messages = p.messages ∧
      q.assertionsHold = p.assertionsHold ∧ Loop q (p.read chunk) (p.readPasses chunk) := by
  obtain ⟨hparsing,hstream,hmessages,hasserts⟩ := fill_spec hp hfit
  exact ⟨_,hstream,hmessages,hasserts,loop_parseLoop _ hparsing le_rfl⟩

end Loops
end TlvParser
end Strij.Io
