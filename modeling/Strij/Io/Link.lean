import Strij.Io.TlvRun
import Strij.Io.WriteQueue

/-! Two ends of a connection: the write queue of one, the socket between them, and the TLV parser of the other.
No byte is lost on the way, whatever the sizes of the writes and of the reads. -/
namespace Strij.Io
open Strij.Lib

structure Link where
  sender : WriteQueue := {}
  taken : ℕ := 0
  parser : TlvParser := {}
  sent : List TlvFrame := []

inductive LinkEvent
  | send (frame : TlvFrame)
  | done (i count : ℕ)
  | read (count : ℕ)

namespace Link

/-- The bytes between the two ends. -/
def inFlight (l : Link) : List UInt8 := l.sender.accepted.drop l.taken

def step (l : Link) : LinkEvent → Option Link
  | .send frame => some { l with
      sender := l.sender.write (serializeTlvFrame frame.typeId frame.value)
      sent := l.sent ++ [frame] }
  | .done i count => (l.sender.step (.done i count)).map fun q => { l with sender := q }
  | .read count =>
    if count ≤ l.inFlight.length ∧ count ≤ l.parser.getReadBuffer.2.size then
      some { l with taken := l.taken+count, parser := l.parser.read (l.inFlight.take count) }
    else none

variable {l l' : Link}

structure Inv (l : Link) : Prop where
  stream : ∃ stream, l.sender.Refines stream ∧ stream.written = wire l.sent
  taken : l.taken ≤ l.sender.accepted.length
  parser : TlvParser.Between (l.sender.accepted.take l.taken) l.parser

lemma write_accepted (q : WriteQueue) (data : List UInt8) : (q.write data).accepted = q.accepted := by
  rw [WriteQueue.write]
  dsimp only
  split <;> rfl

lemma done_accepted {q q' : WriteQueue} {i count : ℕ} (h : q.step (.done i count) = some q') :
    q.accepted <+: q'.accepted := by
  rw [WriteQueue.step] at h
  split at h
  · cases h
  · obtain ⟨-,h⟩ := Option.ite_none_right_eq_some.mp h
    cases h
    rw [WriteQueue.handleWrite_eq]
    split <;> exact List.prefix_append _ _

lemma Inv.step (h : l.Inv) {e : LinkEvent} (hstep : l.step e = some l') : l'.Inv := by
  obtain ⟨⟨stream,hrefines,hwritten⟩,htaken,hparser⟩ := h
  cases e with
  | send frame =>
    cases hstep
    refine ⟨⟨_,hrefines.write _,?_⟩,?_,?_⟩
    · simp [ByteStream.write,hwritten,wire]
    · rw [write_accepted]
      exact htaken
    · rw [write_accepted]
      exact hparser
  | done i count =>
    obtain ⟨q,hq,rfl⟩ := Option.map_eq_some_iff.mp hstep
    obtain ⟨more,hmore⟩ := done_accepted hq
    refine ⟨⟨_,hrefines.done hq,hwritten⟩,?_,?_⟩
    · exact htaken.trans (List.IsPrefix.length_le ⟨more,hmore⟩)
    · rw [← hmore,List.take_append_of_le_length htaken]
      exact hparser
  | read count =>
    obtain ⟨⟨hthere,hfits⟩,hstep⟩ := Option.ite_none_right_eq_some.mp hstep
    cases hstep
    have hlength : (l.inFlight.take count).length = count := by rw [List.length_take,min_eq_left hthere]
    refine ⟨⟨stream,hrefines,hwritten⟩,?_,?_⟩
    · rw [inFlight,List.length_drop] at hthere
      dsimp only
      omega
    · rw [List.take_add]
      exact hparser.read (hlength.trans_le hfits)

/-- Over any run, the frames that were delivered, the bytes that the parser holds, those in the socket and those
still queued are together what was sent. So a prefix of the frames is delivered, and all of them once nothing is
on its way and no whole frame is held back. -/
theorem frames_conserved (events : List LinkEvent) (l : Link) (hrun : runAll step {} events = some l)
    (hsized : ∀ f ∈ l.sent, f.Sized) :
    wire l.parser.messages ++ l.parser.unread ++ l.inFlight ++ l.sender.writeQueue.flatten.drop l.sender.writeOffset =
        wire l.sent ∧
      l.parser.messages <+: l.sent ∧
      (l.sender.writeQueue = [] → l.inFlight = [] → splitFrame l.parser.unread = none → l.parser.messages = l.sent) := by
  have hinv : l.Inv := by
    refine runAll_invariant (P := fun _ _ => True) (fun _ _ _ h _ hstep => h.step hstep) ?_
      (.of_forall fun _ _ => trivial) hrun
    exact ⟨⟨{},⟨rfl,.inl rfl,rfl,le_rfl,rfl⟩,rfl⟩,le_rfl,TlvParser.between_initial⟩
  obtain ⟨⟨stream,hrefines,hwritten⟩,-,hparser⟩ := hinv
  have hread : wire l.parser.messages ++ l.parser.unread = l.sender.accepted.take l.taken := hparser.stream
  have htotal : wire l.parser.messages ++ l.parser.unread ++ l.inFlight ++
      l.sender.writeQueue.flatten.drop l.sender.writeOffset = wire l.sent := by
    rw [hread,inFlight,List.take_append_drop,hrefines.accepted,hrefines.queued,ByteStream.accepted,
      List.take_append_drop,hwritten]
  have hdelivered : l.parser.messages <+: l.sent := by
    rw [List.append_assoc,List.append_assoc] at htotal
    exact wire_prefix_cancel hparser.sized hsized htotal
  refine ⟨htotal,hdelivered,fun hqueue hsocket hheld => ?_⟩
  obtain ⟨rest,hrest⟩ := hdelivered
  rw [hqueue,hsocket,← hrest] at htotal
  have hunread : l.parser.unread = wire rest := by simpa [wire] using htotal
  cases rest with
  | nil => simpa using hrest
  | cons f rest =>
    have hf : f.Sized := hsized f (hrest ▸ by simp)
    rw [hunread,wire,List.map_cons,List.flatten_cons,splitFrame_serialize hf] at hheld
    cases hheld

/-- Two frames; the socket takes five bytes and then the rest, and they are read in two pieces. -/
def twoFrames : List LinkEvent :=
  [.send ⟨7,[5,6]⟩,.send ⟨9,[]⟩,.done 0 5,.read 3,.done 0 2,.read 4,.done 0 5,.read 5]

theorem frames_conserved_two : ∃ l, runAll step {} twoFrames = some l ∧ l.sent = [⟨7,[5,6]⟩,⟨9,[]⟩] ∧
    l.parser.messages = l.sent := by
  have hrun : (runAll step {} twoFrames).any (fun l => l.sent = [⟨7,[5,6]⟩,⟨9,[]⟩] ∧ l.sender.writeQueue = [] ∧
    l.inFlight = [] ∧ splitFrame l.parser.unread = none) = true := by decide +kernel
  obtain ⟨l,hl,hend⟩ := (Option.any_eq_true _ _).mp hrun
  obtain ⟨hsent,hqueue,hsocket,hheld⟩ := of_decide_eq_true hend
  exact ⟨l,hl,hsent,(frames_conserved twoFrames l hl (hsent ▸ by decide)).2.2 hqueue hsocket hheld⟩

end Link
end Strij.Io
