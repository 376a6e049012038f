import Strij.Io.TlvParserSpec

/-! Whole runs of the TLV parser: the frames delivered are all the frames received in full unless some pass
finds a length field ending exactly at the end of the read buffer. -/
namespace Strij.Io.TlvParser

/-- The parser between two reads, with the bytes received so far. -/
structure Between (bytes : List UInt8) (p : TlvParser) : Prop where
  rests : p.Resting
  stream : p.stream = bytes
  sized : ∀ f ∈ p.messages, f.Sized

structure Point (bytes : List UInt8) (p : TlvParser) : Prop where
  parsing : p.Parsing
  stream : p.stream = bytes
  sized : ∀ f ∈ p.messages, f.Sized

lemma Between.point {bytes : List UInt8} {p : TlvParser} (h : Between bytes p) : Point bytes p :=
  ⟨h.rests.toParsing,h.stream,h.sized⟩

lemma between_initial : Between [] {} where
  rests := ⟨⟨by simp,by simp,by simp⟩,by simp,by simp⟩
  stream := rfl
  sized := by simp

section Reads
variable {bytes : List UInt8} {p : TlvParser} {c : List UInt8} {cs : List (List UInt8)}

lemma Between.read (h : Between bytes p) (hfit : c.length ≤ p.getReadBuffer.2.size) :
    Between (bytes ++ c) (p.read c) := by
  obtain ⟨q,hstream,hmessages,-,hloop⟩ := loop_read h.rests hfit
  exact ⟨hloop.rests,by rw [hloop.stream,hstream,h.stream],
    hloop.sized (by rw [hmessages]; exact h.sized)⟩

lemma Between.readPasses (h : Between bytes p) (hfit : c.length ≤ p.getReadBuffer.2.size) :
    ∀ r ∈ p.readPasses c, Point (bytes ++ c) r := by
  intro r hr
  obtain ⟨q,hstream,hmessages,-,hloop⟩ := loop_read h.rests hfit
  obtain ⟨hparsing,hr,hsized⟩ := hloop.between r hr
  exact ⟨hparsing,by rw [hr,hstream,h.stream],hsized (by rw [hmessages]; exact h.sized)⟩

lemma Between.points (h : Between bytes p) (hfit : Fits cs p) : ∀ x ∈ points cs bytes p, Point x.1 x.2 := by
  induction cs generalizing bytes p with
  | nil =>
    intro x hx
    cases List.mem_singleton.mp hx
    exact h.point
  | cons c cs ih =>
    intro x hx
    simp only [TlvParser.points,List.cons_append,List.mem_cons,List.mem_append,List.mem_map] at hx
    rcases hx with rfl | ⟨r,hr,rfl⟩ | hx
    · exact h.point
    · exact h.readPasses hfit.1 r hr
    · exact ih (h.read hfit.1) hfit.2 x hx

lemma points_received : ∀ x ∈ points cs bytes p, x.1 <+: bytes ++ cs.flatten := by
  induction cs generalizing bytes p with
  | nil =>
    intro x hx
    cases List.mem_singleton.mp hx
    simp
  | cons c cs ih =>
    intro x hx
    simp only [TlvParser.points,List.cons_append,List.mem_cons,List.mem_append,List.mem_map] at hx
    rw [List.flatten_cons,← List.append_assoc]
    rcases hx with rfl | ⟨r,-,rfl⟩ | hx
    · exact (List.prefix_append _ _).trans (List.prefix_append _ _)
    · exact List.prefix_append _ _
    · exact ih x hx

end Reads

/-- The frames delivered are a prefix of the frames sent, at every point of every fragmentation;
the remaining bytes received are those the parser still holds. -/
theorem delivered_of_sent (frames : List TlvFrame) (hframes : ∀ f ∈ frames, f.Sized)
    (chunks : List (List UInt8)) (hchunks : chunks.flatten = wire frames) (hfit : Fits chunks {}) :
    ∀ x ∈ points chunks [] {}, x.2.messages <+: frames ∧ x.1 = wire x.2.messages ++
        unreadBytes x.2.state x.2.frame x.2.accumulatedValue
          (Lib.slice x.2.buffer x.2.cursor x.2.bytesNotParsed) ∧
      x.2.cursor+x.2.bytesNotParsed ≤ kBufferSize := by
  intro x hx
  have hpoint := between_initial.points hfit x hx
  have hreceived : x.1 <+: wire frames := by
    rw [← hchunks]
    exact points_received x hx
  have hstream : wire x.2.messages ++ x.2.unread = x.1 := hpoint.stream
  obtain ⟨rest,hrest⟩ := hreceived
  rw [← hstream,List.append_assoc] at hrest
  exact ⟨wire_prefix_cancel hpoint.sized hframes hrest,hstream.symm,hpoint.parsing.bound⟩

/-- Two frames, the first with a value, read three and nine bytes at a time. -/
theorem delivered_of_sent_two : wire [⟨7,[5,6]⟩,⟨9,[]⟩] = [7,0,0,0,2,5,6,9,0,0,0,0] ∧
    ∀ x ∈ points [[7,0,0],[0,2,5,6,9,0,0,0,0]] [] {}, x.2.messages <+: [⟨7,[5,6]⟩,⟨9,[]⟩] ∧
      x.1 = wire x.2.messages ++ unreadBytes x.2.state x.2.frame x.2.accumulatedValue
          (Lib.slice x.2.buffer x.2.cursor x.2.bytesNotParsed) ∧
      x.2.cursor+x.2.bytesNotParsed ≤ kBufferSize :=
  ⟨by decide,delivered_of_sent [⟨7,[5,6]⟩,⟨9,[]⟩] (by decide) [[7,0,0],[0,2,5,6,9,0,0,0,0]] (by decide)
    (by decide)⟩

section Promptness
variable {bytes : List UInt8} {p : TlvParser} {cs : List (List UInt8)}

lemma Between.run (h : Between bytes p) (hfit : Fits cs p) : Between (bytes ++ cs.flatten) (p.run cs) ∧
      (p.run cs).assertionsHold = (p.assertionsHold && (passes cs p).all (fun r => !decide r.Straddles)) := by
  induction cs generalizing bytes p with
  | nil => simpa [TlvParser.run,passes] using h
  | cons c cs ih =>
    obtain ⟨q,-,-,hasserts,hloop⟩ := loop_read h.rests hfit.1
    obtain ⟨hrun,hrest⟩ := ih (h.read hfit.1) hfit.2
    rw [List.append_assoc,← List.flatten_cons] at hrun
    refine ⟨hrun,?_⟩
    rw [TlvParser.run,hrest,hloop.asserts,hasserts,passes,List.all_append,Bool.and_assoc]

lemma Between.settled (h : Between bytes p) (hfit : Fits cs p)
    (hno : ∀ r ∈ passes cs p, ¬r.Straddles) (hp : splitFrame p.unread = none) :
    splitFrame (p.run cs).unread = none := by
  induction cs generalizing bytes p with
  | nil => exact hp
  | cons c cs ih =>
    obtain ⟨q,-,-,-,hloop⟩ := loop_read h.rests hfit.1
    exact ih (h.read hfit.1) hfit.2 (fun r hr => hno r (List.mem_append_right _ hr))
      (hloop.settles fun r hr => hno r (List.mem_append_left _ hr))

/-- Nothing deliverable is held back when the unread bytes hold no whole frame. -/
lemma Between.delivered (h : Between bytes p) (hp : splitFrame p.unread = none) :
    p.messages = wholeFrames bytes := by
  have hstream : wire p.messages ++ p.unread = bytes := h.stream
  rw [← hstream,wholeFrames_wire h.sized,wholeFrames_of_none hp,List.append_nil]

lemma Fits.init {ds : List (List UInt8)} (h : Fits (cs ++ ds) p) : Fits cs p := by
  induction cs generalizing p with
  | nil => trivial
  | cons c cs ih => exact ⟨h.1,ih h.2⟩

lemma passes_append (cs ds : List (List UInt8)) :
    passes (cs ++ ds) p = passes cs p ++ passes ds (p.run cs) := by
  induction cs generalizing p with
  | nil => rfl
  | cons c cs ih => simp only [List.cons_append,passes,TlvParser.run,ih,List.append_assoc]

/-- After the reads `done`: no assertion has failed, the next window is not empty, and the frames
delivered are the frames wholly contained in the bytes received. -/
structure Prompt (done : List (List UInt8)) : Prop where
  asserts : (run done {}).getReadBuffer.1.assertionsHold = true
  window : 0 < (run done {}).getReadBuffer.2.size
  delivered : (run done {}).messages = wholeFrames done.flatten

end Promptness

/-- A run is prompt and free of failed assertions exactly when no pass of its parse loops finds the
four bytes of a length field at the very end of the read buffer with nothing behind them. -/
theorem prompt_iff_no_straddle (chunks : List (List UInt8)) (hfit : Fits chunks {}) :
    (∀ done, done <+: chunks → Prompt done) ↔ ∀ r ∈ passes chunks {}, ¬r.Straddles := by
  constructor
  · intro h r hr hs
    have hasserts := (h chunks List.prefix_rfl).asserts
    obtain ⟨hrun,hall⟩ := between_initial.run hfit
    rw [(window_getReadBuffer hrun.rests).asserts,hall,Bool.true_and,List.all_eq_true] at hasserts
    simpa [hs] using hasserts r hr
  · rintro hno done ⟨rest,rfl⟩
    have hno : ∀ r ∈ passes done {}, ¬r.Straddles := fun r hr =>
      hno r (by rw [passes_append]; exact List.mem_append_left _ hr)
    obtain ⟨hrun,hall⟩ := between_initial.run hfit.init
    have hw := window_getReadBuffer hrun.rests
    have hsettled := between_initial.settled hfit.init hno rfl
    refine ⟨?_,hw.nonempty,hrun.delivered hsettled⟩
    rw [hw.asserts,hall,Bool.true_and,List.all_eq_true]
    intro r hr
    simp [hno r hr]

/-- A frame split over two reads is delivered with the second. -/
theorem prompt_iff_no_straddle_split : (∀ done, done <+: [[7,0,0],[0,2,5,6]] → Prompt done) ↔
      ∀ r ∈ passes [[7,0,0],[0,2,5,6]] {}, ¬r.Straddles :=
  prompt_iff_no_straddle [[7,0,0],[0,2,5,6]] (by decide)

/-- A frame of 4091 bytes, then a header that ends with the buffer. -/
def straddlingFrames : List TlvFrame := [⟨1,List.replicate 4086 0⟩,⟨2,[]⟩]

/-- Both frames arrive in one read that fits; an assertion fails and the second is held back. -/
theorem not_prompt_at_buffer_end :
    Fits [wire straddlingFrames] {} ∧ (run [wire straddlingFrames] {}).assertionsHold = false ∧
      (run [wire straddlingFrames] {}).messages.map TlvFrame.typeId = [1] ∧
      (wholeFrames [wire straddlingFrames].flatten).map TlvFrame.typeId = [1,2] := by
  refine ⟨by decide +kernel,by decide +kernel,by decide +kernel,?_⟩
  rw [List.flatten_singleton,wholeFrames_wire_self (by decide +kernel)]
  rfl

end Strij.Io.TlvParser
