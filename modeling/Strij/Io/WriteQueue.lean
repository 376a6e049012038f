import Strij.Io.Transmission

/-! The write half of an open connection as a pipe: the queue and the spans given to the dispatcher refine a
stream of bytes of which a first part has arrived. -/
namespace Strij.Io
open Strij.Lib

/-- The queue with the spans of the writes that have not completed, and the bytes the socket accepted. -/
structure WriteQueue where
  writeQueue : List (List UInt8) := []
  writeOffset : ℕ := 0
  outstanding : List (List UInt8) := []
  accepted : List UInt8 := []

inductive WriteEvent
  | write (data : List UInt8)
  | done (i count : ℕ)

def WriteEvent.onConnection {κ : Type*} : WriteEvent → ConnectionEvent κ
  | .write data => .call (.write data)
  | .done _ count => .writeDone count

namespace WriteQueue
variable (q : WriteQueue)

def front : List UInt8 := q.writeQueue.head?.getD []

def prepareWrite (span : List UInt8) : WriteQueue := { q with outstanding := q.outstanding ++ [span] }

def write (data : List UInt8) : WriteQueue :=
  let q := { q with writeQueue := q.writeQueue ++ [data] }
  if q.writeQueue.length = 1 then q.prepareWrite q.front else q

def handleWrite (count : ℕ) : WriteQueue :=
  let q := { q with writeOffset := q.writeOffset+count }
  if q.writeOffset < q.front.length then q.prepareWrite (q.front.drop q.writeOffset)
  else
    let q := { q with writeQueue := q.writeQueue.tail, writeOffset := 0 }
    if q.writeQueue ≠ [] then q.prepareWrite q.front else q

def step (q : WriteQueue) : WriteEvent → Option WriteQueue
  | .write data => some (q.write data)
  | .done i count =>
    match q.outstanding[i]? with
    | none => none
    | some span =>
      if 0 < count ∧ count ≤ span.length then
        some ({ q with
          outstanding := q.outstanding.eraseIdx i
          accepted := q.accepted ++ span.take count }.handleWrite count)
      else none

end WriteQueue

def writtenBuffers (events : List WriteEvent) : List (List UInt8) :=
  events.filterMap fun
    | .write data => some data
    | .done _ _ => none

/-- A stream of bytes: those that were written, and how many of them have arrived. -/
structure ByteStream where
  written : List UInt8 := []
  arrived : ℕ := 0

namespace ByteStream
variable (stream : ByteStream)

def accepted : List UInt8 := stream.written.take stream.arrived

def write (data : List UInt8) : ByteStream := { stream with written := stream.written ++ data }

def arrive (count : ℕ) : ByteStream := { stream with arrived := stream.arrived+count }

end ByteStream

namespace WriteQueue
variable {q q' : WriteQueue} {stream : ByteStream}

/-- The queue refines the stream: its one outstanding write is for the rest of the first buffer, and it
holds the bytes of the stream that have not arrived. -/
structure Refines (q : WriteQueue) (stream : ByteStream) : Prop where
  outstanding : q.outstanding = if q.writeQueue = [] then [] else [q.front.drop q.writeOffset]
  offset : q.writeOffset = 0 ∨ q.writeOffset < q.front.length
  accepted : q.accepted = stream.accepted
  arrived : stream.arrived ≤ stream.written.length
  queued : q.writeQueue.flatten.drop q.writeOffset = stream.written.drop stream.arrived

lemma Refines.write (h : q.Refines stream) (data : List UInt8) : (q.write data).Refines (stream.write data) := by
  have haccepted : q.accepted = (stream.write data).accepted := by
    rw [h.accepted,ByteStream.accepted,ByteStream.accepted,ByteStream.write,List.take_append_of_le_length h.arrived]
  have harrived : stream.arrived ≤ (stream.write data).written.length := by
    have := h.arrived
    simp only [ByteStream.write,List.length_append]
    omega
  cases hqueue : q.writeQueue with
  | nil =>
    have hzero : q.writeOffset = 0 := by simpa [front,hqueue] using h.offset
    have hall : stream.written.drop stream.arrived = [] := by simpa [hqueue] using h.queued.symm
    have hwrite : q.write data = { q with writeQueue := [data], outstanding := [data] } := by
      simp [WriteQueue.write,prepareWrite,front,hqueue,h.outstanding]
    rw [hwrite]
    refine ⟨?_,.inl hzero,haccepted,harrived,?_⟩
    · simp [front,hzero]
    · simp [ByteStream.write,List.drop_append_of_le_length h.arrived,hzero,hall]
  | cons b rest =>
    have hwrite : q.write data = { q with writeQueue := q.writeQueue ++ [data] } := by
      simp [WriteQueue.write,hqueue]
    have hfront : front { q with writeQueue := q.writeQueue ++ [data] } = q.front := by simp [front,hqueue]
    have hoffset : q.writeOffset ≤ q.writeQueue.flatten.length := by
      have := h.offset
      simp only [front,hqueue,List.head?_cons,Option.getD_some] at this
      simp only [hqueue,List.flatten_cons,List.length_append]
      omega
    rw [hwrite]
    refine ⟨?_,hfront ▸ h.offset,haccepted,harrived,?_⟩
    · rw [hfront]
      simpa [hqueue] using h.outstanding
    · simp [ByteStream.write,List.drop_append_of_le_length h.arrived,List.drop_append_of_le_length hoffset,h.queued]

lemma handleWrite_eq (q : WriteQueue) (count : ℕ) : q.handleWrite count =
    if q.writeOffset+count < q.front.length then { q with
      writeOffset := q.writeOffset+count
      outstanding := q.outstanding ++ [q.front.drop (q.writeOffset+count)] }
    else { q with
      writeQueue := q.writeQueue.tail
      writeOffset := 0
      outstanding := q.outstanding ++ q.writeQueue.tail.head?.toList } := by
  by_cases hlt : q.writeOffset+count < q.front.length
  · rw [if_pos hlt]
    exact if_pos hlt
  · rw [if_neg hlt]
    refine (if_neg hlt).trans ?_
    cases q.writeQueue.tail <;> simp [prepareWrite,front]

lemma Refines.done (h : q.Refines stream) {i count : ℕ} (hstep : q.step (.done i count) = some q') :
    q'.Refines (stream.arrive count) := by
  rw [step,h.outstanding] at hstep
  cases hqueue : q.writeQueue with
  | nil => simp [hqueue] at hstep
  | cons b rest =>
    have hfront : q.front = b := by simp [front,hqueue]
    have hoffset : q.writeOffset ≤ b.length := by
      have := hfront ▸ h.offset
      omega
    have hstream : stream.written.drop stream.arrived = b.drop q.writeOffset ++ rest.flatten := by
      rw [← h.queued,hqueue,List.flatten_cons,List.drop_append_of_le_length hoffset]
    rw [hqueue,if_neg (by simp),hfront] at hstep
    cases i with
    | succ i => simp at hstep
    | zero =>
      obtain ⟨⟨-,hcount⟩,hq'⟩ := Option.ite_none_right_eq_some.mp hstep
      have hcount' : q.writeOffset+count ≤ b.length := by
        rw [List.length_drop] at hcount
        omega
      have harrived : stream.arrived+count ≤ stream.written.length := by
        have hlength := congrArg List.length hstream
        have := h.arrived
        simp only [List.length_drop,List.length_append] at hlength hcount
        omega
      have haccepted : q.accepted ++ (b.drop q.writeOffset).take count = (stream.arrive count).accepted := by
        rw [h.accepted,ByteStream.accepted,ByteStream.accepted,ByteStream.arrive,List.take_add,hstream,
          List.take_append_of_le_length hcount]
      have hqueued : stream.written.drop (stream.arrived+count) =
          b.drop (q.writeOffset+count) ++ rest.flatten := by
        rw [← List.drop_drop,hstream,List.drop_append_of_le_length hcount,List.drop_drop]
      cases hq'
      rw [handleWrite_eq]
      split
      · next hlt =>
        refine ⟨by simp [front],.inr hlt,haccepted,harrived,?_⟩
        change (b :: rest).flatten.drop (q.writeOffset+count) = stream.written.drop (stream.arrived+count)
        rw [hqueued,List.flatten_cons,List.drop_append_of_le_length hcount']
      · next hge =>
        have hall : b.drop (q.writeOffset+count) = [] := List.drop_eq_nil_of_le (Nat.le_of_not_lt hge)
        rw [hall,List.nil_append] at hqueued
        refine ⟨?_,.inl rfl,haccepted,harrived,hqueued.symm⟩
        cases rest <;> rfl

theorem Refines.run (h : q.Refines stream) {events : List WriteEvent} (hrun : runAll step q events = some q') :
    ∃ stream', q'.Refines stream' ∧ stream'.written = stream.written ++ (writtenBuffers events).flatten := by
  induction events generalizing q stream with
  | nil =>
    cases hrun
    exact ⟨stream,h,by simp [writtenBuffers]⟩
  | cons e events ih =>
    obtain ⟨next,hstep,hrest⟩ := Option.bind_eq_some_iff.mp hrun
    cases e with
    | write data =>
      cases hstep
      obtain ⟨stream',h',hwritten⟩ := ih (h.write data) hrest
      exact ⟨stream',h',by simp [hwritten,writtenBuffers,ByteStream.write]⟩
    | done i count =>
      obtain ⟨stream',h',hwritten⟩ := ih (h.done hstep) hrest
      exact ⟨stream',h',by simp [hwritten,writtenBuffers,ByteStream.arrive]⟩

section Connection
variable {σ κ : Type*} {c c' : Connection σ κ} {p : ProtocolParser σ κ}

/-- The connection is open, and these are its queue and its writes. -/
structure Models (q : WriteQueue) (c : Connection σ κ) : Prop where
  isOpen : c.isOpen = true
  queue : c.writeQueue = q.writeQueue
  offset : c.writeOffset = q.writeOffset
  writes : c.writes = q.outstanding.length

lemma Models.write (h : q.Models c) (data : List UInt8) : (q.write data).Models (c.write data) := by
  obtain ⟨hopen,hqueue,hoffset,hwrites⟩ := h
  rw [Connection.write,if_neg (by simp [hopen]),WriteQueue.write,prepareWrite]
  cases hempty : q.writeQueue with
  | nil =>
    rw [hempty] at hqueue
    exact ⟨hopen,by simp [hqueue],by simpa using hoffset,by simp [hqueue,hwrites]⟩
  | cons b rest =>
    rw [hempty] at hqueue
    exact ⟨hopen,by simp [hqueue],by simpa using hoffset,by simp [hqueue,hwrites]⟩

lemma Models.handleWrite (h : q.Models c) (count : ℕ) : (q.handleWrite count).Models (c.handleWrite count) := by
  obtain ⟨hopen,hqueue,hoffset,hwrites⟩ := h
  rw [Connection.handleWrite,handleWrite_eq,hqueue,hoffset,← front]
  split
  · exact ⟨hopen,rfl,rfl,by simp [hwrites]⟩
  · refine ⟨hopen,rfl,rfl,?_⟩
    cases htail : q.writeQueue.tail <;> simp [hwrites]

lemma Models.step (h : q.Models c) {e : WriteEvent} (hq : q.step e = some q') :
    ∃ c', c.step p e.onConnection = some c' ∧ q'.Models c' := by
  cases e with
  | write data =>
    cases hq
    exact ⟨_,rfl,h.write data⟩
  | done i count =>
    rw [WriteQueue.step] at hq
    cases hspan : q.outstanding[i]? with
    | none => simp [hspan] at hq
    | some span =>
      have hi := (List.getElem?_eq_some_iff.mp hspan).1
      rw [hspan] at hq
      obtain ⟨-,hq⟩ := Option.ite_none_right_eq_some.mp hq
      cases hq
      refine ⟨_,if_neg (by rw [h.writes]; omega),?_⟩
      apply Models.handleWrite
      exact ⟨h.isOpen,h.queue,h.offset,by simp only [List.length_eraseIdx_of_lt hi,h.writes]⟩

theorem Models.run (h : q.Models c) {events : List WriteEvent} (hrun : runAll WriteQueue.step q events = some q') :
    ∃ c', runAll (Connection.step p) c (events.map WriteEvent.onConnection) = some c' ∧ q'.Models c' := by
  induction events generalizing q c with
  | nil =>
    cases hrun
    exact ⟨c,rfl,h⟩
  | cons e events ih =>
    obtain ⟨next,hstep,hrest⟩ := Option.bind_eq_some_iff.mp hrun
    obtain ⟨c₁,hc₁,h₁⟩ := h.step (p := p) hstep
    obtain ⟨c₂,hc₂,h₂⟩ := ih h₁ hrest
    exact ⟨c₂,Option.bind_eq_some_iff.mpr ⟨c₁,hc₁,hc₂⟩,h₂⟩

/-- The connection does what the queue does, over any sequence of writes and positive completions. It stays open,
one write is outstanding exactly while something is queued, and what the socket accepted is followed by what the
connection still holds. -/
theorem connection_conserves (p : ProtocolParser σ κ) (parser : σ) (events : List WriteEvent) (q : WriteQueue)
    (hrun : runAll WriteQueue.step {} events = some q) :
    ∃ c, runAll (Connection.step p) (.init parser) (events.map WriteEvent.onConnection) = some c ∧
      c.isOpen = true ∧ c.writes = (if c.writeQueue = [] then 0 else 1) ∧
      q.accepted ++ c.writeQueue.flatten.drop c.writeOffset = (writtenBuffers events).flatten := by
  have hmodels : ({} : WriteQueue).Models (.init parser : Connection σ κ) := ⟨rfl,rfl,rfl,rfl⟩
  have hrefines : ({} : WriteQueue).Refines {} := ⟨rfl,.inl rfl,rfl,le_rfl,rfl⟩
  obtain ⟨c,hc,h⟩ := hmodels.run (p := p) hrun
  obtain ⟨stream,hstream,hwritten⟩ := hrefines.run hrun
  refine ⟨c,hc,h.isOpen,?_,?_⟩
  · rw [h.writes,h.queue,hstream.outstanding]
    split <;> rfl
  · rw [h.queue,h.offset,hstream.queued,hstream.accepted,ByteStream.accepted,List.take_append_drop,hwritten]
    rfl

end Connection

/-- Over any sequence of writes and positive completions: at most one write is outstanding, it is there
exactly while something is queued and is for the rest of the first buffer, and what the socket accepted
is the first part of what was written, and all of it when nothing is outstanding. -/
theorem faithful_pipe (events : List WriteEvent) (q : WriteQueue) (hrun : runAll step {} events = some q) :
    q.outstanding.length ≤ 1 ∧ (q.outstanding ≠ [] ↔ q.writeQueue ≠ []) ∧
      (∀ span ∈ q.outstanding, span = q.front.drop q.writeOffset) ∧
      q.accepted <+: (writtenBuffers events).flatten ∧
      (q.outstanding = [] → q.accepted = (writtenBuffers events).flatten) := by
  have hstart : ({} : WriteQueue).Refines {} := ⟨rfl,.inl rfl,rfl,le_rfl,rfl⟩
  obtain ⟨stream,h,hwritten⟩ := hstart.run hrun
  rw [List.nil_append] at hwritten
  rw [← hwritten,h.outstanding,h.accepted]
  refine ⟨?_,?_,?_,List.take_prefix _ _,fun hnone => ?_⟩
  · split <;> simp
  · split <;> simp_all
  · split <;> simp
  · have hqueue : q.writeQueue = [] := by
      by_contra hqueue
      rw [if_neg hqueue] at hnone
      cases hnone
    have hall : stream.written.drop stream.arrived = [] := by simpa [hqueue] using h.queued.symm
    exact List.take_of_length_le (List.drop_eq_nil_iff.mp hall)

/-- A second buffer is written while the first one is on its way, which goes in two parts. -/
def twoBuffers : List WriteEvent := [.write [1,2,3],.done 0 2,.write [4],.done 0 1]

theorem faithful_pipe_twoBuffers :
    ∃ q, runAll step {} twoBuffers = some q ∧ q.outstanding = [[4]] ∧ q.accepted = [1,2,3] ∧
      q.accepted <+: (writtenBuffers twoBuffers).flatten :=
  ⟨_,rfl,rfl,rfl,(faithful_pipe twoBuffers _ rfl).2.2.2.1⟩

theorem connection_conserves_twoBuffers : ∃ c, runAll (Connection.step Connection.lineParser) (.init {})
      (twoBuffers.map WriteEvent.onConnection) = some c ∧ c.isOpen = true ∧
    c.writes = (if c.writeQueue = [] then 0 else 1) ∧ [1,2,3] ++ c.writeQueue.flatten.drop c.writeOffset = [1,2,3,4] :=
  connection_conserves Connection.lineParser {} twoBuffers _ rfl

end WriteQueue
end Strij.Io
