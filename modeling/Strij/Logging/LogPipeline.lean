import Mathlib
import Strij.Lib.Ring
import Strij.Lib.Runs

/-! The queue between a thread that logs and the thread of the logger, and the counter that wakes the logger.
The steps of the two threads come in any order. -/
namespace Strij.Logging
open Strij.Lib
variable {α : Type}

/-- A slot holds an object or none that is constructed. `capacity` counts the one that stays free. -/
structure SpscQueue (α : Type) where
  capacity : ℕ
  slots : ℕ → Option α := fun _ => none
  writeIdx : ℕ := 0
  readIdxCache : ℕ := 0
  readIdx : ℕ := 0
  writeIdxCache : ℕ := 0

namespace SpscQueue

def create (capacity : ℕ) : SpscQueue α where
  capacity := max capacity 1+1

def front (q : SpscQueue α) : Bool × SpscQueue α :=
  if q.readIdx = q.writeIdxCache then
    (decide (q.writeIdx ≠ q.readIdx),{ q with writeIdxCache := q.writeIdx })
  else (true,q)

def emplace (q : SpscQueue α) (entry : α) : SpscQueue α := { q with
  slots := Function.update q.slots q.writeIdx (some entry)
  writeIdx := ringSucc q.capacity q.writeIdx }

def pop (q : SpscQueue α) : SpscQueue α := { q with
  slots := Function.update q.slots q.readIdx none
  readIdx := ringSucc q.capacity q.readIdx }

end SpscQueue

/-- Where the thread that logs is in `Log`: `checking` is the head of the loop of `emplace`, and `signalling` comes
before the `write` to `event_fd_`. -/
inductive Producer (α : Type)
  | idle
  | checking (entry : α)
  | placing (entry : α)
  | signalling
  deriving DecidableEq

/-- Where the thread of the logger is: a read of `event_fd_` is outstanding, it is in the loop over the entries, the
read failed and no other was prepared, or it used an object that is not there. -/
inductive Consumer
  | reading
  | testing
  | fetching
  | printing
  | stopped
  | crashed
  deriving DecidableEq

structure LogFrontend (α : Type) where
  queue : SpscQueue α
  eventFd : ℕ := 0
  producer : Producer α := .idle
  consumer : Consumer := .reading
  logged : List α := []
  printed : List α := []

inductive LogEvent (α : Type)
  | log (entry : α)
  | produce
  | complete (failed : Bool)
  | consume

namespace LogFrontend

def start (queueSize : ℕ) : LogFrontend α := { queue := .create queueSize }

/-- The next step inside `Log`. A `write` that would overflow the counter fails. -/
def produce (s : LogFrontend α) : Option (LogFrontend α) :=
  match s.producer with
  | .idle => none
  | .checking entry =>
    if ringSucc s.queue.capacity s.queue.writeIdx = s.queue.readIdxCache then
      some { s with queue.readIdxCache := s.queue.readIdx }
    else some { s with producer := .placing entry }
  | .placing entry => some { s with queue := s.queue.emplace entry, producer := .signalling }
  | .signalling => some { s with
      eventFd := if s.eventFd+1 < 2^64-1 then s.eventFd+1 else s.eventFd
      producer := .idle }

def consume (s : LogFrontend α) : Option (LogFrontend α) :=
  match s.consumer with
  | .reading | .stopped | .crashed => none
  | .testing => some { s with
      queue := s.queue.front.2
      consumer := if s.queue.front.1 then .fetching else .reading }
  | .fetching => some { s with
      queue := s.queue.front.2
      consumer := if s.queue.front.1 then .printing else .crashed }
  | .printing => match s.queue.slots s.queue.readIdx with
    | some entry => some { s with queue := s.queue.pop, printed := s.printed ++ [entry], consumer := .testing }
    | none => some { s with consumer := .crashed }

/-- A read takes what the counter holds and sets it to zero. -/
def complete (s : LogFrontend α) (failed : Bool) : Option (LogFrontend α) :=
  if s.consumer ≠ .reading then none
  else if failed then some { s with consumer := .stopped }
  else if s.eventFd = 0 then none
  else some { s with eventFd := 0, consumer := .testing }

def step (s : LogFrontend α) : LogEvent α → Option (LogFrontend α)
  | .log entry => match s.producer with
    | .idle => some { s with producer := .checking entry, logged := s.logged ++ [entry] }
    | _ => none
  | .produce => s.produce
  | .complete failed => s.complete failed
  | .consume => s.consume

end LogFrontend

def Producer.inHand : Producer α → ℕ
  | .checking _ | .placing _ => 1
  | _ => 0

def Producer.reserved : Producer α → ℕ
  | .placing _ => 1
  | _ => 0

namespace LogFrontend
variable {s t : LogFrontend α} {r w r' w' : ℕ}

/-- `r` entries were popped and `w` published, and each side last saw the other at `r'` and `w'`. -/
structure Inv (s : LogFrontend α) (r w r' w' : ℕ) : Prop where
  capacity : 2 ≤ s.queue.capacity
  readIdx : s.queue.readIdx = r%s.queue.capacity
  writeIdx : s.queue.writeIdx = w%s.queue.capacity
  readIdxCache : s.queue.readIdxCache = r'%s.queue.capacity
  writeIdxCache : s.queue.writeIdxCache = w'%s.queue.capacity
  order : r' ≤ r ∧ r ≤ w' ∧ w' ≤ w
  room : w+s.producer.reserved < r'+s.queue.capacity
  full : ∀ i, r ≤ i → i < w → s.queue.slots (i%s.queue.capacity) = s.logged[i]?
  free : ∀ i, w ≤ i → i < r+s.queue.capacity → s.queue.slots (i%s.queue.capacity) = none
  logged : s.logged.length = w+s.producer.inHand
  entry : ∀ e, s.producer = .checking e ∨ s.producer = .placing e → s.logged[w]? = some e
  printed : s.printed = s.logged.take r
  found : s.consumer = .fetching ∨ s.consumer = .printing → r < w'
  sound : s.consumer ≠ .crashed
  /-- The logger does not wait while there is something for it that nobody will tell it of. -/
  wakes : s.consumer = .reading → r < w → 0 < s.eventFd ∨ s.producer = .signalling

namespace Inv
variable {q : SpscQueue α} {fd : ℕ} {p : Producer α} {c : Consumer} {logged printed : List α} {e : α}

lemma start (queueSize : ℕ) : Inv (start queueSize : LogFrontend α) 0 0 0 0 := by
  constructor <;> simp [LogFrontend.start,SpscQueue.create,Producer.reserved,Producer.inHand]

lemma pos (h : Inv s r w r' w') : 0 < s.queue.capacity := Nat.zero_lt_of_lt h.capacity

lemma told (h : Inv s r w r' w') (hnot : s.producer ≠ .signalling) (hreading : s.consumer = .reading)
    (hlt : r < w) : 0 < s.eventFd :=
  (h.wakes hreading hlt).resolve_right hnot

lemma log (h : Inv ⟨q,fd,.idle,c,logged,printed⟩ r w r' w') (e : α) :
    Inv ⟨q,fd,.checking e,c,logged ++ [e],printed⟩ r w r' w' := by
  have hlength : logged.length = w := h.logged
  have hwithin : r ≤ logged.length := by
    have := h.order
    omega
  refine { h with full := ?_, logged := ?_, entry := ?_, printed := ?_, wakes := ?_ }
  · exact fun i hr hi => (h.full i hr hi).trans (List.getElem?_append_left (hlength ▸ hi)).symm
  · simp [hlength,Producer.inHand]
  · rintro e (he | he) <;> cases he
    exact hlength ▸ List.getElem?_concat_length
  · exact h.printed.trans (List.take_append_of_le_length hwithin).symm
  · exact fun hreading hlt => .inl (h.told (by simp) hreading hlt)

/-- The loop of `emplace` sees how far the logger has come, or goes on. -/
lemma check (h : Inv ⟨q,fd,.checking e,c,logged,printed⟩ r w r' w') :
    Inv ⟨{ q with readIdxCache := q.readIdx },fd,.checking e,c,logged,printed⟩ r w r w' ∧
      (ringSucc q.capacity q.writeIdx ≠ q.readIdxCache → Inv ⟨q,fd,.placing e,c,logged,printed⟩ r w r' w') := by
  obtain ⟨hread,horder⟩ := h.order
  have hroom : w < r'+q.capacity := h.room
  constructor
  · exact { h with readIdxCache := h.readIdx, order := ⟨le_rfl,horder⟩
                   room := hroom.trans_le (Nat.add_le_add_right hread _) }
  · intro hne
    rw [show q.writeIdx = _ from h.writeIdx,show q.readIdxCache = _ from h.readIdxCache,ringSucc_mod h.pos] at hne
    have hne : w+1 ≠ r'+q.capacity := by
      rintro heq
      rw [heq] at hne
      exact hne (Nat.add_mod_right ..)
    refine { h with room := Nat.lt_of_le_of_ne hroom hne, entry := ?_, wakes := ?_ }
    · rintro e (he | he) <;> cases he
      exact h.entry e (.inl rfl)
    · exact fun hreading hlt => .inl (h.told (by simp) hreading hlt)

lemma emplace (h : Inv ⟨q,fd,.placing e,c,logged,printed⟩ r w r' w') :
    Inv ⟨q.emplace e,fd,.signalling,c,logged,printed⟩ r (w+1) r' w' := by
  obtain ⟨hread,hcache,hwrite⟩ := h.order
  have hroom : w+1 < r'+q.capacity := h.room
  have hidx : q.writeIdx = w%q.capacity := h.writeIdx
  refine { h with writeIdx := ?_, order := ⟨hread,hcache,Nat.le_succ_of_le hwrite⟩, full := ?_, free := ?_
                  entry := ?_, wakes := fun _ _ => .inr rfl }
  · rw [SpscQueue.emplace,hidx]
    exact ringSucc_mod h.pos w
  · intro i hi hiw
    change Function.update q.slots q.writeIdx (some e) (i%q.capacity) = logged[i]?
    rcases Nat.lt_succ_iff_lt_or_eq.mp hiw with hlt | rfl
    · rw [Function.update_of_ne fun heq => hlt.ne (eq_of_ring (heq.trans hidx) hlt.le (by omega))]
      exact h.full i hi hlt
    · rw [← hidx,Function.update_self]
      exact (h.entry e (.inr rfl)).symm
  · intro i hi hic
    have hic : i < r+q.capacity := hic
    refine (Function.update_of_ne (fun heq => ?_) _ _).trans (h.free i (Nat.le_of_succ_le hi) hic)
    exact (Nat.lt_of_succ_le hi).ne (eq_of_ring (heq.trans hidx).symm (Nat.le_of_succ_le hi) (by omega))
  · rintro e (he | he) <;> cases he

lemma signal (h : Inv ⟨q,fd,.signalling,c,logged,printed⟩ r w r' w') :
    Inv ⟨q,if fd+1 < 2^64-1 then fd+1 else fd,.idle,c,logged,printed⟩ r w r' w' := by
  refine { h with entry := ?_, wakes := fun _ _ => .inl ?_ }
  · rintro e (he | he) <;> cases he
  · dsimp only
    split <;> omega

lemma produce (h : Inv s r w r' w') (hstep : s.produce = some t) : ∃ r w r' w', Inv t r w r' w' := by
  obtain ⟨q,fd,producer,c,logged,printed⟩ := s
  rw [LogFrontend.produce] at hstep
  cases producer with
  | idle => cases hstep
  | checking e =>
    dsimp only at hstep
    split at hstep
    · cases hstep
      exact ⟨r,w,r,w',h.check.1⟩
    · next hroom =>
      cases hstep
      exact ⟨r,w,r',w',h.check.2 hroom⟩
  | placing e =>
    cases hstep
    exact ⟨r,w+1,r',w',h.emplace⟩
  | signalling =>
    cases hstep
    exact ⟨r,w,r',w',h.signal⟩

lemma moves (h : Inv s r w r' w') {c : Consumer} (fd : ℕ) (hfound : c = .fetching ∨ c = .printing → r < w')
    (hsound : c ≠ .crashed) (hwakes : c = .reading → r = w) :
    Inv { s with eventFd := fd, consumer := c } r w r' w' :=
  { h with found := hfound, sound := hsound
           wakes := fun hreading hlt => absurd (hwakes hreading) hlt.ne }

/-- What `front` finds, and how far the consumer knows the producer to be then. -/
lemma front (h : Inv s r w r' w') : ∃ v, Inv { s with queue := s.queue.front.2 } r w r' v ∧
    (s.queue.front.1 = true → r < v) ∧ (s.queue.front.1 = false → r = w ∧ r = w') := by
  obtain ⟨hread,hcache,hwrite⟩ := h.order
  have hroom := h.room
  rw [SpscQueue.front]
  split
  · next heq =>
    rw [h.readIdx,h.writeIdxCache] at heq
    obtain rfl := eq_of_ring heq hcache (by omega)
    have hidx : s.queue.writeIdx = s.queue.readIdx ↔ r = w := by
      rw [h.writeIdx,h.readIdx]
      exact ⟨fun hmod => eq_of_ring hmod.symm hwrite (by omega),fun hmod => by rw [hmod]⟩
    refine ⟨w,{ h with writeIdxCache := h.writeIdx, order := ⟨hread,hwrite,le_rfl⟩
                       found := fun hfound => (h.found hfound).trans_le hwrite },?_,?_⟩
    · simp only [ne_eq,hidx,decide_not,Bool.not_eq_eq_eq_not,Bool.not_true,decide_eq_false_iff_not]
      omega
    · simp [hidx]
  · next hne =>
    rw [h.readIdx,h.writeIdxCache] at hne
    exact ⟨w',h,fun _ => lt_of_le_of_ne hcache (fun heq => hne (by rw [heq])),by simp⟩

/-- The entry at `readIdx_` is the next one. -/
lemma pop (h : Inv ⟨q,fd,p,.printing,logged,printed⟩ r w r' w') : ∃ e, q.slots q.readIdx = some e ∧
    Inv ⟨q.pop,fd,p,.testing,logged,printed ++ [e]⟩ (r+1) w r' w' := by
  have hlt : r < w' := h.found (.inr rfl)
  obtain ⟨hread,-,hwrite⟩ := h.order
  have hroom : w+p.reserved < r'+q.capacity := h.room
  have hidx : q.readIdx = r%q.capacity := h.readIdx
  have hlogged : logged.length = w+p.inHand := h.logged
  have hlength : r < logged.length := by omega
  have hslot : q.slots q.readIdx = some logged[r] := by
    rw [hidx,← List.getElem?_eq_getElem hlength]
    exact h.full r le_rfl (by omega)
  refine ⟨_,hslot,{ h with readIdx := ?_, order := ⟨Nat.le_succ_of_le hread,hlt,hwrite⟩, full := ?_, free := ?_
                           printed := ?_, found := by simp, sound := by simp, wakes := by simp }⟩
  · rw [SpscQueue.pop,hidx]
    exact ringSucc_mod h.pos r
  · intro i hi hiw
    refine (Function.update_of_ne (fun heq => ?_) _ _).trans (h.full i (Nat.le_of_succ_le hi) hiw)
    exact (Nat.lt_of_succ_le hi).ne (eq_of_ring (heq.trans hidx).symm (Nat.le_of_succ_le hi) (by omega))
  · intro i hi hic
    have hic : i < r+1+q.capacity := hic
    by_cases heq : i%q.capacity = q.readIdx
    · exact heq ▸ Function.update_self ..
    · have hne : i ≠ r+q.capacity := by
        rintro rfl
        exact heq ((Nat.add_mod_right ..).trans hidx.symm)
      exact (Function.update_of_ne heq _ _).trans (h.free i hi (by dsimp only; omega))
  · rw [show printed = _ from h.printed]
    exact List.take_append_getElem hlength

lemma consume (h : Inv s r w r' w') (hstep : s.consume = some t) : ∃ r w r' w', Inv t r w r' w' := by
  obtain ⟨v,hfront,hfound,hempty⟩ := h.front
  obtain ⟨q,fd,p,consumer,logged,printed⟩ := s
  rw [LogFrontend.consume] at hstep
  cases consumer with
  | reading | stopped | crashed => cases hstep
  | testing =>
    cases hstep
    cases hf : q.front.1 with
    | false => exact ⟨r,w,r',v,hfront.moves fd (by simp) (by simp) (fun _ => (hempty hf).1)⟩
    | true => exact ⟨r,w,r',v,hfront.moves fd (fun _ => hfound hf) (by simp) (by simp)⟩
  | fetching =>
    cases hstep
    cases hf : q.front.1 with
    | false => exact absurd (hempty hf).2 (h.found (.inl rfl)).ne
    | true => exact ⟨r,w,r',v,hfront.moves fd (fun _ => hfound hf) (by simp) (by simp)⟩
  | printing =>
    obtain ⟨e,hslot,h'⟩ := h.pop
    dsimp only at hstep
    rw [hslot] at hstep
    cases hstep
    exact ⟨r+1,w,r',w',h'⟩

lemma step (h : ∃ r w r' w', Inv s r w r' w') {event : LogEvent α} (hstep : s.step event = some t) :
    ∃ r w r' w', Inv t r w r' w' := by
  obtain ⟨r,w,r',w',h⟩ := h
  cases event with
  | log e =>
    obtain ⟨q,fd,producer,c,logged,printed⟩ := s
    cases producer with
    | idle =>
      cases hstep
      exact ⟨r,w,r',w',h.log e⟩
    | _ => cases hstep
  | produce => exact h.produce hstep
  | complete failed =>
    obtain ⟨-,hstep⟩ := Option.ite_none_left_eq_some.mp hstep
    split at hstep
    · cases hstep
      exact ⟨r,w,r',w',h.moves s.eventFd (by simp) (by simp) (by simp)⟩
    · obtain ⟨-,hstep⟩ := Option.ite_none_left_eq_some.mp hstep
      cases hstep
      exact ⟨r,w,r',w',h.moves 0 (by simp) (by simp) (by simp)⟩
  | consume => exact h.consume hstep

end Inv

/-- Whatever the order of the steps of the two threads, the logger prints the entries in the order in which they
were logged, each once. It uses no object that is not there, the slot that an entry is put into is free, and the two
threads are never at the same slot. When both are at rest everything is printed, and the logger is not left waiting
while the queue is full. -/
theorem entries_printed_in_order (queueSize : ℕ) (events : List (LogEvent α))
    (hrun : runAll step (LogFrontend.start queueSize) events = some s) :
    s.printed <+: s.logged ∧ s.consumer ≠ .crashed ∧
    (s.consumer = .printing → s.queue.writeIdx ≠ s.queue.readIdx) ∧
    (∀ entry, s.producer = .placing entry → s.queue.slots s.queue.writeIdx = none) ∧
    (s.producer = .idle → s.consumer = .reading → s.eventFd = 0 → s.printed = s.logged) ∧
    (∀ entry, s.producer = .checking entry →
      ringSucc s.queue.capacity s.queue.writeIdx = s.queue.readIdx → s.consumer = .reading → 0 < s.eventFd) := by
  obtain ⟨r,w,r',w',h⟩ := runAll_invariant (P := fun _ _ => True) (fun _ _ _ h _ hstep => Inv.step h hstep)
    ⟨0,0,0,0,Inv.start queueSize⟩ (.of_forall fun _ _ => trivial) hrun
  obtain ⟨hread,hcache,hwrite⟩ := h.order
  have hroom := h.room
  refine ⟨h.printed ▸ List.take_prefix _ _,h.sound,?_,?_,?_,?_⟩
  · intro hprinting heq
    have hlt : r < w' := h.found (.inr hprinting)
    rw [h.writeIdx,h.readIdx] at heq
    exact absurd (eq_of_ring heq.symm (by omega) (by omega)) (by omega)
  · intro entry hplacing
    rw [h.writeIdx]
    exact h.free w le_rfl (by omega)
  · intro hidle hreading hzero
    have hend : r = w := by
      by_contra hne
      have htold := h.told (by simp [hidle]) hreading (by omega)
      omega
    have hlength := h.logged
    rw [hidle] at hlength
    rw [h.printed,hend]
    exact List.take_of_length_le hlength.le
  · intro entry hchecking hfull hreading
    refine h.told (by simp [hchecking]) hreading ?_
    rw [h.writeIdx,h.readIdx,ringSucc_mod h.pos] at hfull
    by_contra hnot
    obtain rfl : r = w := by omega
    have := eq_of_ring hfull.symm (Nat.le_succ r) (by have := h.capacity; omega)
    omega

/-- Two entries go through a queue with room for one; the second waits for the first. -/
def twoEntries : List (LogEvent ℕ) :=
  [.log 1,.produce,.produce,.produce,.log 2,.produce,.complete false,.consume,.consume,.produce,.consume,.produce,
    .produce,.produce,.produce,.consume,.consume,.consume,.consume,.complete false,.consume]

theorem entries_printed_in_order_two : ∃ s, runAll step (LogFrontend.start 1) twoEntries = some s ∧
    s.logged = [1,2] ∧ s.printed = s.logged := by
  have hrun : (runAll step (LogFrontend.start 1) twoEntries).any (fun s => s.logged = [1,2] ∧ s.producer = .idle ∧
    s.consumer = .reading ∧ s.eventFd = 0) = true := by decide +kernel
  obtain ⟨s,hs,hend⟩ := (Option.any_eq_true _ _).mp hrun
  obtain ⟨hlogged,hidle,hreading,hzero⟩ := of_decide_eq_true hend
  exact ⟨s,hs,hlogged,(entries_printed_in_order 1 twoEntries hs).2.2.2.2.1 hidle hreading hzero⟩

end LogFrontend
end Strij.Logging
