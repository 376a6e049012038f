import Mathlib.Data.List.Sublists
import Strij.Io.Connection

/-! What a connection puts on its socket. A history keeps the buffers that `Write` took and the bytes that the
socket accepted. -/
namespace Strij.Io
open Strij.Lib

structure Transmission (σ κ : Type*) where
  connection : Connection σ κ
  buffers : List (List UInt8) := []
  accepted : List UInt8 := []
  torn : Bool := false

namespace Connection
variable {σ κ : Type*} {c c' c'' : Connection σ κ}

def InFlight (c : Connection σ κ) : Prop := c.writes = if c.writeQueue = [] then 0 else 1

/-- The connection took some buffers, and nothing else happened to its writes. -/
structure Takes (c c' : Connection σ κ) : Prop where
  queue : c.writeQueue <+: c'.writeQueue
  offset : c'.writeOffset = c.writeOffset
  inFlight : c.InFlight → c'.InFlight

namespace Takes

lemma refl : c.Takes c := ⟨List.prefix_rfl,rfl,id⟩

lemma trans (h : c.Takes c') (h' : c'.Takes c'') : c.Takes c'' :=
  ⟨h.queue.trans h'.queue,h'.offset.trans h.offset,h'.inFlight ∘ h.inFlight⟩

end Takes

lemma write_takes (data : List UInt8) : c.Takes (c.write data) := by
  rw [write]
  split
  · exact .refl
  · refine ⟨List.prefix_append _ _,rfl,fun h => ?_⟩
    simp only [InFlight] at h ⊢
    split at h <;> simp_all

lemma doCall_takes (call : ConnectionCall κ) : c.Takes (c.doCall call) := by
  cases call with
  | write data => exact write_takes data
  | enqueue frame =>
    rw [doCall,OutboundMailbox.enqueue]
    split
    · exact write_takes frame
    · exact .refl
  | registerOnClose callback => exact ⟨List.prefix_rfl,rfl,id⟩
  | close => exact ⟨List.prefix_rfl,rfl,id⟩

lemma doCalls_takes (calls : List (ConnectionCall κ)) : c.Takes (calls.foldl doCall c) := by
  induction calls generalizing c with
  | nil => exact .refl
  | cons call calls ih => exact (doCall_takes call).trans ih

lemma handleRead_takes (p : ProtocolParser σ κ) (data : List UInt8) : c.Takes (c.handleRead p data) := by
  rw [handleRead]
  generalize p.onData c.parser data = r
  obtain ⟨parser,calls,action⟩ := r
  have h : c.Takes (calls.foldl doCall { c with parser := parser }) :=
    (show c.Takes { c with parser := parser } from ⟨List.prefix_rfl,rfl,id⟩).trans (doCalls_takes calls)
  cases action with
  | needMoreData => exact h.trans ⟨List.prefix_rfl,rfl,id⟩
  | messageComplete => exact h

lemma step_cases {p : ProtocolParser σ κ} {e : ConnectionEvent κ} (h : c.step p e = some c') :
    (∃ count, e = .writeDone count ∧ c.writes ≠ 0 ∧ c' = { c with writes := c.writes-1 }.handleWrite count) ∨
    (e = .writeFailed ∧ c.writes ≠ 0 ∧
      c' = { c with writes := c.writes-1, writeQueue := [], writeOffset := 0 }) ∨
    ((∀ count, e ≠ .writeDone count) ∧ e ≠ .writeFailed ∧ c.Takes c') := by
  cases e with
  | readDone data =>
    obtain ⟨-,hc⟩ := Option.ite_none_left_eq_some.mp h
    refine .inr (.inr ⟨nofun,nofun,?_⟩)
    cases hc
    have h : c.Takes { c with reads := c.reads-1 } := ⟨List.prefix_rfl,rfl,id⟩
    exact h.trans (handleRead_takes p data)
  | endOfStream =>
    obtain ⟨-,hc⟩ := Option.ite_none_left_eq_some.mp h
    refine .inr (.inr ⟨nofun,nofun,?_⟩)
    cases hc
    exact ⟨List.prefix_rfl,rfl,id⟩
  | writeDone count =>
    obtain ⟨hwrites,hc⟩ := Option.ite_none_left_eq_some.mp h
    exact .inl ⟨count,rfl,hwrites,(Option.some.inj hc).symm⟩
  | writeFailed =>
    obtain ⟨hwrites,hc⟩ := Option.ite_none_left_eq_some.mp h
    exact .inr (.inl ⟨rfl,hwrites,(Option.some.inj hc).symm⟩)
  | call call =>
    cases h
    exact .inr (.inr ⟨nofun,nofun,doCall_takes call⟩)

end Connection

namespace Transmission
variable {σ κ : Type*}

def init (parser : σ) : Transmission σ κ := { connection := .init parser }

variable (t : Transmission σ κ)

def front : List UInt8 := t.connection.writeQueue.head?.getD []

def unsent : List UInt8 := t.front.drop t.connection.writeOffset

/-- The history of one event. A write that is done has a positive count, of the bytes it was given. -/
def record (e : ConnectionEvent κ) (c : Connection σ κ) : Option (Transmission σ κ) :=
  match e with
  | .writeDone count =>
    if 0 < count ∧ count ≤ t.unsent.length then
      some { t with connection := c, accepted := t.accepted ++ t.unsent.take count }
    else none
  | .writeFailed => some { t with connection := c, torn := t.torn || t.connection.writeOffset ≠ 0 }
  | _ => some { t with
      connection := c
      buffers := t.buffers ++ c.writeQueue.drop t.connection.writeQueue.length }

def step (p : ProtocolParser σ κ) (t : Transmission σ κ) (e : ConnectionEvent κ) : Option (Transmission σ κ) :=
  (t.connection.step p e).bind (t.record e)

/-- The bytes are whole buffers, in the order of the writes, and then at most a proper part of one. -/
def Whole (bytes : List UInt8) (buffers : List (List UInt8)) : Prop :=
  ∃ whole part, bytes = whole.flatten ++ part ∧ (part = [] ∧ whole.Sublist buffers ∨
    ∃ b, (whole ++ [b]).Sublist buffers ∧ part <+: b ∧ part ≠ b)

/-- After a write failed in the middle of a buffer, the event gives the connection no buffer. -/
def Quiet (p : ProtocolParser σ κ) (t : Transmission σ κ) (e : ConnectionEvent κ) : Prop :=
  t.torn = true → ∀ t' ∈ t.step p e, t'.buffers = t.buffers

instance (p : ProtocolParser σ κ) (e : ConnectionEvent κ) : Decidable (t.Quiet p e) := by
  unfold Quiet
  infer_instance

section Runs
variable {t} {t' : Transmission σ κ} {p : ProtocolParser σ κ} {e : ConnectionEvent κ}

inductive Sound (t : Transmission σ κ) : Prop
  | going (hflight : t.connection.InFlight) (htorn : t.torn = false) (whole : List (List UInt8))
      (hbytes : t.accepted = whole.flatten ++ t.front.take t.connection.writeOffset)
      (hbuffers : (whole ++ t.connection.writeQueue).Sublist t.buffers)
      (hoffset : t.connection.writeOffset = 0 ∨ t.connection.writeOffset < t.front.length)
  | ended (hflight : t.connection.InFlight) (htorn : t.torn = true) (hqueue : t.connection.writeQueue = [])
      (h : Whole t.accepted t.buffers)

variable (h : t.Sound)
include h

lemma Sound.whole : Whole t.accepted t.buffers := by
  cases h with
  | ended _ _ _ h => exact h
  | going _ _ whole hbytes hbuffers hoffset =>
    refine ⟨whole,_,hbytes,?_⟩
    rcases hoffset with hzero | hlt
    · refine .inl ⟨by simp [hzero],?_⟩
      exact (List.sublist_append_left _ _).trans hbuffers
    · refine .inr ⟨t.front,?_,List.take_prefix _ _,?_⟩
      · cases hqueue : t.connection.writeQueue with
        | nil => simp [front,hqueue] at hlt
        | cons b rest =>
          rw [hqueue] at hbuffers
          refine List.Sublist.trans ?_ hbuffers
          rw [front,hqueue]
          exact List.Sublist.append_left (List.singleton_sublist.mpr List.mem_cons_self) _
      · intro heq
        have hlength := congrArg List.length heq
        simp only [List.length_take] at hlength
        omega

lemma Sound.writeDone {count : ℕ} (hwrites : t.connection.writes ≠ 0) : ({ t with
      connection := { t.connection with writes := t.connection.writes-1 }.handleWrite count
      accepted := t.accepted ++ t.unsent.take count } : Transmission σ κ).Sound := by
  cases h with
  | ended hflight _ hqueue => exact absurd (by rw [hflight,if_pos hqueue]) hwrites
  | going hflight htorn whole hbytes hbuffers hoffset =>
    rw [Connection.InFlight] at hflight
    cases hqueue : t.connection.writeQueue with
    | nil => exact absurd (by rw [hflight,if_pos hqueue]) hwrites
    | cons b rest =>
      have hfront : t.front = b := by rw [front,hqueue]; rfl
      have hone : t.connection.writes = 1 := by rw [hflight,hqueue]; rfl
      have hsent : t.accepted ++ t.unsent.take count =
          whole.flatten ++ b.take (t.connection.writeOffset+count) := by
        rw [hbytes,unsent,hfront,List.append_assoc,List.take_add]
      rw [hqueue] at hbuffers
      by_cases hlt : t.connection.writeOffset+count < b.length
      · have hwrite : { t.connection with writes := t.connection.writes-1 }.handleWrite count =
            { t.connection with writeOffset := t.connection.writeOffset+count } := by
          simp [Connection.handleWrite,hqueue,hlt,hone]
        rw [hwrite]
        refine .going ?_ htorn whole ?_ ?_ (.inr ?_)
        · simp [Connection.InFlight,hqueue,hone]
        · simpa [front,hqueue] using hsent
        · simpa [hqueue] using hbuffers
        · simpa [front,hqueue] using hlt
      · have hwrite : { t.connection with writes := t.connection.writes-1 }.handleWrite count =
            { t.connection with
              writeQueue := rest, writeOffset := 0, writes := if rest = [] then 0 else 1 } := by
          simp [Connection.handleWrite,hqueue,hlt,hone]
        rw [hwrite]
        refine .going rfl htorn (whole ++ [b]) ?_ ?_ (.inl rfl)
        · change t.accepted ++ t.unsent.take count = _
          rw [hsent,List.take_of_length_le (by omega)]
          simp
        · simpa using hbuffers

lemma Sound.writeFailed (hwrites : t.connection.writes ≠ 0) : ({ t with
      connection := { t.connection with writes := t.connection.writes-1, writeQueue := [], writeOffset := 0 }
      torn := t.torn || t.connection.writeOffset ≠ 0 } : Transmission σ κ).Sound := by
  have hwhole := h.whole
  cases h with
  | ended hflight _ hqueue => exact absurd (by rw [hflight,if_pos hqueue]) hwrites
  | going hflight htorn whole hbytes hbuffers hoffset =>
    have hnone : t.connection.writes-1 = 0 := by
      rw [hflight]
      split <;> rfl
    by_cases hzero : t.connection.writeOffset = 0
    · refine .going hnone (by simp [htorn,hzero]) whole ?_ ?_ (.inl rfl)
      · simpa [hzero] using hbytes
      · simpa using (List.sublist_append_left _ _).trans hbuffers
    · exact .ended hnone (by simp [hzero]) rfl hwhole

lemma Sound.takes {c : Connection σ κ} (htakes : t.connection.Takes c)
    (hquiet : t.torn = true → c.writeQueue.drop t.connection.writeQueue.length = []) : ({ t with
      connection := c
      buffers := t.buffers ++ c.writeQueue.drop t.connection.writeQueue.length } : Transmission σ κ).Sound := by
  obtain ⟨new,hnew⟩ := htakes.queue
  have hdrop : c.writeQueue.drop t.connection.writeQueue.length = new := by
    rw [← hnew,List.drop_left]
  rw [hdrop] at hquiet ⊢
  cases h with
  | ended hflight htorn hqueue hwhole =>
    have hnone := hquiet htorn
    refine .ended (htakes.inFlight hflight) htorn ?_ ?_
    · rw [← hnew,hqueue,hnone]
      rfl
    · simpa [hnone] using hwhole
  | going hflight htorn whole hbytes hbuffers hoffset =>
    have hfront : c.writeQueue.head?.getD [] = t.front ∨ t.connection.writeOffset = 0 := by
      cases hqueue : t.connection.writeQueue with
      | nil => exact .inr (by simpa [front,hqueue] using hoffset)
      | cons b rest => exact .inl (by rw [← hnew,front,hqueue]; rfl)
    refine .going (htakes.inFlight hflight) htorn whole ?_ ?_ ?_
    · change t.accepted = whole.flatten ++ (c.writeQueue.head?.getD []).take c.writeOffset
      rw [htakes.offset]
      rcases hfront with hfront | hzero
      · rw [hfront]
        exact hbytes
      · simpa [hzero] using hbytes
    · change (whole ++ c.writeQueue).Sublist (t.buffers ++ new)
      rw [← hnew,← List.append_assoc]
      exact hbuffers.append_right new
    · change c.writeOffset = 0 ∨ c.writeOffset < (c.writeQueue.head?.getD []).length
      rw [htakes.offset]
      rcases hfront with hfront | hzero
      · rw [hfront]
        exact hoffset
      · exact .inl hzero

lemma Sound.step (hquiet : t.Quiet p e) (hstep : t.step p e = some t') : t'.Sound := by
  obtain ⟨c,hc,hrecord⟩ := Option.bind_eq_some_iff.mp hstep
  rcases Connection.step_cases hc with ⟨count,rfl,hwrites,rfl⟩ | ⟨rfl,hwrites,rfl⟩ | ⟨hdone,hfailed,htakes⟩
  · obtain ⟨-,ht'⟩ := Option.ite_none_right_eq_some.mp hrecord
    cases ht'
    exact h.writeDone hwrites
  · cases hrecord
    exact h.writeFailed hwrites
  · have ht' : t' = { t with
        connection := c
        buffers := t.buffers ++ c.writeQueue.drop t.connection.writeQueue.length } := by
      cases e with
      | writeDone count => exact absurd rfl (hdone count)
      | writeFailed => exact absurd rfl hfailed
      | _ => exact (Option.some.inj hrecord).symm
    subst ht'
    refine h.takes htakes fun htorn => ?_
    simpa using hquiet htorn _ hstep

lemma Sound.frozen (htorn : t.torn = true) (hquiet : t.Quiet p e) (hstep : t.step p e = some t') :
    t'.torn = true ∧ t'.accepted = t.accepted := by
  cases h with
  | going _ hnot => cases hnot.symm.trans htorn
  | ended hflight _ hqueue =>
    have hnone : t.connection.writes = 0 := by rw [hflight,if_pos hqueue]
    obtain ⟨c,hc,hrecord⟩ := Option.bind_eq_some_iff.mp hstep
    rcases Connection.step_cases hc with ⟨_,_,hwrites,_⟩ | ⟨_,hwrites,_⟩ | ⟨hdone,hfailed,_⟩
    · exact absurd hnone hwrites
    · exact absurd hnone hwrites
    · cases e with
      | writeDone count => exact absurd rfl (hdone count)
      | writeFailed => exact absurd rfl hfailed
      | _ =>
        cases hrecord
        exact ⟨htorn,rfl⟩

omit h

/-- As long as nothing is written after a failure in the middle of a buffer, the socket has accepted whole
buffers and at most a part of one at the end, and nothing follows that failure. -/
theorem no_torn_frames (p : ProtocolParser σ κ) (parser : σ) (events later : List (ConnectionEvent κ))
    (t t' : Transmission σ κ) (hquiet : Throughout (step p) (Quiet p) (init parser) events)
    (hrun : runAll (step p) (init parser) events = some t) (hquiet' : Throughout (step p) (Quiet p) t later)
    (hrun' : runAll (step p) t later = some t') :
    Whole t.accepted t.buffers ∧ (t.torn = true → t'.accepted = t.accepted) := by
  have hsound : t.Sound := by
    refine runAll_invariant (I := Sound) (fun t e t' h hq hstep => h.step hq hstep) ?_ hquiet hrun
    exact .going rfl rfl [] rfl (List.Sublist.refl _) (.inl rfl)
  refine ⟨hsound.whole,fun htorn => ?_⟩
  have hfrozen : t'.Sound ∧ t'.torn = true ∧ t'.accepted = t.accepted := by
    refine runAll_invariant (I := fun s => s.Sound ∧ s.torn = true ∧ s.accepted = t.accepted) ?_
      ⟨hsound,htorn,rfl⟩ hquiet' hrun'
    rintro s e s' ⟨hs,hst,hsa⟩ hq hstep
    obtain ⟨hst',hsa'⟩ := hs.frozen hst hq hstep
    exact ⟨hs.step hq hstep,hst',hsa'.trans hsa⟩
  exact hfrozen.2.2

end Runs

def deafParser : ProtocolParser Unit Unit where
  onData _ _ := ((),[],.needMoreData)

def failedLast : List (ConnectionEvent Unit) :=
  [.call (.write [1,2,3]),.call (.write [4]),.writeDone 2,.writeDone 1,.writeDone 1,.call (.write [5,6]),
    .writeDone 1,.writeFailed]

theorem no_torn_frames_failedLast :
    ∃ t t', runAll (step deafParser) (init ()) failedLast = some t ∧ t.accepted = [1,2,3,4,5] ∧
      runAll (step deafParser) t [.endOfStream,.call (.write [7])] = some t' ∧
      Whole t.accepted t.buffers ∧ t'.accepted = t.accepted := by
  have hrun : (runAll (step deafParser) (init ()) failedLast).any (fun t =>
      t.accepted = [1,2,3,4,5] ∧ t.torn = true ∧
      Throughout (step deafParser) (Quiet deafParser) t [.endOfStream,.call (.write [7])] ∧
      (runAll (step deafParser) t [.endOfStream,.call (.write [7])]).isSome = true) = true := by
    decide +kernel
  obtain ⟨t,ht,hfacts⟩ := (Option.any_eq_true _ _).mp hrun
  obtain ⟨hbytes,htorn,hlater,hsome⟩ := of_decide_eq_true hfacts
  obtain ⟨t',ht'⟩ := Option.isSome_iff_exists.mp hsome
  obtain ⟨hwhole,hfrozen⟩ := no_torn_frames deafParser () failedLast [.endOfStream,.call (.write [7])] t t'
    (by decide +kernel) ht hlater ht'
  exact ⟨t,t',ht,hbytes,ht',hwhole,hfrozen htorn⟩

lemma not_whole_part : ¬Whole [1,4] [[1,2,3],[4]] := by
  rintro ⟨whole,part,hbytes,hpart⟩
  have hwhole : whole.Sublist [[1,2,3],[4]] := by
    rcases hpart with ⟨-,h⟩ | ⟨b,h,-⟩
    · exact h
    · exact (List.sublist_append_left _ _).trans h
  have hcases : whole = [] ∨ whole = [[1,2,3]] ∨ whole = [[4]] ∨ whole = [[1,2,3],[4]] := by
    simpa [List.sublists] using List.mem_sublists.mpr hwhole
  rcases hcases with rfl | rfl | rfl | rfl
  · cases hbytes
    rcases hpart with ⟨hnil,-⟩ | ⟨b,hb,hstart,-⟩
    · cases hnil
    · have hb : b = [1,2,3] ∨ b = [4] := by simpa using List.singleton_sublist.mp hb
      rcases hb with rfl | rfl
      · exact absurd hstart (by decide)
      · exact absurd hstart (by decide)
  · exact absurd (List.cons_eq_cons.mp (List.cons_eq_cons.mp hbytes).2).1 (by decide)
  · exact absurd (List.cons_eq_cons.mp hbytes).1 (by decide)
  · exact absurd (List.cons_eq_cons.mp (List.cons_eq_cons.mp hbytes).2).1 (by decide)

/-- The connection stays open after the failure, and the next buffer follows a part of the first. -/
theorem buffer_after_part : ∃ t, runAll (step deafParser) (init ())
        [.call (.write [1,2,3]),.writeDone 1,.writeFailed,.call (.write [4]),.writeDone 1] = some t ∧
      t.connection.isOpen = true ∧ t.buffers = [[1,2,3],[4]] ∧ t.accepted = [1,4] ∧
      ¬Whole t.accepted t.buffers := by
  have hrun : (runAll (step deafParser) (init ())
      [.call (.write [1,2,3]),.writeDone 1,.writeFailed,.call (.write [4]),.writeDone 1]).any (fun t =>
      t.connection.isOpen = true ∧ t.buffers = [[1,2,3],[4]] ∧ t.accepted = [1,4]) = true := by
    decide +kernel
  obtain ⟨t,ht,hfacts⟩ := (Option.any_eq_true _ _).mp hrun
  obtain ⟨hopen,hbuffers,hbytes⟩ := of_decide_eq_true hfacts
  refine ⟨t,ht,hopen,hbuffers,hbytes,?_⟩
  rw [hbuffers,hbytes]
  exact not_whole_part

end Transmission
end Strij.Io
