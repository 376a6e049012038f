import Mathlib.Data.List.Basic
import Mathlib.Tactic.Common
import Mathlib.Tactic.Ring

/-! The TLV wire format: one type byte, a four-byte length in network order, and the value. -/
namespace Strij.Io
variable {s : List UInt8} {fs : List TlvFrame} {f : TlvFrame}

structure TlvFrame where
  typeId : UInt8
  value : List UInt8
  deriving DecidableEq, Repr

def htonl (n : UInt32) : List UInt8 :=
  [UInt8.ofNat (n.toNat/16777216),UInt8.ofNat (n.toNat/65536),
    UInt8.ofNat (n.toNat/256),UInt8.ofNat n.toNat]

def ntohl : List UInt8 → UInt32
  | [a,b,c,d] => UInt32.ofNat (a.toNat*16777216+b.toNat*65536+c.toNat*256+d.toNat)
  | _ => 0

theorem ntohl_htonl (n : UInt32) : ntohl (htonl n) = n := by
  apply UInt32.toNat_inj.mp
  have hn := n.toNat_lt
  simp only [htonl,ntohl,UInt32.toNat_ofNat',UInt8.toNat_ofNat']
  omega

theorem htonl_ntohl {w : List UInt8} (h : w.length = 4) : htonl (ntohl w) = w := by
  obtain ⟨a,b,c,d,rfl⟩ := List.length_eq_four.mp h
  have ha := a.toNat_lt
  have hb := b.toNat_lt
  have hc := c.toNat_lt
  have hd := d.toNat_lt
  simp only [htonl,ntohl,UInt32.toNat_ofNat',List.cons.injEq,and_true]
  refine ⟨?_,?_,?_,?_⟩ <;>
  · apply UInt8.toNat_inj.mp
    simp only [UInt8.toNat_ofNat']
    omega

def serializeTlvFrame (typeId : UInt8) (value : List UInt8) : List UInt8 :=
  typeId :: htonl (UInt32.ofNat value.length) ++ value

def wire (frames : List TlvFrame) : List UInt8 :=
  (frames.map (fun f => serializeTlvFrame f.typeId f.value)).flatten

/-- A value whose length the four-byte field can hold. -/
def TlvFrame.Sized (f : TlvFrame) : Prop := f.value.length < 2^32

instance (f : TlvFrame) : Decidable f.Sized := inferInstanceAs (Decidable (_ < _))

@[simp] theorem wire_nil : wire [] = [] := rfl

@[simp] theorem wire_append (fs gs : List TlvFrame) : wire (fs++gs) = wire fs ++ wire gs := by
  simp [wire]

@[simp] theorem wire_singleton (f : TlvFrame) : wire [f] = serializeTlvFrame f.typeId f.value := by
  simp [wire]

/-- The first frame of a stream, when all of it is there, and the bytes after it. -/
def splitFrame : List UInt8 → Option (TlvFrame × List UInt8)
  | t :: a :: b :: c :: d :: rest =>
    let n := (ntohl [a,b,c,d]).toNat
    if n ≤ rest.length then some (⟨t,rest.take n⟩,rest.drop n) else none
  | _ => none

theorem splitFrame_shrinks {rest : List UInt8}
    (h : splitFrame s = some (f,rest)) : rest.length < s.length := by
  unfold splitFrame at h
  split at h
  · dsimp only at h
    split at h
    · cases h
      simp only [List.length_drop,List.length_cons]
      omega
    · cases h
  · cases h

/-- The frames wholly contained in a byte stream, in order. -/
def wholeFrames (s : List UInt8) : List TlvFrame :=
  match _h : splitFrame s with
  | none => []
  | some (f,rest) => f :: wholeFrames rest
termination_by s.length
decreasing_by exact splitFrame_shrinks _h

theorem wholeFrames_of_none (h : splitFrame s = none) : wholeFrames s = [] := by
  rw [wholeFrames]
  split
  · rfl
  · next heq => rw [h] at heq; cases heq

theorem wholeFrames_of_some {rest : List UInt8}
    (h : splitFrame s = some (f,rest)) : wholeFrames s = f :: wholeFrames rest := by
  rw [wholeFrames]
  split
  · next heq => rw [h] at heq; cases heq
  · next heq => rw [h] at heq; cases heq; rfl

theorem splitFrame_header (t : UInt8) (n : UInt32) (s : List UInt8) : splitFrame (t :: htonl n ++ s) =
      if n.toNat ≤ s.length then some (⟨t,s.take n.toNat⟩,s.drop n.toNat) else none := by
  have h := ntohl_htonl n
  simp only [htonl] at h ⊢
  simp only [List.cons_append,List.nil_append,splitFrame,h]

theorem splitFrame_short (h : s.length < 5) : splitFrame s = none := by
  unfold splitFrame
  split
  · simp only [List.length_cons] at h
    omega
  · rfl

theorem splitFrame_serialize (hf : f.Sized) (s : List UInt8) :
    splitFrame (serializeTlvFrame f.typeId f.value ++ s) = some (f,s) := by
  have hn : (UInt32.ofNat f.value.length).toNat = f.value.length := by
    rw [UInt32.toNat_ofNat',Nat.mod_eq_of_lt hf]
  rw [serializeTlvFrame,List.append_assoc,splitFrame_header,hn,
    if_pos (by simp),List.take_left',List.drop_left'] <;> rfl

variable (hfs : ∀ f ∈ fs, f.Sized)
include hfs

/-- A stream that starts with the encodings of `fs` contains exactly `fs` and then the frames
of its tail. -/
theorem wholeFrames_wire (s : List UInt8) : wholeFrames (wire fs ++ s) = fs ++ wholeFrames s := by
  induction fs with
  | nil => simp
  | cons f fs ih =>
    have hw : wire (f :: fs) = serializeTlvFrame f.typeId f.value ++ wire fs := by simp [wire]
    rw [hw,List.append_assoc,wholeFrames_of_some (splitFrame_serialize (hfs f (by simp)) _),
      ih (fun g hg => hfs g (by simp [hg])),List.cons_append]

lemma wholeFrames_wire_self : wholeFrames (wire fs) = fs := by
  have h := wholeFrames_wire hfs []
  rwa [List.append_nil,wholeFrames_of_none (rfl : splitFrame [] = none),List.append_nil] at h

/-- Two encodings of which one continues the other start with the same frames: the format
is a prefix code. -/
theorem wire_prefix_cancel {gs : List TlvFrame}
    (hgs : ∀ g ∈ gs, g.Sized) (h : wire fs ++ s = wire gs) : fs <+: gs := by
  have hw := congrArg wholeFrames h
  rw [wholeFrames_wire hfs,wholeFrames_wire_self hgs] at hw
  exact ⟨_,hw⟩

end Strij.Io
