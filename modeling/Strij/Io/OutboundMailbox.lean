import Mathlib.Tactic.Common

/-! The outbound mailbox of a connection: it passes frames on while it is active, and runs the close
callbacks registered with it when it closes. -/
namespace Strij.Io

/-- An `OutboundMailbox` with callbacks of type `κ`. -/
structure OutboundMailbox (κ : Type*) where
  active : Bool := true
  closeCallbacks : List (ℕ × κ) := []
  nextToken : ℕ := 0

namespace OutboundMailbox
variable {κ φ : Type*} (m : OutboundMailbox κ)

def enqueue (frame : φ) : List φ := if m.active then [frame] else []

def registerOnClose (callback : κ) : ℕ × List κ × OutboundMailbox κ :=
  if m.active then
    (m.nextToken,[],{ m with
      closeCallbacks := m.closeCallbacks ++ [(m.nextToken,callback)]
      nextToken := m.nextToken+1 })
  else (m.nextToken,[callback],{ m with nextToken := m.nextToken+1 })

def unregisterOnClose (token : ℕ) : OutboundMailbox κ :=
  { m with closeCallbacks := m.closeCallbacks.filter (fun entry => entry.1 ≠ token) }

def close : List κ × OutboundMailbox κ :=
  (m.closeCallbacks.map Prod.snd,{ m with active := false, closeCallbacks := [] })

end OutboundMailbox
end Strij.Io
