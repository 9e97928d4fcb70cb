import Admission.Meter.Charge

/-! Sliding windows: permits are counted in windows of fixed length, and the count of the
window before weighs as much as it still overlaps the span of one window that ends now. -/
namespace Admission

structure Window where
  start : Timestamp
  current : UInt64
  previous : UInt64
  deriving DecidableEq

namespace Window

/-- The length of the window in milliseconds, at least one. -/
def lengthOf (limiter : Limiter) : Nat :=
  max 1 limiter.window.toMillis.toNat

/-- The window that a time lies in, with nothing counted; windows start at multiples of
their length. -/
def empty (length : Nat) (now : Timestamp) : Window :=
  ⟨UInt64.ofNatClamp (now.toNat - now.toNat % length), 0, 0⟩

/-- Moves on by as many whole windows as have passed. The count of the last window is kept
only if it is the one just before. -/
def rotate (length : Nat) (now : Timestamp) (window : Window) : Window :=
  let passed := now.since window.start / length
  if passed = 0 then window
  else
    { start := window.start.plus (passed * length)
      current := 0
      previous := if passed = 1 then window.current else 0 }

/-- The weighted count at a time. -/
def weighted (length : Nat) (now : Timestamp) (window : Window) : Binary64 :=
  let length := Binary64.ofNat length
  let into := Binary64.ofNat (now.since window.start)
  let weight := max ((length - into) / length) 0
  .ofNat window.previous.toNat * weight + .ofNat window.current.toNat

/-- Rotates, then counts the permits if all but the last of them fit below the limit. -/
def charge (limiter : Limiter) (permits : UInt64) (now : Timestamp) (previous? : Option Window) :
    Charge Window :=
  let length := lengthOf limiter
  let window := match previous? with
    | some previous => previous.rotate length now
    | none => empty length now
  let others := Binary64.ofNat (permits.toNat - 1)
  if window.weighted length now + others < .ofNat limiter.requests.toNat then
    ⟨{ window with current := UInt64.ofNatClamp (window.current.toNat + permits.toNat) }, true⟩
  else ⟨window, false⟩

/-- The usage at a time; the reset is at the end of the window. -/
def usage (limiter : Limiter) (now : Timestamp) (window : Window) : Usage :=
  let length := lengthOf limiter
  let rotated := window.rotate length now
  let used := rotated.weighted length now
  { used
    limit := limiter.requests
    remaining := (max (Binary64.ofNat limiter.requests.toNat - used).floor 0).toUInt64
    resetAt := rotated.start.plus length }

theorem lengthOf_pos (limiter : Limiter) : 0 < lengthOf limiter := by
  unfold lengthOf
  omega

@[simp] theorem rotate_of_lt {length : Nat} {now : Timestamp} {window : Window}
    (young : now.since window.start < length) : window.rotate length now = window := by
  simp [rotate, Nat.div_eq_of_lt young]

end Window
end Admission
