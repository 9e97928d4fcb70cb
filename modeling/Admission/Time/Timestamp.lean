import Admission.Time.Duration

/-! Clock readings in milliseconds. Readings of one clock are compared, and only within it;
time that would pass the last reading stops there. -/
namespace Admission

abbrev Timestamp := UInt64

namespace Timestamp

/-- The last reading a clock can show. -/
abbrev last : Timestamp := UInt64.ofNatClamp UInt64.size

/-- The reading so many milliseconds later, or the last one. -/
def plus (t : Timestamp) (millis : Nat) : Timestamp :=
  UInt64.ofNatClamp (t.toNat + millis)

/-- The reading after the whole milliseconds of a duration have passed. -/
def after (t : Timestamp) (d : Duration) : Timestamp :=
  t.plus d.toMillis.toNat

/-- Milliseconds from one reading to another; none if the clock went back. -/
def since (now earlier : Timestamp) : Nat :=
  now.toNat - earlier.toNat

theorem toNat_plus (t : Timestamp) (millis : Nat) :
    (t.plus millis).toNat = min (t.toNat + millis) (UInt64.size - 1) := by
  unfold plus UInt64.ofNatClamp
  split
  · rename_i small
    rw [UInt64.toNat_ofNatLT]
    simp only [UInt64.size] at *
    omega
  · rename_i large
    rw [UInt64.toNat_ofNatLT]
    simp only [UInt64.size] at *
    omega

theorem le_plus (t : Timestamp) (millis : Nat) : t ≤ t.plus millis := by
  have := t.toNat_lt
  rw [UInt64.le_iff_toNat_le, toNat_plus, UInt64.size]
  omega

end Timestamp
end Admission
