import Mathlib.Tactic.SplitIfs
import Admission.Time.Timestamp

namespace Admission.Timestamp

theorem toNat_ofNatClamp (n : Nat) : (UInt64.ofNatClamp n).toNat = min n (UInt64.size - 1) := by
  simpa [plus] using toNat_plus 0 n

theorem toNat_last : last.toNat = UInt64.size - 1 := by
  decide

@[simp] theorem toNat_max (s t : Timestamp) : (max s t).toNat = max s.toNat t.toNat := by
  rw [show max s t = if s ≤ t then t else s from rfl, Nat.max_def]
  simp only [UInt64.le_iff_toNat_le]
  split_ifs <;> rfl

theorem le_max_right (s t : Timestamp) : t ≤ max s t := by
  rw [UInt64.le_iff_toNat_le, toNat_max]
  exact Nat.le_max_right ..

theorem max_self (t : Timestamp) : max t t = t := by
  rw [← UInt64.toNat_inj, toNat_max, Nat.max_self]

theorem since_le_size (now earlier : Timestamp) : now.since earlier ≤ UInt64.size :=
  Nat.le_trans (Nat.sub_le ..) (Nat.le_of_lt now.toNat_lt)

theorem toNat_plus_of_lt {t : Timestamp} {millis : Nat} (early : t.plus millis < last) :
    (t.plus millis).toNat = t.toNat + millis := by
  rw [UInt64.lt_iff_toNat_lt, toNat_last] at early
  rw [toNat_plus] at early ⊢
  omega

end Admission.Timestamp

namespace Admission.Duration

theorem toNat_toMillis (d : Duration) : d.toMillis.toNat = min (d.nanos / 1000000) (UInt64.size - 1) :=
  Timestamp.toNat_ofNatClamp _

end Admission.Duration
