import Admission.Meter.Window
import Admission.Proofs.Timestamp

namespace Admission.Window

section

variable {length : Nat} {now : Timestamp} {window : Window}

/-- The whole lengths that have passed lead to the reading at most, or nowhere if it is too early. -/
theorem start_add_passed_lt (length : Nat) (now : Timestamp) (window : Window) :
    window.start.toNat + now.since window.start / length * length < UInt64.size := by
  have reached := Nat.div_mul_le_self (now.since window.start) length
  have word := now.toNat_lt
  have start := window.start.toNat_lt
  simp only [Timestamp.since, UInt64.size] at *
  omega

theorem toNat_rotate_start : (window.rotate length now).start.toNat =
    window.start.toNat + now.since window.start / length * length := by
  unfold rotate
  by_cases young : now.since window.start / length = 0
  · rw [if_pos young, young, Nat.zero_mul, Nat.add_zero]
  · rw [if_neg young, Timestamp.toNat_plus]
    exact Nat.min_eq_left (Nat.le_sub_one_of_lt (start_add_passed_lt length now window))

theorem dvd_rotate_start (aligned : length ∣ window.start.toNat) :
    length ∣ (window.rotate length now).start.toNat := by
  rw [toNat_rotate_start]
  exact Nat.dvd_add aligned (Nat.dvd_mul_left ..)

/-- A window that the clock has not left behind holds the time once it has moved on. -/
theorem rotate_around (positive : 0 < length) (started : window.start ≤ now) :
    (window.rotate length now).start ≤ now ∧
      now.toNat < (window.rotate length now).start.toNat + length := by
  rw [UInt64.le_iff_toNat_le] at *
  have parts := Nat.div_add_mod' (now.since window.start) length
  have rest := Nat.mod_lt (now.since window.start) positive
  rw [toNat_rotate_start]
  simp only [Timestamp.since] at *
  omega

theorem rotate_cases (positive : 0 < length) (window : Window) (now : Timestamp) :
    window.rotate length now = window ∨
    window.start.toNat < (window.rotate length now).start.toNat ∧
      (window.rotate length now).current = 0 ∧
      ((window.rotate length now).previous = window.current ∨ (window.rotate length now).previous = 0) := by
  by_cases young : now.since window.start / length = 0
  · left
    rw [rotate, if_pos young]
  · right
    refine ⟨?_, ?_, ?_⟩
    · rw [toNat_rotate_start]
      exact Nat.lt_add_of_pos_right (Nat.mul_pos (Nat.pos_of_ne_zero young) positive)
    · rw [rotate, if_neg young]
    · rw [rotate, if_neg young]
      by_cases once : now.since window.start / length = 1
      · exact .inl (if_pos once)
      · exact .inr (if_neg once)

theorem since_rotate_start_lt (positive : 0 < length) (window : Window) (now : Timestamp) :
    now.since (window.rotate length now).start < length := by
  have parts := Nat.div_add_mod' (now.since window.start) length
  have rest := Nat.mod_lt (now.since window.start) positive
  rw [Timestamp.since, toNat_rotate_start]
  rw [Timestamp.since] at *
  omega

private theorem passed_add {now later : Timestamp} (le : now ≤ later) (length : Nat) (window : Window) :
    later.since window.start / length =
      now.since window.start / length + later.since (window.rotate length now).start / length := by
  rcases Nat.eq_zero_or_pos length with zero | positive
  · simp [zero]
  · have reached := Nat.div_mul_le_self (now.since window.start) length
    have ordered := UInt64.le_iff_toNat_le.mp le
    have split : later.since window.start = later.since (window.rotate length now).start +
        length * (now.since window.start / length) := by
      rw [Timestamp.since, Timestamp.since, toNat_rotate_start, Nat.mul_comm length]
      rw [Timestamp.since] at *
      omega
    rw [split, Nat.add_mul_div_left _ _ positive, Nat.add_comm]

theorem rotate_of_two_le (far : 2 ≤ now.since window.start / length) :
    window.rotate length now = ⟨(window.rotate length now).start, 0, 0⟩ := by
  have moves : ¬ now.since window.start / length = 0 := Nat.ne_of_gt (Nat.lt_of_lt_of_le Nat.two_pos far)
  have several : ¬ now.since window.start / length = 1 := Nat.ne_of_gt far
  rw [rotate, if_neg moves, if_neg several]

theorem rotate_of_eq_one (once : now.since window.start / length = 1) :
    window.rotate length now = ⟨(window.rotate length now).start, 0, window.current⟩ := by
  have moves : ¬ now.since window.start / length = 0 := by rw [once]; exact Nat.one_ne_zero
  rw [rotate, if_neg moves, if_pos once]

/-- A window that moves on in two steps comes to where one step takes it. -/
theorem rotate_rotate {now later : Timestamp} (le : now ≤ later) (length : Nat) (window : Window) :
    (window.rotate length now).rotate length later = window.rotate length later := by
  have passed := passed_add le length window
  have start : ((window.rotate length now).rotate length later).start = (window.rotate length later).start := by
    rw [← UInt64.toNat_inj, toNat_rotate_start, toNat_rotate_start, toNat_rotate_start, passed, Nat.add_mul,
      Nat.add_assoc]
  rcases Nat.eq_zero_or_pos (now.since window.start / length) with young | moved
  · rw [show window.rotate length now = window from if_pos young]
  rcases Nat.eq_zero_or_pos (later.since (window.rotate length now).start / length) with still | again
  · rw [show (window.rotate length now).rotate length later = window.rotate length now from if_pos still,
      rotate, rotate, passed, still, Nat.add_zero]
  · -- The first move clears the count, so the second one has nothing to keep.
    have far : 2 ≤ later.since window.start / length := by
      rw [passed]
      exact Nat.add_le_add moved again
    have fresh : (window.rotate length now).current = 0 := by rw [rotate, if_neg (Nat.ne_of_gt moved)]
    have cleared : (window.rotate length now).rotate length later =
        ⟨((window.rotate length now).rotate length later).start, 0, 0⟩ := by
      rw [rotate, if_neg (Nat.ne_of_gt again), fresh, ite_self]
    rw [cleared, start, ← rotate_of_two_le far]

private theorem toNat_empty_start : (empty length now).start.toNat = now.toNat - now.toNat % length := by
  have word := now.toNat_lt
  simp only [empty, Timestamp.toNat_ofNatClamp, UInt64.size]
  omega

theorem dvd_empty_start : length ∣ (empty length now).start.toNat := by
  rw [toNat_empty_start]
  exact Nat.dvd_sub_mod _

theorem rotate_empty {now later : Timestamp} (le : now ≤ later) (length : Nat) :
    (empty length now).rotate length later = empty length later := by
  have start : ((empty length now).rotate length later).start = (empty length later).start := by
    have ordered := Nat.div_le_div_right (c := length) (UInt64.le_iff_toNat_le.mp le)
    have whole (t : Nat) : t - t % length = length * (t / length) :=
      Nat.sub_eq_of_eq_add (Nat.div_add_mod t length).symm
    rw [← UInt64.toNat_inj, toNat_rotate_start, Timestamp.since, toNat_empty_start, toNat_empty_start,
      whole, whole, Nat.sub_mul_div, Nat.mul_comm _ length, ← Nat.mul_add, Nat.add_sub_cancel' ordered]
  have cleared : (empty length now).rotate length later =
      ⟨((empty length now).rotate length later).start, 0, 0⟩ := by
    unfold rotate
    dsimp only
    split_ifs <;> rfl
  rw [cleared, start]
  rfl

theorem empty_around (positive : 0 < length) : (empty length now).start ≤ now ∧
    now.toNat < (empty length now).start.toNat + length := by
  have rest := Nat.mod_lt now.toNat positive
  rw [UInt64.le_iff_toNat_le, toNat_empty_start]
  omega

end
end Admission.Window
