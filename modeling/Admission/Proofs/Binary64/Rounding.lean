import Mathlib.Algebra.Order.Ring.Nat
import Mathlib.Tactic.Linarith
import Mathlib.Tactic.Positivity
import Mathlib.Tactic.Ring
import Admission.Binary64.Arithmetic

namespace Admission.Binary64

theorem unitsPerOne_pos : 0 < unitsPerOne := by decide

/-- A significand of 53 digits times a power of two is a magnitude. The pattern counts the
significand on from the start of its exponent, also where it has carried into the next one. -/
theorem units_grid {shift significand : Nat} (fits : significand ≤ 2 * binade)
    (leads : shift = 0 ∨ binade ≤ significand) :
    units (binade * shift + significand) = significand * 2 ^ shift := by
  rcases Nat.lt_or_ge significand binade with small | large
  · have subnormal : shift = 0 := by omega
    subst subnormal
    simp [units, small]
  · obtain ⟨digits, rfl⟩ := Nat.exists_eq_add_of_le large
    have normal : ¬ binade * shift + (binade + digits) < binade := by omega
    simp only [units, normal, if_false, Nat.shiftLeft_eq]
    rcases Nat.lt_or_ge digits binade with below | carried
    · have block : (binade * shift + (binade + digits)) / binade = shift + 1 := by
        simp only [binade] at *; omega
      have inside : (binade * shift + (binade + digits)) % binade = digits := by
        simp only [binade] at *; omega
      rw [block, inside, Nat.add_sub_cancel]
    · have full : digits = binade := by omega
      have block : (binade * shift + (binade + digits)) / binade = shift + 2 := by
        simp only [binade] at *; omega
      have inside : (binade * shift + (binade + digits)) % binade = 0 := by
        simp only [binade] at *; omega
      rw [block, inside, full, show shift + 2 - 1 = shift + 1 by omega, pow_succ]
      ring

theorem exists_grid (index : Nat) : ∃ shift significand, index = binade * shift + significand ∧
    significand < 2 * binade ∧ (shift = 0 ∨ binade ≤ significand) := by
  rcases Nat.lt_or_ge index binade with small | large
  · exact ⟨0, index, by omega, by omega, .inl rfl⟩
  · have below := Nat.mod_lt index (show 0 < binade by decide)
    refine ⟨index / binade - 1, binade + index % binade, ?_, by omega, .inr (by omega)⟩
    simp only [binade] at *
    omega

/-- A significand of 53 digits, with or without zeros in front, times a power of two is a magnitude. -/
theorem exists_units_eq_mul_pow {significand : Nat} (fits : significand ≤ 2 * binade) (shift : Nat) :
    ∃ index ≤ binade * (shift + 2), units index = significand * 2 ^ shift := by
  induction shift generalizing significand with
  | zero =>
    refine ⟨significand, by omega, ?_⟩
    have grid : units (binade * 0 + significand) = significand * 2 ^ 0 := units_grid fits (.inl rfl)
    rwa [Nat.mul_zero, Nat.zero_add] at grid
  | succ shift ih =>
    rcases Nat.le_total binade significand with leads | small
    · refine ⟨binade * (shift + 1) + significand, ?_, units_grid fits (.inr leads)⟩
      rw [Nat.mul_add binade (shift + 1), Nat.mul_comm binade 2]
      exact Nat.add_le_add_left fits _
    · obtain ⟨index, bound, same⟩ := ih (Nat.mul_le_mul_left 2 small)
      refine ⟨index, bound.trans (Nat.mul_le_mul_left _ (Nat.le_succ _)), ?_⟩
      rw [same, pow_succ]
      ring

theorem units_strictMono : StrictMono units := by
  apply strictMono_nat_of_lt_succ
  intro index
  obtain ⟨shift, significand, rfl, fits, leads⟩ := exists_grid index
  rw [Nat.add_assoc, units_grid (by omega) leads, units_grid (by omega) (by omega)]
  exact Nat.mul_lt_mul_of_pos_right (Nat.lt_succ_self _) (by positivity)

@[simp] theorem units_zero : units 0 = 0 := rfl

theorem units_eq_zero {index : Nat} : units index = 0 ↔ index = 0 :=
  ⟨fun zero => units_strictMono.injective zero, fun zero => by rw [zero, units_zero]⟩

private theorem roundHalfEven_bounds (numerator denominator : Nat) :
    numerator / denominator ≤ roundHalfEven numerator denominator ∧
      roundHalfEven numerator denominator ≤ numerator / denominator + 1 := by
  unfold roundHalfEven
  dsimp only
  split_ifs <;> omega

theorem roundHalfEven_error (numerator : Nat) {denominator : Nat} (positive : 0 < denominator) :
    2 * (roundHalfEven numerator denominator * denominator) ≤ 2 * numerator + denominator ∧
      2 * numerator ≤ 2 * (roundHalfEven numerator denominator * denominator) + denominator := by
  have whole := Nat.div_add_mod numerator denominator
  have rest := Nat.mod_lt numerator positive
  rw [Nat.mul_comm] at whole
  unfold roundHalfEven
  dsimp only
  split_ifs
  · omega
  · rw [Nat.add_mul]
    omega
  · rcases Nat.mod_two_eq_zero_or_one (numerator / denominator) with even | odd
    · rw [even, Nat.add_zero]
      omega
    · rw [odd, Nat.add_mul]
      omega

theorem roundHalfEven_eq {numerator denominator k : Nat}
    (above : 2 * numerator < 2 * (k * denominator) + denominator)
    (under : 2 * (k * denominator) < 2 * numerator + denominator) : roundHalfEven numerator denominator = k := by
  have positive : 0 < denominator := by omega
  obtain ⟨most, least⟩ := roundHalfEven_error numerator positive
  generalize roundHalfEven numerator denominator = r at most least ⊢
  have high : r * denominator < (k + 1) * denominator := by
    rw [Nat.succ_mul]
    omega
  have low : k * denominator < (r + 1) * denominator := by
    rw [Nat.succ_mul]
    omega
  have less := Nat.lt_of_mul_lt_mul_right high
  have more := Nat.lt_of_mul_lt_mul_right low
  omega

/-- A half goes down only next to an even number, so equal halves go the same way. -/
theorem roundHalfEven_mono {n d m e : Nat} (dpos : 0 < d) (epos : 0 < e) (le : n * e ≤ m * d) :
    roundHalfEven n d ≤ roundHalfEven m e := by
  have quotients : n / d ≤ m / e := by
    rw [Nat.le_div_iff_mul_le epos]
    apply Nat.le_of_mul_le_mul_right _ dpos
    calc n / d * e * d = n / d * d * e := by ring
      _ ≤ n * e := Nat.mul_le_mul_right e (Nat.div_mul_le_self n d)
      _ ≤ m * d := le
  rcases Nat.lt_or_eq_of_le quotients with less | same
  · have below := (roundHalfEven_bounds n d).2
    have above := (roundHalfEven_bounds m e).1
    omega
  · have wholeN := Nat.div_add_mod n d
    have wholeM := Nat.div_add_mod m e
    have rests : n % d * e ≤ m % e * d := by
      rw [← same] at wholeM
      nlinarith
    unfold roundHalfEven
    rw [← same]
    dsimp only
    -- Where the lesser quotient goes up and the greater one down, the rests are in the wrong order.
    split_ifs <;> first | omega | (exfalso; nlinarith)

/-- The shift of a quotient leaves a whole part of 53 digits, or of fewer if nothing is shifted. -/
private theorem shift_spec (whole : Nat) :
    whole < 2 * binade * 2 ^ (whole / binade).log2 ∧
      ((whole / binade).log2 = 0 ∨ binade * 2 ^ (whole / binade).log2 ≤ whole) := by
  have pos : 0 < binade := by decide
  constructor
  · have above := @Nat.lt_log2_self (whole / binade)
    rw [Nat.div_lt_iff_lt_mul pos, pow_succ] at above
    linarith
  · rcases Nat.eq_zero_or_pos (whole / binade) with zero | positive
    · left
      rw [zero]
      rfl
    · right
      have below := Nat.log2_self_le (Nat.pos_iff_ne_zero.mp positive)
      rw [Nat.le_div_iff_mul_le pos] at below
      linarith

/-- The nearest pattern is a shift and the quotient rounded at that shift. -/
theorem nearestIndex_grid (n : Nat) {d : Nat} (dpos : 0 < d) :
    ∃ shift significand, nearestIndex n d = binade * shift + significand ∧
      significand = roundHalfEven n (d * 2 ^ shift) ∧ significand ≤ 2 * binade ∧
      (shift = 0 ∨ binade ≤ significand) ∧
      n < 2 * binade * (d * 2 ^ shift) ∧ (shift = 0 ∨ binade * (d * 2 ^ shift) ≤ n) := by
  obtain ⟨above, below⟩ := shift_spec (n / d)
  generalize grid : (n / d / binade).log2 = shift at above below
  have scale : 0 < d * 2 ^ shift := by positivity
  have less : n < 2 * binade * (d * 2 ^ shift) := by
    rw [Nat.div_lt_iff_lt_mul dpos] at above
    linarith
  have more : shift = 0 ∨ binade * (d * 2 ^ shift) ≤ n := by
    rw [Nat.le_div_iff_mul_le dpos] at below
    exact below.imp_right fun le => by linarith
  have bounds := roundHalfEven_bounds n (d * 2 ^ shift)
  refine ⟨shift, roundHalfEven n (d * 2 ^ shift), ?_, rfl, ?_, ?_, less, more⟩
  · simp only [nearestIndex, grid, Nat.shiftLeft_eq]
  · have top := (Nat.div_lt_iff_lt_mul scale).mpr less
    omega
  · refine more.imp_right fun le => ?_
    have bottom := (Nat.le_div_iff_mul_le scale).mpr le
    omega

theorem units_nearestIndex_error (n : Nat) {d : Nat} (dpos : 0 < d) :
    ∃ shift, (shift = 0 ∨ binade * (d * 2 ^ shift) ≤ n) ∧
      2 * (units (nearestIndex n d) * d) ≤ 2 * n + d * 2 ^ shift ∧
      2 * n ≤ 2 * (units (nearestIndex n d) * d) + d * 2 ^ shift := by
  obtain ⟨shift, significand, index, rounded, fits, leads, -, large⟩ := nearestIndex_grid n dpos
  obtain ⟨above, under⟩ := roundHalfEven_error n (show 0 < d * 2 ^ shift by positivity)
  rw [← rounded] at above under
  have value : units (nearestIndex n d) * d = significand * (d * 2 ^ shift) := by
    rw [index, units_grid fits leads]
    ring
  exact ⟨shift, large, value ▸ above, value ▸ under⟩

theorem nearestIndex_mono {n d m e : Nat} (dpos : 0 < d) (epos : 0 < e) (le : n * e ≤ m * d) :
    nearestIndex n d ≤ nearestIndex m e := by
  obtain ⟨s, low, lowIndex, lowRounded, lowFits, lowLeads, lowLess, lowMore⟩ := nearestIndex_grid n dpos
  obtain ⟨t, high, highIndex, highRounded, highFits, highLeads, highLess, highMore⟩ :=
    nearestIndex_grid m epos
  rw [lowIndex, highIndex]
  rcases Nat.lt_trichotomy s t with less | same | more
  · have apart : binade * (s + 1) ≤ binade * t := Nat.mul_le_mul_left binade less
    have lead : binade ≤ high := by omega
    rw [Nat.mul_add] at apart
    omega
  · subst same
    have ordered : roundHalfEven n (d * 2 ^ s) ≤ roundHalfEven m (e * 2 ^ s) := by
      apply roundHalfEven_mono (by positivity) (by positivity)
      calc n * (e * 2 ^ s) = n * e * 2 ^ s := by ring
        _ ≤ m * d * 2 ^ s := Nat.mul_le_mul_right _ le
        _ = m * (d * 2 ^ s) := by ring
    omega
  · exfalso
    have lead : binade * (d * 2 ^ s) ≤ n := by omega
    have double : 2 * 2 ^ t ≤ 2 ^ s := by
      rw [← pow_succ']
      exact Nat.pow_le_pow_right (by decide) more
    have reach : m * d < n * e := by
      calc m * d < 2 * binade * (e * 2 ^ t) * d := Nat.mul_lt_mul_of_pos_right highLess dpos
        _ = binade * d * e * (2 * 2 ^ t) := by ring
        _ ≤ binade * d * e * 2 ^ s := Nat.mul_le_mul_left _ double
        _ = binade * (d * 2 ^ s) * e := by ring
        _ ≤ n * e := Nat.mul_le_mul_right e lead
    omega

theorem nearestIndex_units (index : Nat) {d : Nat} (dpos : 0 < d) :
    nearestIndex (units index * d) d = index := by
  obtain ⟨shift, significand, rfl, fits, leads⟩ := exists_grid index
  rw [units_grid (by omega) leads]
  obtain ⟨s, m, sameIndex, rounded, mfits, mleads, less, more⟩ :=
    nearestIndex_grid (significand * 2 ^ shift * d) dpos
  have sameShift : s = shift := by
    rcases Nat.lt_trichotomy s shift with below | same | above
    · exfalso
      have lead : binade ≤ significand := by omega
      have double : 2 * 2 ^ s ≤ 2 ^ shift := by
        rw [← pow_succ']
        exact Nat.pow_le_pow_right (by decide) below
      have reach : 2 * binade * (d * 2 ^ s) ≤ significand * 2 ^ shift * d := by
        calc 2 * binade * (d * 2 ^ s) = binade * (2 * 2 ^ s) * d := by ring
          _ ≤ significand * 2 ^ shift * d := Nat.mul_le_mul_right d (Nat.mul_le_mul lead double)
      omega
    · exact same
    · exfalso
      have lead : binade * (d * 2 ^ s) ≤ significand * 2 ^ shift * d := by omega
      have double : 2 * 2 ^ shift ≤ 2 ^ s := by
        rw [← pow_succ']
        exact Nat.pow_le_pow_right (by decide) above
      have scale : 0 < 2 ^ shift * d := by positivity
      have reach : significand * 2 ^ shift * d < binade * (d * 2 ^ s) := by
        calc significand * 2 ^ shift * d = significand * (2 ^ shift * d) := by ring
          _ < 2 * binade * (2 ^ shift * d) := Nat.mul_lt_mul_of_pos_right fits scale
          _ = binade * d * (2 * 2 ^ shift) := by ring
          _ ≤ binade * d * 2 ^ s := Nat.mul_le_mul_left _ double
          _ = binade * (d * 2 ^ s) := by ring
      omega
  subst sameShift
  rw [sameIndex, rounded, show significand * 2 ^ s * d = significand * (d * 2 ^ s) by ring,
    roundHalfEven_mul significand (by positivity)]

end Admission.Binary64
