import Mathlib.Algebra.Order.Floor.Semifield
import Mathlib.Data.Rat.Floor
import Admission.Proofs.Binary64.Error

namespace Admission.Binary64

/-- A value that is a whole number. A zero may have either sign. -/
structure Whole (a : Binary64) (n : Nat) : Prop where
  finite : a.isFinite
  toRat_eq : a.toRat = n

section

variable {a b : Binary64} {m n : Nat}

theorem Whole.nonneg (whole : Whole a n) : 0 ≤ a.toRat := by
  rw [whole.toRat_eq]
  exact Nat.cast_nonneg n

theorem whole_ofNat (fits : n ≤ 2 * binade) : Whole (ofNat n) n :=
  ⟨(ofNat_exact fits).1, (ofNat_exact fits).2⟩

theorem whole_zero : Whole 0 0 :=
  whole_ofNat (Nat.zero_le _)

theorem Rounds.whole (rounds : Rounds n a) (fits : n ≤ 2 * binade) : Whole a n := by
  obtain ⟨finite, exactly⟩ := ofNat_exact fits
  rw [← exactly] at rounds
  obtain ⟨numberFinite, same⟩ := rounds.toRat_eq finite
  exact ⟨numberFinite, same.trans exactly⟩

theorem Whole.add (first : Whole a m) (second : Whole b n) (fits : m + n ≤ 2 * binade) :
    Whole (a + b) (m + n) := by
  have sum := rounds_add first.finite second.finite
  rw [first.toRat_eq, second.toRat_eq, ← Nat.cast_add] at sum
  exact sum.whole fits

theorem Whole.sub (first : Whole a m) (second : Whole b n) (le : n ≤ m) (fits : m ≤ 2 * binade) :
    Whole (a - b) (m - n) := by
  have difference := rounds_sub first.finite second.finite
  rw [first.toRat_eq, second.toRat_eq, ← Nat.cast_sub le] at difference
  exact difference.whole ((Nat.sub_le ..).trans fits)

theorem Whole.ofNat_le_iff (whole : Whole a m) (fits : m < 2 * binade) (word : n ≤ UInt64.size) :
    ofNat n ≤ a ↔ n ≤ m := by
  constructor
  · intro le
    by_contra more
    have finite := isFinite_ofNat word
    have low := (rounds_ofNat n).natCast_le finite (n := m + 1) fits
      (Nat.cast_le.mpr (Nat.lt_of_not_le more))
    have high := (le_iff_toRat finite whole.finite).mp le
    rw [whole.toRat_eq] at high
    exact absurd (Nat.cast_le.mp (low.trans high)) (Nat.not_succ_le_self m)
  · intro le
    refine (rounds_ofNat n).le (rounds_toRat whole.finite) ?_
    rw [whole.toRat_eq]
    exact Nat.cast_le.mpr le

theorem Whole.lt_of_lt_ofNat (whole : Whole a m) (less : a < ofNat n) : m < n := by
  by_contra more
  have rounds := rounds_toRat whole.finite
  rw [whole.toRat_eq] at rounds
  have above := (rounds_ofNat n).le rounds (Nat.cast_le.mpr (not_lt.mp more))
  exact (lt_iff_not_le (isNaN_of_le above).2 (isNaN_of_le above).1).mp less above

theorem Whole.lt_iff (first : Whole a m) (second : Whole b n) : a < b ↔ m < n := by
  rw [lt_iff_toRat first.finite second.finite, first.toRat_eq, second.toRat_eq, Nat.cast_lt]

/-- The magnitude of a number that is not negative; only zero has the other sign. -/
theorem exists_units_of_nonneg (finite : a.isFinite) (nonneg : 0 ≤ a.toRat) : ∃ negative index,
    a = .finite negative index ∧ a.toRat = units index * least ∧ (negative = true → units index = 0) := by
  obtain ⟨negative, index, rfl⟩ := exists_of_isFinite finite
  have positive := least_pos
  have magnitude : 0 ≤ (units index : ℚ) * least := mul_nonneg (Nat.cast_nonneg _) positive.le
  refine ⟨negative, index, rfl, ?_, ?_⟩
  · rw [← abs_of_nonneg nonneg, toRat, abs_signed, abs_of_nonneg magnitude]
  · intro sign
    subst sign
    rw [toRat, signed_true] at nonneg
    have zero : (units index : ℚ) = 0 :=
      (mul_eq_zero.mp (le_antisymm (neg_nonneg.mp nonneg) magnitude)).resolve_right positive.ne'
    exact_mod_cast zero

private theorem toNat_toUInt64 (finite : a.isFinite) (nonneg : 0 ≤ a.toRat) (word : ⌊a.toRat⌋₊ < UInt64.size) :
    a.toUInt64.toNat = ⌊a.toRat⌋₊ := by
  obtain ⟨negative, index, rfl, magnitude, zero⟩ := exists_units_of_nonneg finite nonneg
  have part : units index / unitsPerOne = ⌊toRat (.finite negative index)⌋₊ := by
    rw [magnitude, least, mul_one_div, Nat.floor_div_eq_div]
  cases negative with
  | true =>
    rw [zero rfl, Nat.zero_div] at part
    exact part
  | false =>
    show (UInt64.ofNatClamp (units index / unitsPerOne)).toNat = _
    rw [part, UInt64.ofNatClamp, dif_pos word, UInt64.toNat_ofNatLT]

theorem Whole.toNat_toUInt64 (whole : Whole a n) (word : n < UInt64.size) : a.toUInt64.toNat = n := by
  have part : ⌊a.toRat⌋₊ = n := by rw [whole.toRat_eq, Nat.floor_natCast]
  rw [Binary64.toNat_toUInt64 whole.finite whole.nonneg (by rwa [part]), part]

private theorem whole_ofQuotient {negative : Bool} (sign : negative = true → n = 0) (whole : Whole a n) :
    Whole (ofQuotient negative (unitsPerOne * n) 1) n := by
  have rounds : Rounds a.toRat (ofQuotient negative (unitsPerOne * n) 1) := by
    refine ⟨negative, unitsPerOne * n, 1, Nat.one_pos, rfl, ?_⟩
    rw [whole.toRat_eq, Nat.cast_mul, Nat.cast_one, div_one, mul_right_comm, unitsPerOne_mul_least, one_mul]
    cases negative with
    | false => rfl
    | true => rw [sign rfl, Nat.cast_zero, signed_zero]
  obtain ⟨finite, same⟩ := rounds.toRat_eq whole.finite
  exact ⟨finite, same.trans whole.toRat_eq⟩

private theorem two_pow_mul {i j : Nat} (sum : i + j = 1074) : 2 ^ i * 2 ^ j = unitsPerOne := by
  rw [← pow_add, sum]
  exact (one_shiftLeft 1074).symm

private theorem mul_unitsPerOne_mul_least (n : Nat) : ((n * unitsPerOne : Nat) : ℚ) * least = n := by
  rw [Nat.cast_mul, mul_assoc, unitsPerOne_mul_least, mul_one]

/-- The grid of a number is as fine as a power of two, or the number is whole. -/
private theorem exists_scaled_or_whole (finite : a.isFinite) (nonneg : 0 ≤ a.toRat) : (∃ n, Whole a n) ∨
    ∃ significand shift rest : Nat, significand < 2 * binade ∧ shift + rest = 1074 ∧
      a.toRat = (significand * 2 ^ shift : Nat) * least := by
  obtain ⟨negative, index, rfl, scaled, -⟩ := exists_units_of_nonneg finite nonneg
  obtain ⟨shift, significand, grid, fits, leads⟩ := exists_grid index
  rw [grid, units_grid fits.le leads] at scaled
  rcases Nat.le_total 1074 shift with coarse | fine
  · obtain ⟨extra, rfl⟩ := Nat.exists_eq_add_of_le' coarse
    refine .inl ⟨significand * 2 ^ extra, finite, ?_⟩
    rw [scaled, pow_add, ← one_shiftLeft 1074, ← Nat.mul_assoc, mul_unitsPerOne_mul_least]
  · exact .inr ⟨significand, shift, 1074 - shift, fits, Nat.add_sub_cancel' fine, scaled⟩

/-- What has more than 53 digits before the point has none after it. -/
private theorem whole_of_large (finite : a.isFinite) (large : ((2 * binade : Nat) : ℚ) ≤ a.toRat) :
    ∃ n, Whole a n := by
  rcases exists_scaled_or_whole finite ((Nat.cast_nonneg _).trans large) with
    whole | ⟨significand, shift, rest, fits, sum, scaled⟩
  · exact whole
  · exfalso
    have below : significand * 2 ^ shift < 2 * binade * unitsPerOne :=
      Nat.mul_lt_mul_of_lt_of_le fits
        (two_pow_mul sum ▸ Nat.le_mul_of_pos_right _ (by positivity)) unitsPerOne_pos
    have less : a.toRat < (2 * binade : Nat) := by
      rw [scaled, ← mul_unitsPerOne_mul_least (2 * binade)]
      exact mul_lt_mul_of_pos_right (Nat.cast_lt.mpr below) least_pos
    exact absurd large (not_le.mpr less)

/-- A whole number is taken off exactly, whatever stands after the point. -/
theorem sub_whole (finite : a.isFinite) (whole : Whole b n) (le : (n : ℚ) ≤ a.toRat)
    (small : a.toRat ≤ (2 * binade : Nat)) : (a - b).isFinite ∧ (a - b).toRat = a.toRat - n := by
  have low : (0 : ℚ) ≤ n := Nat.cast_nonneg n
  rcases exists_scaled_or_whole finite (low.trans le) with
    ⟨m, value⟩ | ⟨significand, shift, rest, fits, sum, scaled⟩
  · rw [value.toRat_eq, Nat.cast_le] at le small
    have difference := value.sub whole le small
    exact ⟨difference.finite, by rw [difference.toRat_eq, value.toRat_eq, Nat.cast_sub le]⟩
  · have rounds := rounds_sub finite whole.finite
    rw [whole.toRat_eq] at rounds
    have nonneg : 0 ≤ a.toRat - n := sub_nonneg.mpr le
    have leftFinite : (a - b).isFinite := by
      refine rounds.isFinite_of_le finite ?_
      rw [abs_of_nonneg nonneg, abs_of_nonneg (low.trans le)]
      linarith
    refine ⟨leftFinite, ?_⟩
    -- What is taken off lies on the same grid, and what is left needs no more digits.
    have cost : (n : ℚ) = (n * 2 ^ rest * 2 ^ shift : Nat) * least := by
      rw [Nat.mul_assoc, Nat.mul_comm (2 ^ rest), two_pow_mul sum, mul_unitsPerOne_mul_least]
    have covered : n * 2 ^ rest ≤ significand := by
      rw [cost, scaled, mul_le_mul_iff_of_pos_right least_pos, Nat.cast_le] at le
      exact Nat.le_of_mul_le_mul_right le (by positivity)
    have fewer : significand - n * 2 ^ rest ≤ 2 * binade := (Nat.sub_le ..).trans fits.le
    obtain ⟨index, -, same⟩ := exists_units_eq_mul_pow fewer shift
    have grid : |a.toRat - n| = units index * least := by
      rw [abs_of_nonneg nonneg, same, scaled, cost, Nat.sub_mul, Nat.cast_sub (Nat.mul_le_mul_right _ covered)]
      ring
    exact rounds.toRat_of_units leftFinite grid

private theorem wholePart_false (index : Nat) : wholePart false index = ⌊(units index : ℚ) * least⌋₊ := by
  rw [least, mul_one_div, Nat.floor_div_eq_div]
  rfl

private theorem wholePart_true (index : Nat) : wholePart true index = ⌈(units index : ℚ) * least⌉₊ := by
  have positive : (0 : ℚ) < unitsPerOne := Nat.cast_pos.mpr unitsPerOne_pos
  show (unitsPerOne - 1 + units index) / unitsPerOne = _
  refine eq_of_forall_ge_iff fun n => ?_
  rw [Nat.ceil_le, least, mul_one_div, div_le_iff₀ positive, ← Nat.cast_mul, Nat.cast_le,
    ← Nat.lt_succ_iff, Nat.div_lt_iff_lt_mul unitsPerOne_pos, Nat.succ_mul]
  have unit := unitsPerOne_pos
  omega

private theorem exists_whole (finite : a.isFinite) (next : n = ⌊a.toRat⌋₊ ∨ n = ⌈a.toRat⌉₊) :
    ∃ b, Whole b n := by
  rcases le_total a.toRat (2 * binade : Nat) with small | large
  · refine ⟨ofNat n, whole_ofNat ?_⟩
    rcases next with rfl | rfl
    · exact Nat.floor_le_of_le small
    · exact Nat.ceil_le.mpr small
  · obtain ⟨m, whole⟩ := whole_of_large finite large
    rw [whole.toRat_eq, Nat.floor_natCast, Nat.ceil_natCast, or_self] at next
    exact ⟨a, next ▸ whole⟩

theorem whole_floor (finite : a.isFinite) (nonneg : 0 ≤ a.toRat) : Whole a.floor ⌊a.toRat⌋₊ := by
  obtain ⟨b, number⟩ := exists_whole finite (.inl rfl)
  obtain ⟨negative, index, rfl, magnitude, zero⟩ := exists_units_of_nonneg finite nonneg
  show Whole (ofQuotient negative (unitsPerOne * wholePart negative index) 1) _
  have part : wholePart negative index = ⌊toRat (.finite negative index)⌋₊ := by
    rw [magnitude]
    cases negative with
    | false => exact wholePart_false index
    | true => rw [wholePart_true, zero rfl, Nat.cast_zero, zero_mul, Nat.ceil_zero, Nat.floor_zero]
  rw [part]
  refine whole_ofQuotient (fun sign => ?_) number
  rw [magnitude, zero sign, Nat.cast_zero, zero_mul, Nat.floor_zero]

theorem whole_ceil (finite : a.isFinite) (nonneg : 0 ≤ a.toRat) : Whole a.ceil ⌈a.toRat⌉₊ := by
  obtain ⟨b, number⟩ := exists_whole finite (.inr rfl)
  obtain ⟨negative, index, rfl, magnitude, zero⟩ := exists_units_of_nonneg finite nonneg
  show Whole (ofQuotient negative (unitsPerOne * wholePart (!negative) index) 1) _
  have part : wholePart (!negative) index = ⌈toRat (.finite negative index)⌉₊ := by
    rw [magnitude]
    cases negative with
    | false => exact wholePart_true index
    | true =>
      show wholePart false index = _
      rw [wholePart_false, zero rfl, Nat.cast_zero, zero_mul, Nat.ceil_zero, Nat.floor_zero]
  rw [part]
  refine whole_ofQuotient (fun sign => ?_) number
  rw [magnitude, zero sign, Nat.cast_zero, zero_mul, Nat.ceil_zero]

theorem Whole.floor (whole : Whole a n) : Whole a.floor n := by
  simpa only [whole.toRat_eq, Nat.floor_natCast] using whole_floor whole.finite whole.nonneg

theorem Whole.ceil (whole : Whole a n) : Whole a.ceil n := by
  simpa only [whole.toRat_eq, Nat.ceil_natCast] using whole_ceil whole.finite whole.nonneg

theorem Whole.max_zero (whole : Whole a n) : Whole (max a 0) n := by
  rcases max_cases (isNaN_of_isFinite whole.finite) (isNaN_of_isFinite isFinite_zero) with
    ⟨-, same⟩ | ⟨less, same⟩
  · rwa [same]
  · exact absurd ((whole.lt_iff whole_zero).mp less) (Nat.not_lt_zero n)

private theorem toUInt64_ofIndex_true (index : Nat) : (ofIndex true index).toUInt64 = 0 := by
  unfold ofIndex
  split <;> rfl

theorem toNat_toUInt64_max_floor (finite : a.isFinite) (word : ⌊a.toRat⌋₊ < UInt64.size) :
    (max a.floor 0).toUInt64.toNat = ⌊a.toRat⌋₊ := by
  rcases le_total 0 a.toRat with nonneg | nonpos
  · exact (whole_floor finite nonneg).max_zero.toNat_toUInt64 word
  · rw [Nat.floor_of_nonpos nonpos]
    obtain ⟨negative, index, rfl⟩ := exists_of_isFinite finite
    cases negative with
    | false =>
      have nonneg : 0 ≤ toRat (.finite false index) := mul_nonneg (Nat.cast_nonneg _) least_pos.le
      have zero : Whole (.finite false index) 0 := ⟨rfl, (le_antisymm nonpos nonneg).trans Nat.cast_zero.symm⟩
      exact zero.floor.max_zero.toNat_toUInt64 (by decide)
    | true =>
      show (max (ofIndex true _) 0).toUInt64.toNat = 0
      rcases max_cases (isNaN_ofIndex true _) (isNaN_of_isFinite isFinite_zero) with ⟨-, same⟩ | ⟨-, same⟩
      · rw [same, toUInt64_ofIndex_true]
        rfl
      · rw [same]
        exact whole_zero.toNat_toUInt64 (by decide)

end
end Admission.Binary64
