import Mathlib.Tactic.Linarith
import Admission.Proofs.Binary64.Whole
import Admission.Time.Duration

namespace Admission.Duration

open Binary64

private theorem toRat_billion : (1000000000 : Binary64).isFinite ∧ (1000000000 : Binary64).toRat = 1000000000 :=
  toRat_literal 1000000000 (by decide)

private theorem seconds_le_size (d : Duration) : d.seconds ≤ UInt64.size := by
  have bound := d.nanos_lt
  simp only [seconds, durationEnd, UInt64.size] at *
  omega

private theorem subsecond_spec (d : Duration) : (Binary64.ofNat d.subsecond / 1000000000).isFinite ∧
    0 ≤ (Binary64.ofNat d.subsecond / 1000000000).toRat ∧
    |(Binary64.ofNat d.subsecond / 1000000000).toRat - d.subsecond / 1000000000| ≤
      d.subsecond / 1000000000 / 2 ^ 53 + least / 2 := by
  have less : d.subsecond < 1000000000 := Nat.mod_lt _ (by decide)
  obtain ⟨finite, exactly⟩ := ofNat_exact (n := d.subsecond) (by simp only [binade]; omega)
  obtain ⟨billionFinite, billion⟩ := toRat_billion
  have rounds := rounds_div finite billionFinite (by rw [billion]; norm_num)
  rw [exactly, billion] at rounds
  have low : (0 : ℚ) ≤ (d.subsecond : ℚ) / 1000000000 := div_nonneg (Nat.cast_nonneg _) (by norm_num)
  obtain ⟨quotientFinite, nonneg, -⟩ := rounds.between finite low (by
    rw [exactly]
    exact div_le_self (Nat.cast_nonneg _) (by norm_num))
  have error := rounds.error_le quotientFinite
  rw [abs_of_nonneg low] at error
  exact ⟨quotientFinite, nonneg, error⟩

/-- A duration in seconds, rounded; it may be beyond all numbers as far as this says. -/
theorem rounds_toBinary64 (d : Duration) : ∃ x, Rounds x d.toBinary64 ∧ 0 ≤ x ∧
    |x - d.nanos / 1000000000| ≤ d.nanos / 1000000000 / 2 ^ 53 + least / 2 := by
  obtain ⟨finite, low, error⟩ := subsecond_spec d
  have word := seconds_le_size d
  have whole := ofNat_error word
  have nonneg := toRat_ofNat_nonneg word
  refine ⟨_, rounds_add (isFinite_ofNat word) finite, add_nonneg nonneg low, ?_⟩
  have parts : (d.nanos : ℚ) / 1000000000 = d.seconds + d.subsecond / 1000000000 := by
    have whole : 1000000000 * d.seconds + d.subsecond = d.nanos := Nat.div_add_mod ..
    rw [← whole, Nat.cast_add, Nat.cast_mul, add_div, mul_div_assoc]
    norm_num
    ring
  rw [abs_le] at *
  rw [parts]
  constructor <;> linarith

theorem toBinary64_spec (d : Duration) : d.toBinary64.isFinite ∧ 0 ≤ d.toBinary64.toRat := by
  obtain ⟨finite, low, error⟩ := subsecond_spec d
  have word := seconds_le_size d
  have nonneg := toRat_ofNat_nonneg word
  have rounds : Rounds _ d.toBinary64 := rounds_add (isFinite_ofNat word) finite
  have top : (Binary64.ofNat (2 * UInt64.size)).isFinite := by decide +kernel
  have sum : (Binary64.ofNat d.seconds).toRat + (Binary64.ofNat d.subsecond / 1000000000).toRat ≤
      (2 * UInt64.size : Nat) := by
    have less : (d.subsecond : ℚ) ≤ 1000000000 := by exact_mod_cast (Nat.mod_lt _ (by decide)).le
    have size : ((UInt64.size : Nat) : ℚ) = 2 ^ 64 := by norm_num [UInt64.size]
    have seconds : (d.seconds : ℚ) ≤ UInt64.size := Nat.cast_le.mpr word
    have whole := (abs_le.mp (ofNat_error word)).2
    have tiny := least_tiny
    have rest := (abs_le.mp error).2
    rw [Nat.cast_mul, Nat.cast_ofNat]
    rw [size] at seconds ⊢
    linarith
  have sumFinite := rounds.isFinite_of_le_natCast (add_nonneg nonneg low) top sum
  exact ⟨sumFinite, rounds.nonneg sumFinite (add_nonneg nonneg low)⟩

theorem toBinary64_error (d : Duration) :
    |d.toBinary64.toRat - d.nanos / 1000000000| ≤ d.nanos / 1000000000 / 2 ^ 51 + 2 * least := by
  obtain ⟨x, rounds, low, near⟩ := rounds_toBinary64 d
  have error := rounds.error_le (toBinary64_spec d).1
  have positive := least_pos
  have nonneg : (0 : ℚ) ≤ d.nanos / 1000000000 := by positivity
  rw [abs_of_nonneg low] at error
  rw [abs_le] at near error ⊢
  constructor <;> linarith

theorem toBinary64_le (d : Duration) : d.toBinary64.toRat ≤ 2 ^ 65 := by
  have bound : (d.nanos : ℚ) ≤ 2 ^ 64 * 1000000000 := by
    have whole := d.nanos_lt.le
    simp only [durationEnd, UInt64.size] at whole
    exact_mod_cast whole
  have seconds : (d.nanos : ℚ) / 1000000000 ≤ 2 ^ 64 := by
    rw [div_le_iff₀ (by norm_num)]
    exact bound
  have error := (abs_le.mp d.toBinary64_error).2
  have tiny := least_tiny
  linarith

theorem toBinary64_pos {d : Duration} (nonzero : 0 < d.nanos) :
    (1 : ℚ) / 2000000000 ≤ d.toBinary64.toRat := by
  have one : (1 : ℚ) ≤ d.nanos := by exact_mod_cast nonzero
  have error := (abs_le.mp d.toBinary64_error).1
  have tiny := least_tiny
  linarith

section Nanoseconds

variable {a b : Binary64} {d : Duration}

/-- A number that is not negative is rounded to whole nanoseconds, as long as it is in range. -/
theorem ofBinary64?_of_nonneg (finite : a.isFinite) (nonneg : 0 ≤ a.toRat) : ∃ index,
    a.toRat = units index * least ∧ ofBinary64? a =
      if h : roundHalfEven (1000000000 * units index) unitsPerOne < durationEnd then some ⟨_, h⟩ else none := by
  obtain ⟨negative, index, rfl, magnitude, zero⟩ := exists_units_of_nonneg finite nonneg
  have sign : ¬ (negative = true ∧ index.val ≠ 0) := fun ⟨sign, nonzero⟩ => nonzero (units_eq_zero.mp (zero sign))
  exact ⟨index, magnitude, if_neg sign⟩

/-- A number less than half a nanosecond off a duration is read as that duration. -/
theorem ofBinary64?_eq (finite : a.isFinite) (nonneg : 0 ≤ a.toRat)
    (near : |a.toRat - d.nanos / 1000000000| < 1 / 2000000000) : ofBinary64? a = some d := by
  obtain ⟨index, value, found⟩ := ofBinary64?_of_nonneg finite nonneg
  have positive : (0 : ℚ) < unitsPerOne := Nat.cast_pos.mpr unitsPerOne_pos
  have scaled : a.toRat * unitsPerOne = units index := by
    rw [value, mul_assoc, mul_comm least, unitsPerOne_mul_least, mul_one]
  obtain ⟨low, high⟩ := abs_lt.mp near
  have low := mul_lt_mul_of_pos_right low positive
  have high := mul_lt_mul_of_pos_right high positive
  rw [sub_mul, scaled] at low high
  have same : roundHalfEven (1000000000 * units index) unitsPerOne = d.nanos := by
    have above : (2 * (1000000000 * units index) : ℚ) < 2 * (d.nanos * unitsPerOne) + unitsPerOne := by linarith
    have under : (2 * (d.nanos * unitsPerOne) : ℚ) < 2 * (1000000000 * units index) + unitsPerOne := by linarith
    exact roundHalfEven_eq (by exact_mod_cast above) (by exact_mod_cast under)
  rw [found, dif_pos (same ▸ d.nanos_lt)]
  exact congrArg some (Duration.ext same)

theorem ofBinary64?_mono (finite : a.isFinite) (nonneg : 0 ≤ a.toRat) (otherFinite : b.isFinite)
    (le : a.toRat ≤ b.toRat) (found : ofBinary64? b = some d) : ∃ c, ofBinary64? a = some c ∧ c ≤ d := by
  obtain ⟨i, value, said⟩ := ofBinary64?_of_nonneg finite nonneg
  obtain ⟨j, other, told⟩ := ofBinary64?_of_nonneg otherFinite (nonneg.trans le)
  have magnitudes : units i ≤ units j := by
    rw [value, other, mul_le_mul_iff_of_pos_right least_pos] at le
    exact_mod_cast le
  have ordered : roundHalfEven (1000000000 * units i) unitsPerOne ≤
      roundHalfEven (1000000000 * units j) unitsPerOne :=
    roundHalfEven_mono unitsPerOne_pos unitsPerOne_pos
      (Nat.mul_le_mul_right _ (Nat.mul_le_mul_left _ magnitudes))
  rw [told] at found
  split_ifs at found with inside
  cases found
  exact ⟨_, said.trans (dif_pos (ordered.trans_lt inside)), ordered⟩

/-- Below `2 ^ 23` seconds the number of a duration is off by less than half a nanosecond. -/
theorem toBinary64_near (short : d.nanos < 2 ^ 23 * 1000000000) :
    |d.toBinary64.toRat - d.nanos / 1000000000| < 1 / 2000000000 := by
  obtain ⟨finite, low, error⟩ := subsecond_spec d
  have parts : 1000000000 * d.seconds + d.subsecond = d.nanos := Nat.div_add_mod ..
  have less : d.subsecond + 1 ≤ 1000000000 := Nat.mod_lt _ (by decide)
  have few : d.seconds + 1 ≤ 2 ^ 23 := by omega
  obtain ⟨wholeFinite, whole⟩ := ofNat_exact (n := d.seconds) (by simp only [binade]; omega)
  have rounds : Rounds _ d.toBinary64 := rounds_add wholeFinite finite
  have tiny := least_tiny
  have parts' : (1000000000 * d.seconds + d.subsecond : ℚ) = d.nanos := by exact_mod_cast parts
  have less' : (d.subsecond + 1 : ℚ) ≤ 1000000000 := by exact_mod_cast less
  have few' : (d.seconds + 1 : ℚ) ≤ 2 ^ 23 := by exact_mod_cast few
  have seconds : (0 : ℚ) ≤ d.seconds := Nat.cast_nonneg _
  obtain ⟨below, above⟩ := abs_le.mp error
  rw [whole] at rounds
  have last := rounds.error_of_lt_two_pow (toBinary64_spec d).1 (k := 23) (by
    rw [abs_of_nonneg (add_nonneg seconds low)]
    linarith)
  rw [abs_le] at last
  rw [abs_lt]
  constructor <;> linarith

end Nanoseconds

end Admission.Duration
