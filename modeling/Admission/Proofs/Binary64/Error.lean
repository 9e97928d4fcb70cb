import Admission.Proofs.Binary64.Value

/-! How far rounding is off. Main statements: whole numbers of 53 digits are kept, and all
else is off by one part in `2 ^ 53` at most, or by half the least magnitude near zero. -/
namespace Admission.Binary64

theorem one_shiftLeft (k : Nat) : 1 <<< k = 2 ^ k :=
  Nat.one_shiftLeft k

private theorem exists_units_eq {n : Nat} (fits : n ≤ 2 * binade) :
    ∃ index, index < infinityIndex ∧ units index = unitsPerOne * n := by
  obtain ⟨index, bound, same⟩ := exists_units_eq_mul_pow fits 1074
  refine ⟨index, Nat.lt_of_le_of_lt bound (by decide), ?_⟩
  rw [same, Nat.mul_comm, unitsPerOne, one_shiftLeft]

section

variable {a : Binary64} {x : ℚ}

theorem ofNat_exact {n : Nat} (fits : n ≤ 2 * binade) : (ofNat n).isFinite ∧ (ofNat n).toRat = n := by
  obtain ⟨index, small, same⟩ := exists_units_eq fits
  have nearest := nearestIndex_units index Nat.one_pos
  rw [Nat.mul_one, same] at nearest
  have value : ofNat n = .finite false ⟨index, small⟩ := by
    rw [ofNat, ofQuotient, nearest, ofIndex_of_lt false small]
  rw [value]
  refine ⟨rfl, ?_⟩
  rw [toRat, signed_false]
  simp only [same]
  rw [Nat.cast_mul, mul_right_comm, unitsPerOne_mul_least, one_mul]

theorem isFinite_ofNat {n : Nat} (word : n ≤ UInt64.size) : (ofNat n).isFinite := by
  have top : nearestIndex (unitsPerOne * UInt64.size) 1 < infinityIndex := by decide +kernel
  have below := nearestIndex_mono Nat.one_pos Nat.one_pos
    (show unitsPerOne * n * 1 ≤ unitsPerOne * UInt64.size * 1 by
      simpa using Nat.mul_le_mul_left unitsPerOne word)
  rw [ofNat, ofQuotient, ofIndex_of_lt false (by omega)]
  rfl

theorem Rounds.natCast_le (rounds : Rounds x a) (finite : a.isFinite) {n : Nat} (fits : n ≤ 2 * binade)
    (le : n ≤ x) : n ≤ a.toRat := by
  obtain ⟨numberFinite, exactly⟩ := ofNat_exact fits
  have ordered := (rounds_ofNat n).toRat_le rounds numberFinite finite le
  rwa [exactly] at ordered

theorem Rounds.le_natCast (rounds : Rounds x a) (finite : a.isFinite) {n : Nat} (fits : n ≤ 2 * binade)
    (le : x ≤ n) : a.toRat ≤ n := by
  obtain ⟨numberFinite, exactly⟩ := ofNat_exact fits
  have ordered := rounds.toRat_le (rounds_ofNat n) finite numberFinite le
  rwa [exactly] at ordered

private theorem exists_int_toRat (a : Binary64) : ∃ k : Int, a.toRat = k * least := by
  cases a with
  | nan => exact ⟨0, by simp [toRat]⟩
  | infinite _ => exact ⟨0, by simp [toRat]⟩
  | finite negative index => exact ⟨signedUnits negative index, toRat_finite ..⟩

private theorem ofNat_eq (n : Nat) : (OfNat.ofNat n : Binary64) = ofNat n := rfl

theorem toRat_literal (n : Nat) [n.AtLeastTwo] (fits : n ≤ 2 * binade) :
    (OfNat.ofNat n : Binary64).isFinite ∧ (OfNat.ofNat n : Binary64).toRat = OfNat.ofNat n := by
  rw [ofNat_eq, ← Nat.cast_ofNat (R := ℚ)]
  exact ofNat_exact fits

theorem toRat_one : (1 : Binary64).isFinite ∧ (1 : Binary64).toRat = 1 := by
  rw [ofNat_eq, ← Nat.cast_one (R := ℚ)]
  exact ofNat_exact (by decide)

@[simp] theorem isFinite_zero : (0 : Binary64).isFinite = true := rfl

@[simp] theorem toRat_zero : (0 : Binary64).toRat = 0 := by
  rw [ofNat_eq, (ofNat_exact (Nat.zero_le _)).2, Nat.cast_zero]

theorem rounds_zero : Rounds 0 0 := by
  have rounds := rounds_ofNat 0
  rwa [Nat.cast_zero] at rounds

theorem Rounds.nonneg (rounds : Rounds x a) (finite : a.isFinite) (nonneg : 0 ≤ x) : 0 ≤ a.toRat := by
  have ordered := rounds_zero.toRat_le rounds isFinite_zero finite nonneg
  rwa [toRat_zero] at ordered

theorem Rounds.between {b : Binary64} (rounds : Rounds x a) (hb : b.isFinite) (nonneg : 0 ≤ x)
    (le : x ≤ b.toRat) :
    a.isFinite ∧ 0 ≤ a.toRat ∧ a.toRat ≤ b.toRat := by
  have finite : a.isFinite := by
    refine rounds.isFinite_of_le hb ?_
    rwa [abs_of_nonneg nonneg, abs_of_nonneg (nonneg.trans le)]
  exact ⟨finite, rounds.nonneg finite nonneg, rounds.toRat_le (rounds_toRat hb) finite hb le⟩

theorem Rounds.isFinite_of_le_natCast (rounds : Rounds x a) (nonneg : 0 ≤ x) {n : Nat}
    (top : (ofNat n).isFinite) (le : x ≤ n) : a.isFinite :=
  isFinite_of_between isFinite_zero top (rounds_zero.le rounds nonneg) (rounds.le (rounds_ofNat n) le)

theorem toRat_ofNat_nonneg {n : Nat} (word : n ≤ UInt64.size) : 0 ≤ (ofNat n).toRat :=
  (rounds_ofNat n).nonneg (isFinite_ofNat word) (Nat.cast_nonneg n)

theorem one_le_toRat_ofNat {n : Nat} (positive : 0 < n) (word : n ≤ UInt64.size) :
    1 ≤ (ofNat n).toRat := by
  have least := (rounds_ofNat n).natCast_le (isFinite_ofNat word) (n := 1) (by decide)
    (Nat.cast_le.mpr positive)
  rwa [Nat.cast_one] at least

theorem least_tiny : least ≤ 1 / 2 ^ 106 := by
  have room : ((2 ^ 106 : Nat) : ℚ) ≤ (unitsPerOne : ℚ) := Nat.cast_le.mpr (by decide)
  rw [Nat.cast_pow, Nat.cast_ofNat] at room
  exact one_div_le_one_div_of_le (by positivity) room

/-- No value is so great that the least magnitude would count beside it. -/
theorem toRat_mul_least_le (finite : a.isFinite) : a.toRat * least ≤ 1 / 2 ^ 50 := by
  obtain ⟨negative, index, rfl⟩ := exists_of_isFinite finite
  have pos := least_pos
  have top : units infinityIndex * 2 ^ 50 = unitsPerOne * unitsPerOne := by decide +kernel
  have below : (units index : ℚ) ≤ units infinityIndex :=
    Nat.cast_le.mpr (units_strictMono.monotone index.isLt.le)
  have magnitude : toRat (.finite negative index) ≤ units index * least := by
    refine (le_abs_self _).trans_eq ?_
    rw [toRat, abs_signed, abs_of_nonneg (mul_nonneg (Nat.cast_nonneg _) pos.le)]
  have scaled : (units infinityIndex : ℚ) * least * least = 1 / 2 ^ 50 := by
    have top' : (units infinityIndex : ℚ) * 2 ^ 50 = unitsPerOne * unitsPerOne := by
      rw [← Nat.cast_ofNat, ← Nat.cast_pow, ← Nat.cast_mul, top, Nat.cast_mul]
    have one := unitsPerOne_mul_least
    rw [eq_div_iff (by positivity)]
    calc (units infinityIndex : ℚ) * least * least * 2 ^ 50
        = units infinityIndex * 2 ^ 50 * (least * least) := by ring
      _ = 1 := by rw [top', mul_mul_mul_comm, one, one_mul]
  calc toRat (.finite negative index) * least ≤ units index * least * least :=
        mul_le_mul_of_nonneg_right magnitude pos.le
    _ ≤ units infinityIndex * least * least := by gcongr
    _ = 1 / 2 ^ 50 := scaled

/-- The error of one rounding is half of a place, a power of two that 53 digits of the number reach up from. -/
theorem Rounds.error_place (rounds : Rounds x a) (finite : a.isFinite) : ∃ shift : Nat,
    (shift = 0 ∨ binade * (2 ^ shift * least) ≤ |x|) ∧ |a.toRat - x| ≤ 2 ^ shift * least / 2 := by
  obtain ⟨s, n, d, dpos, rfl, rfl⟩ := rounds
  have dq : (0 : ℚ) < d := Nat.cast_pos.mpr dpos
  have pos := least_pos
  have small : nearestIndex n d < infinityIndex := by
    by_contra large
    rw [ofQuotient, ofIndex_of_le s (not_lt.mp large)] at finite
    cases finite
  obtain ⟨shift, grid, above, under⟩ := units_nearestIndex_error n dpos
  have off : |toRat (ofQuotient s n d) - signed s (n / d * least)| =
      |(units (nearestIndex n d) : ℚ) - n / d| * least := by
    rw [ofQuotient, ofIndex_of_lt s small, toRat, ← abs_of_pos pos, ← abs_mul, abs_of_pos pos, sub_mul]
    cases s
    · simp
    · rw [signed_true, signed_true, abs_sub_comm]
      congr 1
      ring
  have near : |(units (nearestIndex n d) : ℚ) - n / d| ≤ 2 ^ shift / 2 := by
    have above' : (2 * (units (nearestIndex n d) * d) : ℚ) ≤ 2 * n + d * 2 ^ shift := by exact_mod_cast above
    have under' : (2 * n : ℚ) ≤ 2 * (units (nearestIndex n d) * d) + d * 2 ^ shift := by
      exact_mod_cast under
    rw [abs_le, neg_le_sub_iff_le_add, sub_le_iff_le_add', div_le_iff₀ dq, ← sub_le_iff_le_add,
      le_div_iff₀ dq]
    constructor <;> linarith
  refine ⟨shift, grid.imp_right fun le => ?_, ?_⟩
  · have le' : (binade * (d * 2 ^ shift) : ℚ) ≤ n := by exact_mod_cast le
    rw [abs_signed, abs_of_nonneg (quotient_nonneg n d), ← mul_assoc]
    refine mul_le_mul_of_nonneg_right ?_ pos.le
    rw [le_div_iff₀ dq]
    linarith
  · rw [off, mul_div_right_comm]
    exact mul_le_mul_of_nonneg_right near pos.le

theorem Rounds.error (rounds : Rounds x a) (finite : a.isFinite) : |a.toRat - x| ≤ |x| / 2 ^ 53 ∨
    |x| < binade * least ∧ |a.toRat - x| ≤ least / 2 := by
  obtain ⟨shift, grid, near⟩ := rounds.error_place finite
  have bound : (binade : ℚ) = 2 ^ 52 := by norm_num [binade]
  rcases lt_or_ge |x| (binade * least) with subnormal | normal
  · right
    rcases grid with rfl | le
    · rw [pow_zero, one_mul] at near
      exact ⟨subnormal, near⟩
    · have unit : (1 : ℚ) ≤ 2 ^ shift := one_le_pow₀ one_le_two
      have pos := least_pos
      have less := mul_le_mul_of_nonneg_right unit pos.le
      rw [bound] at le subnormal
      exact absurd subnormal (not_lt.mpr (by linarith))
  · left
    have le : binade * (2 ^ shift * least) ≤ |x| := by
      rcases grid with rfl | le
      · rwa [pow_zero, one_mul]
      · exact le
    rw [bound] at le
    linarith

/-- Below a power of two one rounding errs by one part in `2 ^ 54` of it at most. -/
theorem Rounds.error_of_lt_two_pow (rounds : Rounds x a) (finite : a.isFinite) {k : Nat} (less : |x| < 2 ^ k) :
    |a.toRat - x| ≤ 2 ^ k / 2 ^ 54 := by
  obtain ⟨shift, grid, near⟩ := rounds.error_place finite
  have unit : (least : ℚ) * 2 ^ 1074 = 1 := by
    rw [least, unitsPerOne, one_shiftLeft, Nat.cast_pow, Nat.cast_ofNat, one_div_mul_cancel (by positivity)]
  have place : (2 : ℚ) ^ shift * least * 2 ^ 53 ≤ 2 ^ k := by
    have reach : shift + 53 ≤ k + 1074 := by
      rcases grid with rfl | le
      · omega
      · have bound : (binade : ℚ) = 2 ^ 52 := by norm_num [binade]
        have below := mul_lt_mul_of_pos_right (le.trans_lt less) (show (0 : ℚ) < 2 ^ 1074 by positivity)
        rw [bound, mul_assoc, mul_assoc, unit, mul_one, ← pow_add, ← pow_add] at below
        have exponents := (pow_lt_pow_iff_right₀ (one_lt_two (α := ℚ))).mp below
        omega
    calc (2 : ℚ) ^ shift * least * 2 ^ 53 = 2 ^ (shift + 53) * least := by
          rw [pow_add]
          ring
      _ ≤ 2 ^ (k + 1074) * least :=
        mul_le_mul_of_nonneg_right (pow_le_pow_right₀ one_le_two reach) least_pos.le
      _ = 2 ^ k := by rw [pow_add, mul_assoc, mul_comm _ least, unit, mul_one]
  rw [le_div_iff₀ (by positivity)]
  calc |a.toRat - x| * 2 ^ 54 ≤ 2 ^ shift * least / 2 * 2 ^ 54 := mul_le_mul_of_nonneg_right near (by positivity)
    _ = 2 ^ shift * least * 2 ^ 53 := by ring
    _ ≤ 2 ^ k := place

/-- Off by half the least magnitude near zero. -/
theorem Rounds.error_le (rounds : Rounds x a) (finite : a.isFinite) :
    |a.toRat - x| ≤ |x| / 2 ^ 53 + least / 2 := by
  have pos := least_pos
  have nonneg : 0 ≤ |x| / 2 ^ 53 := by positivity
  rcases rounds.error finite with relative | ⟨-, absolute⟩ <;> linarith

theorem Rounds.error_normal (rounds : Rounds x a) (finite : a.isFinite) (normal : binade * least ≤ |x|) :
    |a.toRat - x| ≤ |x| / 2 ^ 53 := by
  rcases rounds.error finite with relative | ⟨subnormal, -⟩
  · exact relative
  · linarith

/-- A multiple of the least magnitude is kept where the grid is that fine. -/
theorem Rounds.error_grid (rounds : Rounds x a) (finite : a.isFinite) (k : Int) (grid : x = k * least) :
    |a.toRat - x| ≤ |x| / 2 ^ 53 := by
  rcases rounds.error finite with relative | ⟨-, absolute⟩
  · exact relative
  · obtain ⟨m, value⟩ := exists_int_toRat a
    have pos := least_pos
    rw [value, grid, ← sub_mul, abs_mul, abs_of_pos pos] at absolute
    have near : |(m : ℚ) - k| < 1 := by
      by_contra apart
      nlinarith
    have same : m = k := sub_eq_zero.mp (Int.abs_lt_one_iff.mp (by exact_mod_cast near))
    rw [value, grid, same, sub_self, abs_zero]
    positivity

theorem Rounds.toRat_of_units (rounds : Rounds x a) (finite : a.isFinite) {index : Nat}
    (grid : |x| = units index * least) : a.toRat = x := by
  obtain ⟨s, n, d, dpos, rfl, rfl⟩ := rounds
  rw [abs_signed, abs_of_nonneg (quotient_nonneg n d)] at grid
  have same : n = units index * d := by
    have cancelled := mul_right_cancel₀ least_pos.ne' grid
    rw [div_eq_iff (Nat.cast_pos.mpr dpos).ne'] at cancelled
    exact_mod_cast cancelled
  rw [grid]
  rw [ofQuotient, same, nearestIndex_units index dpos] at finite ⊢
  have small : index < infinityIndex := by
    by_contra large
    rw [ofIndex_of_le s (not_lt.mp large)] at finite
    cases finite
  rw [ofIndex_of_lt s small, toRat]

theorem ofNat_error {n : Nat} (word : n ≤ UInt64.size) : |(ofNat n).toRat - n| ≤ n / 2 ^ 53 := by
  have grid : (n : ℚ) = ((unitsPerOne * n : Nat) : Int) * least := by
    rw [Int.cast_natCast, Nat.cast_mul, mul_right_comm, unitsPerOne_mul_least, one_mul]
  have error := (rounds_ofNat n).error_grid (isFinite_ofNat word) _ grid
  rwa [Nat.abs_cast] at error

end
end Admission.Binary64
