import Mathlib.Algebra.Order.Field.Power
import Admission.Binary64.Decimal
import Admission.Proofs.Binary64.Error

namespace Admission

namespace Binary64

theorem Rounds.neg {x : ℚ} {a : Binary64} (rounds : Rounds x a) : Rounds (-x) (-a) := by
  obtain ⟨negative, n, d, positive, rfl, rfl⟩ := rounds
  refine ⟨!negative, n, d, positive, ?_, ?_⟩
  · show Binary64.neg (ofIndex negative _) = ofIndex (!negative) _
    unfold ofIndex
    split <;> rfl
  · cases negative <;> simp

private theorem nearestIndex_of_lt {n d : Nat} (small : 2 * n < d) : nearestIndex n d = 0 := by
  have whole : n / d = 0 := Nat.div_eq_of_lt (by omega)
  have rounded : roundHalfEven n d = 0 := roundHalfEven_eq (by omega) (by omega)
  rw [nearestIndex, whole, Nat.zero_div, Nat.log2_zero, Nat.shiftLeft_zero, rounded, Nat.mul_zero, Nat.add_zero]

end Binary64

namespace Decimal

open Binary64

/-- The number that a decimal is. -/
def value (d : Decimal) : ℚ :=
  d.digits * 10 ^ d.exponent

private theorem lt_pow_digitCount (n : Nat) : n < 10 ^ digitCount n :=
  (Nat.length_toDigits_le_iff (by decide) Nat.length_toDigits_pos).mp le_rfl

private theorem pow_le_of_lt_digitCount {n k : Nat} (nonzero : n ≠ 0) (less : k < digitCount n) :
    10 ^ k ≤ n := by
  rcases Nat.eq_zero_or_pos k with rfl | positive
  · exact Nat.pos_of_ne_zero nonzero
  · by_contra small
    have fits := (Nat.length_toDigits_le_iff (by decide) positive).mpr (not_le.mp small)
    exact absurd fits (not_le.mpr less)

section

variable {d : Decimal}

private theorem value_of_nonneg (nonneg : 0 ≤ d.exponent) :
    d.value = ((unitsPerOne * (d.digits * 10 ^ d.exponent.toNat) : Nat) : ℚ) / (1 : Nat) * least := by
  have power : (10 : ℚ) ^ d.exponent = 10 ^ d.exponent.toNat := by
    rw [← zpow_natCast, Int.toNat_of_nonneg nonneg]
  rw [value, power, Nat.cast_one, div_one, Nat.cast_mul, mul_right_comm, unitsPerOne_mul_least]
  push_cast
  ring

private theorem value_of_neg (neg : d.exponent < 0) :
    d.value = ((unitsPerOne * d.digits : Nat) : ℚ) / (10 ^ d.exponent.natAbs : Nat) * least := by
  have power : (10 : ℚ) ^ d.exponent = (10 ^ d.exponent.natAbs)⁻¹ := by
    rw [← zpow_natCast, ← zpow_neg]
    congr 1
    omega
  rw [value, power, Nat.cast_mul, mul_div_assoc, mul_right_comm, unitsPerOne_mul_least]
  push_cast
  ring

private theorem rounds_of_tiny (negative : Bool) (tiny : digitCount d.digits + d.exponent < -330) :
    Rounds (signed negative d.value) (.ofIndex negative 0) := by
  have neg : d.exponent < 0 := by omega
  have scale : 2 * unitsPerOne ≤ 10 ^ 330 := by decide +kernel
  -- The number is below `10 ^ (-330)`, and half of the least magnitude is above it.
  have small : 2 * (unitsPerOne * d.digits) < 10 ^ d.exponent.natAbs := by
    calc 2 * (unitsPerOne * d.digits) = 2 * unitsPerOne * d.digits := (Nat.mul_assoc ..).symm
      _ ≤ 10 ^ 330 * d.digits := Nat.mul_le_mul_right _ scale
      _ < 10 ^ 330 * 10 ^ digitCount d.digits :=
        Nat.mul_lt_mul_of_pos_left (lt_pow_digitCount d.digits) (by positivity)
      _ = 10 ^ (330 + digitCount d.digits) := (pow_add ..).symm
      _ ≤ 10 ^ d.exponent.natAbs := Nat.pow_le_pow_right (by decide) (by omega)
  refine ⟨negative, unitsPerOne * d.digits, 10 ^ d.exponent.natAbs, by positivity, ?_, ?_⟩
  · rw [ofQuotient, nearestIndex_of_lt small]
  · rw [value_of_neg neg]

/-- A number above a power of ten that is rounded to infinity is rounded to infinity as well. -/
private theorem rounds_of_huge {k : Nat}
    (top : infinityIndex ≤ nearestIndex (unitsPerOne * 10 ^ k) 1) (negative : Bool)
    (nonzero : d.digits ≠ 0) (huge : k < digitCount d.digits + d.exponent) :
    Rounds (signed negative d.value) (.infinite negative) := by
  rcases lt_or_ge d.exponent 0 with neg | nonneg
  · have digits : 10 ^ (k + d.exponent.natAbs) ≤ d.digits := pow_le_of_lt_digitCount nonzero (by omega)
    have most : unitsPerOne * 10 ^ k * 10 ^ d.exponent.natAbs ≤ unitsPerOne * d.digits * 1 := by
      rw [Nat.mul_assoc, ← pow_add, Nat.mul_one]
      exact Nat.mul_le_mul_left _ digits
    have beyond := top.trans (nearestIndex_mono Nat.one_pos (by positivity) most)
    refine ⟨negative, unitsPerOne * d.digits, 10 ^ d.exponent.natAbs, by positivity, ?_, ?_⟩
    · rw [ofQuotient, ofIndex_of_le negative beyond]
    · rw [value_of_neg neg]
  · have digits : 10 ^ (digitCount d.digits - 1) ≤ d.digits :=
      pow_le_of_lt_digitCount nonzero (Nat.sub_one_lt Nat.length_toDigits_pos.ne')
    have number : 10 ^ k ≤ d.digits * 10 ^ d.exponent.toNat := by
      calc 10 ^ k ≤ 10 ^ (digitCount d.digits - 1 + d.exponent.toNat) :=
            Nat.pow_le_pow_right (by decide) (by omega)
        _ = 10 ^ (digitCount d.digits - 1) * 10 ^ d.exponent.toNat := pow_add ..
        _ ≤ d.digits * 10 ^ d.exponent.toNat := Nat.mul_le_mul_right _ digits
    have most : unitsPerOne * 10 ^ k * 1 ≤ unitsPerOne * (d.digits * 10 ^ d.exponent.toNat) * 1 :=
      Nat.mul_le_mul_right _ (Nat.mul_le_mul_left _ number)
    have beyond := top.trans (nearestIndex_mono Nat.one_pos Nat.one_pos most)
    refine ⟨negative, unitsPerOne * (d.digits * 10 ^ d.exponent.toNat), 1, Nat.one_pos, ?_, ?_⟩
    · rw [ofQuotient, ofIndex_of_le negative beyond]
    · rw [value_of_nonneg nonneg]

/-- The nearest value is the number of the decimal rounded once, whether or not its power of ten is computed. -/
theorem rounds_toBinary64 (d : Decimal) (negative : Bool) :
    Rounds (signed negative d.value) (d.toBinary64 negative) := by
  unfold toBinary64
  simp only [Nat.pow_eq]
  split_ifs with tiny huge nonneg
  · rcases tiny with zero | tiny
    · refine ⟨negative, 0, 1, Nat.one_pos, by rw [ofQuotient, nearestIndex_zero], ?_⟩
      simp [value, zero]
    · exact rounds_of_tiny negative tiny
  · exact rounds_of_huge (by decide +kernel) negative (fun zero => tiny (.inl zero)) huge
  · exact ⟨negative, _, 1, Nat.one_pos, rfl, by rw [value_of_nonneg nonneg]⟩
  · exact ⟨negative, _, _, by positivity, rfl, by rw [value_of_neg (not_le.mp nonneg)]⟩

private theorem exists_toBinary64_eq (d : Decimal) (negative : Bool) :
    ∃ index, d.toBinary64 negative = .ofIndex negative index := by
  unfold toBinary64 ofQuotient
  dsimp only
  split_ifs with tiny huge nonneg
  · exact ⟨_, rfl⟩
  · exact ⟨infinityIndex, (ofIndex_of_le negative le_rfl).symm⟩
  · exact ⟨_, rfl⟩
  · exact ⟨_, rfl⟩

theorem toBinary64_eq_of_rounds {negative : Bool} {index : Fin infinityIndex}
    (rounds : Rounds (signed negative d.value) (.finite negative index)) :
    d.toBinary64 negative = .finite negative index := by
  obtain ⟨other, same⟩ := d.exists_toBinary64_eq negative
  have nearest := d.rounds_toBinary64 negative
  rw [same] at nearest ⊢
  have below := (le_iff_place (place?_ofIndex ..) rfl).mp (nearest.le rounds le_rfl)
  have above := (le_iff_place rfl (place?_ofIndex ..)).mp (rounds.le nearest le_rfl)
  have bound := index.isLt
  have found : other = index.val := by
    cases negative <;> simp only [if_true, if_false, Bool.false_eq_true] at below above <;> omega
  rw [found, ofIndex_of_lt negative bound]

end

section Shortest

variable {rule : HalfRule} {index : Nat}

private theorem nearestAt?_eq_some {exponent : Int} {d : Decimal}
    (found : nearestAt? rule index exponent = some d) :
    d.toBinary64 false = .ofIndex false index := by
  unfold nearestAt? at found
  dsimp only at found
  split at found
  · rename_i low high
    rw [decide_eq_true_eq] at low high
    split_ifs at found <;> cases found <;> assumption
  · rename_i low high
    cases found
    exact of_decide_eq_true low
  · rename_i low high
    cases found
    exact of_decide_eq_true high
  · cases found

private theorem value_pow_five_mul (k n : Nat) : value ⟨Nat.pow 5 k * n, -k⟩ = n * (1 / 2 ^ k) := by
  have power : (10 : ℚ) ^ (-(k : Int)) = (5 ^ k * 2 ^ k)⁻¹ := by
    rw [zpow_neg, zpow_natCast, ← mul_pow]
    norm_num
  rw [value, power, Nat.pow_eq]
  push_cast
  field_simp

theorem value_exactly (index : Nat) : (exactly index).value = units index * least := by
  have scaled (k : Nat) (scale : unitsPerOne = 2 ^ k) :
      value ⟨Nat.pow 5 k * units index, -k⟩ = units index * least := by
    rw [value_pow_five_mul, least, scale, Nat.cast_pow, Nat.cast_ofNat]
  apply scaled
  rw [unitsPerOne, one_shiftLeft]

private theorem rounds_shortestFrom (leading : Int) (places : Nat) :
    Rounds (shortestFrom rule index leading places).value (.ofIndex false index) := by
  induction places with
  | zero =>
    refine ⟨false, units index * 1, 1, Nat.one_pos, ?_, ?_⟩
    · rw [ofQuotient, nearestIndex_units index Nat.one_pos]
    · rw [shortestFrom, value_exactly, Nat.mul_one, Nat.cast_one, div_one, signed_false]
  | succ places ih =>
    rw [shortestFrom]
    split
    · rename_i d found
      rw [← nearestAt?_eq_some found]
      exact rounds_toBinary64 d false
    · exact ih

private theorem value_dropZeros (d : Decimal) (places : Nat) : (d.dropZeros places).value = d.value := by
  induction places generalizing d with
  | zero => rfl
  | succ places ih =>
    rw [dropZeros]
    split_ifs with zero
    · have digits : d.digits = d.digits / 10 * 10 := (Nat.div_mul_cancel (Nat.dvd_of_mod_eq_zero zero)).symm
      rw [ih, value, value, digits, zpow_add₀ (by norm_num), zpow_one, Nat.mul_div_cancel _ (by decide)]
      push_cast
      ring
    · rfl

theorem value_reduced (d : Decimal) : d.reduced.value = d.value := by
  unfold reduced
  split_ifs with zero
  · simp [value, zero]
  · exact value_dropZeros ..

/-- The shortest decimal of a magnitude is rounded to it. -/
theorem rounds_shortest (rule : HalfRule) (index : Nat) :
    Rounds (shortest rule index).value (.ofIndex false index) := by
  unfold shortest
  split_ifs with zero
  · refine ⟨false, 0, 1, Nat.one_pos, by rw [zero, ofQuotient, nearestIndex_zero], ?_⟩
    simp [value]
  · rw [value_reduced]
    exact rounds_shortestFrom ..

private theorem digits_dropZeros_ne_zero {d : Decimal} (nonzero : d.digits ≠ 0) (places : Nat) :
    (d.dropZeros places).digits ≠ 0 := by
  induction places generalizing d with
  | zero => exact nonzero
  | succ places ih =>
    rw [dropZeros]
    split_ifs with zero
    · refine ih ?_
      show d.digits / 10 ≠ 0
      omega
    · exact nonzero

theorem exponent_shortest (rule : HalfRule) (index : Nat) (zero : (shortest rule index).digits = 0) :
    (shortest rule index).exponent = 0 := by
  unfold shortest reduced at *
  split_ifs at zero ⊢ with first second
  · rfl
  · rfl
  · exact absurd zero (digits_dropZeros_ne_zero second _)

end Shortest
end Decimal
end Admission
