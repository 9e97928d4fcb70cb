import Mathlib.Tactic.Linarith
import Admission.Jitter
import Admission.Proofs.Duration

namespace Admission

open Binary64

namespace Duration

private theorem le_longest (d : Duration) : d ≤ longest :=
  Nat.le_sub_one_of_lt d.nanos_lt

/-- A multiplier that shortens a duration or makes it up to twice as long. -/
structure Multiplier (a : Binary64) : Prop where
  finite : a.isFinite
  nonneg : 0 ≤ a.toRat
  le_two : a.toRat ≤ 2

variable {base : Duration} {a b : Binary64}

theorem Multiplier.product (multiplier : Multiplier a) (base : Duration) :
    (base.toBinary64 * a).isFinite ∧ 0 ≤ (base.toBinary64 * a).toRat := by
  obtain ⟨finite, nonneg⟩ := base.toBinary64_spec
  have rounds := rounds_mul finite multiplier.finite
  have low := mul_nonneg nonneg multiplier.nonneg
  have top : (Binary64.ofNat (4 * UInt64.size)).isFinite := by decide +kernel
  have size : ((4 * UInt64.size : Nat) : ℚ) = 2 ^ 65 * 2 := by norm_num [UInt64.size]
  have productFinite := rounds.isFinite_of_le_natCast low top (by
    rw [size]
    exact mul_le_mul base.toBinary64_le multiplier.le_two multiplier.nonneg (by norm_num))
  exact ⟨productFinite, rounds.nonneg productFinite low⟩

/-- A greater multiplier makes a longer duration, also where it is beyond all durations. -/
theorem scale_mono (first : Multiplier a) (second : Multiplier b) (le : a.toRat ≤ b.toRat) :
    base.scale a ≤ base.scale b := by
  obtain ⟨finite, nonneg⟩ := base.toBinary64_spec
  obtain ⟨shortFinite, low⟩ := first.product base
  obtain ⟨longFinite, -⟩ := second.product base
  have ordered := (rounds_mul finite first.finite).toRat_le (rounds_mul finite second.finite) shortFinite
    longFinite (mul_le_mul_of_nonneg_left le nonneg)
  unfold scale
  cases found : ofBinary64? (base.toBinary64 * b) with
  | none => exact le_longest _
  | some longer =>
    obtain ⟨shorter, read, within⟩ := ofBinary64?_mono shortFinite low longFinite ordered found
    rw [read]
    exact within

private theorem scale_one (short : base.nanos < 2 ^ 23 * 1000000000) : base.scale 1 = base := by
  obtain ⟨finite, nonneg⟩ := base.toBinary64_spec
  obtain ⟨oneFinite, one⟩ := toRat_one
  have rounds := rounds_mul finite oneFinite
  rw [one, mul_one] at rounds
  obtain ⟨productFinite, same⟩ := rounds.toRat_eq finite
  have near := toBinary64_near short
  rw [← same] at near nonneg
  rw [scale, ofBinary64?_eq productFinite nonneg near]
  rfl

end Duration

namespace Jitter

/-- A sample is the duration for the next word, which is drawn unless there is no jitter. -/
theorem sample_spec (jitter : Jitter) (base : Duration) (stream : Random.Stream) :
    (jitter.sample base stream).1 = jitter.apply base (Random.symmetricUnit (stream.word stream.drawn)) ∧
      (jitter.sample base stream).2.word = stream.word ∧
      (jitter = .none ∨ (jitter.sample base stream).2.drawn = stream.drawn + 1) := by
  cases jitter with
  | none => exact ⟨rfl, rfl, .inl rfl⟩
  | proportional factor => exact ⟨rfl, rfl, .inr rfl⟩

/-- A number from minus one to one. -/
structure Draw (a : Binary64) : Prop where
  finite : a.isFinite
  ge : -1 ≤ a.toRat
  le : a.toRat ≤ 1

private theorem toRat_neg_one : (-1 : Binary64).isFinite ∧ (-1 : Binary64).toRat = -1 := by
  obtain ⟨finite, one⟩ := toRat_one
  rw [isFinite_neg, toRat_neg, one]
  exact ⟨finite, rfl⟩

theorem draw_symmetricUnit (word : UInt64) : Draw (Random.symmetricUnit word) := by
  have few : (word >>> 12).toNat < binade := by
    have bound := word.toNat_lt
    have shifted : (word >>> 12).toNat = word.toNat / 2 ^ 12 := by
      rw [UInt64.toNat_shiftRight, Nat.shiftRight_eq_div_pow]
      rfl
    rw [shifted]
    simp only [binade]
    omega
  obtain ⟨countFinite, count⟩ := ofNat_exact (n := (word >>> 12).toNat) (by omega)
  obtain ⟨sizeFinite, size⟩ := ofNat_exact (n := binade) (by simp only [binade]; omega)
  obtain ⟨oneFinite, one⟩ := toRat_one
  obtain ⟨twoFinite, two⟩ := toRat_literal 2 (by decide)
  obtain ⟨lowFinite, low⟩ := toRat_neg_one
  have steps : (binade : ℚ) = 2 ^ 52 := by norm_num [binade]
  have step := rounds_div oneFinite sizeFinite (by rw [size, steps]; norm_num)
  rw [one, size, steps] at step
  obtain ⟨stepFinite, stepNonneg, -⟩ := step.between oneFinite (by norm_num) (by rw [one]; norm_num)
  have stepError := (abs_le.mp (step.error_le stepFinite)).2
  rw [abs_of_nonneg (by norm_num)] at stepError
  have tiny := least_tiny
  have below : ((word >>> 12).toNat : ℚ) ≤ 2 ^ 52 - 1 := by
    have cast : (((word >>> 12).toNat + 1 : Nat) : ℚ) ≤ (binade : Nat) := Nat.cast_le.mpr few
    rw [steps, Nat.cast_add, Nat.cast_one] at cast
    linarith
  have part := rounds_mul countFinite stepFinite
  rw [count] at part
  obtain ⟨partFinite, partNonneg, partLe⟩ := part.between oneFinite
    (mul_nonneg (Nat.cast_nonneg _) stepNonneg) (by
      rw [one]
      calc _ ≤ ((2 : ℚ) ^ 52 - 1) * (1 / 2 ^ 52 + 1 / 2 ^ 104) :=
            mul_le_mul below (by linarith) stepNonneg (by norm_num)
        _ ≤ 1 := by norm_num)
  rw [one] at partLe
  have doubled := rounds_mul partFinite twoFinite
  rw [two] at doubled
  obtain ⟨doubledFinite, doubledNonneg, doubledLe⟩ := doubled.between twoFinite (by linarith) (by
    rw [two]
    linarith)
  rw [two] at doubledLe
  have sum := rounds_add doubledFinite lowFinite
  rw [low] at sum
  have finite := sum.isFinite_of_le oneFinite (by
    rw [one, abs_one, abs_le]
    constructor <;> linarith)
  refine ⟨finite, ?_, ?_⟩
  · have least := (rounds_toRat lowFinite).toRat_le sum lowFinite finite (by rw [low]; linarith)
    rwa [low] at least
  · have most := sum.toRat_le (rounds_toRat oneFinite) finite oneFinite (by rw [one]; linarith)
    rwa [one] at most

/-- A factor that spreads a base and leaves something of it. -/
structure Spreads (factor : Binary64) : Prop where
  finite : factor.isFinite
  pos : 0 < factor.toRat
  lt_one : factor.toRat < 1

section

variable {factor draw : Binary64} {jitter : Jitter} {base : Duration}

/-- An accepted factor spreads, unless it is zero, of either sign, and then there is no jitter. -/
private theorem ofFactor_cases (made : ofFactor factor = .ok jitter) :
    jitter = none ∧ ¬ 0 < factor ∨ jitter = proportional factor ∧ 0 < factor ∧ Spreads factor := by
  obtain ⟨oneFinite, one⟩ := toRat_one
  unfold ofFactor at made
  split_ifs at made with accepted zero
  · cases made
    have number := isNaN_of_isFinite accepted.1
    exact .inl ⟨rfl, (Binary64.not_lt rfl number).mpr zero⟩
  · cases made
    obtain ⟨finite, -, below⟩ := accepted
    have positive : 0 < factor := (lt_iff_not_le rfl (isNaN_of_isFinite finite)).mpr zero
    have value := (lt_iff_toRat isFinite_zero finite).mp positive
    rw [toRat_zero] at value
    rw [lt_iff_toRat finite oneFinite, one] at below
    exact .inr ⟨rfl, positive, finite, value, below⟩

/-- One less or more by some part, and what the bounds and a draw multiply the base by. -/
theorem Spreads.multipliers (spreads : Spreads factor) (drawn : Draw draw) :
    Duration.Multiplier (1 - factor) ∧ Duration.Multiplier (1 + draw * factor) ∧ Duration.Multiplier (1 + factor) ∧
      (1 - factor).toRat ≤ (1 + draw * factor).toRat ∧ (1 + draw * factor).toRat ≤ (1 + factor).toRat := by
  obtain ⟨finite, positive, below⟩ := spreads
  obtain ⟨oneFinite, one⟩ := toRat_one
  obtain ⟨twoFinite, two⟩ := toRat_literal 2 (by decide)
  have product := rounds_mul drawn.finite finite
  have size : |draw.toRat * factor.toRat| ≤ factor.toRat := by
    rw [abs_mul, abs_of_pos positive]
    exact mul_le_of_le_one_left positive.le (abs_le.mpr ⟨drawn.ge, drawn.le⟩)
  have offsetFinite := product.isFinite_of_le finite (by rwa [abs_of_pos positive])
  -- The factor and its negative are numbers, so the rounded offset does not pass them either.
  have upper := product.toRat_le (rounds_toRat finite) offsetFinite finite (abs_le.mp size).2
  have negative : (-factor).isFinite := isFinite_neg.trans finite
  have lower := (rounds_toRat negative).toRat_le product negative offsetFinite (by
    rw [toRat_neg]
    exact (abs_le.mp size).1)
  rw [toRat_neg] at lower
  have within {a : Binary64} {x : ℚ} (rounds : Rounds x a) (low : 0 ≤ x) (high : x ≤ 2) :
      Duration.Multiplier a := by
    obtain ⟨aFinite, nonneg, le⟩ := rounds.between twoFinite low (by rwa [two])
    exact ⟨aFinite, nonneg, by rwa [two] at le⟩
  have shortest := rounds_sub oneFinite finite
  have middle := rounds_add oneFinite offsetFinite
  have longest := rounds_add oneFinite finite
  rw [one] at shortest middle longest
  have first := within shortest (by linarith) (by linarith)
  have second := within middle (by linarith) (by linarith)
  have third := within longest (by linarith) (by linarith)
  exact ⟨first, second, third, shortest.toRat_le middle first.finite second.finite (by linarith),
    middle.toRat_le longest second.finite third.finite (by linarith)⟩

/-- Jitter keeps every draw within its bounds. -/
theorem Spreads.covers (spreads : Spreads factor) (drawn : Draw draw) :
    (proportional factor).covers base ((proportional factor).apply base draw) := by
  obtain ⟨least, part, most, low, high⟩ := spreads.multipliers drawn
  exact Bool.and_eq_true_iff.mpr
    ⟨decide_eq_true (Duration.scale_mono least part low), decide_eq_true (Duration.scale_mono part most high)⟩

private theorem bounds_none (base : Duration) : none.bounds base = (base.scale 1, base.scale 1) := by
  have less : (1 : Binary64) - 0 = 1 := Binary64.sub_zero toRat_one.1
  have more : (1 : Binary64) + 0 = 1 := by decide +kernel
  show (base.scale (1 - 0), base.scale (1 + 0)) = _
  rw [less, more]

theorem covers_none_iff : none.covers base base ↔ base.scale 1 = base := by
  unfold covers
  rw [bounds_none]
  constructor
  · intro within
    obtain ⟨low, high⟩ := Bool.and_eq_true_iff.mp within
    exact Duration.ext (Nat.le_antisymm (of_decide_eq_true low) (of_decide_eq_true high))
  · intro same
    simp only [same, Duration.le_iff, Nat.le_refl, decide_true, Bool.and_self]

/-- A draw lies within the bounds of its base, and so does every sample of a stream, if there is jitter, or
if the base comes back from its number of seconds, as every base below `2 ^ 23` seconds does. Without jitter
no other base lies within its own bounds. -/
theorem covers_iff (made : ofFactor factor = .ok jitter) (drawn : Draw draw) (base : Duration)
    (stream : Random.Stream) :
    (jitter.covers base (jitter.apply base draw) ↔ 0 < factor ∨ base.scale 1 = base) ∧
      (jitter.covers base (jitter.sample base stream).1 ↔ 0 < factor ∨ base.scale 1 = base) ∧
      (base.nanos < 2 ^ 23 * 1000000000 → base.scale 1 = base) := by
  have covered : ∀ {draw}, Draw draw →
      (jitter.covers base (jitter.apply base draw) ↔ 0 < factor ∨ base.scale 1 = base) := by
    intro draw drawn
    rcases ofFactor_cases made with ⟨rfl, zero⟩ | ⟨rfl, positive, spreads⟩
    · rw [or_iff_right zero]
      exact covers_none_iff
    · exact iff_of_true (spreads.covers drawn) (.inl positive)
  refine ⟨covered drawn, ?_, Duration.scale_one⟩
  rw [(sample_spec jitter base stream).1]
  exact covered (draw_symmetricUnit _)

/-- A base of thirty seconds and a factor of three tenths, with a draw of minus one. -/
theorem covers_thirty_seconds :
    let factor : Binary64 := 3 / 10
    let base := Duration.ofSeconds 30
    ofFactor factor = .ok (proportional factor) ∧ Draw (-1) ∧
      (proportional factor).covers base ((proportional factor).apply base (-1)) := by
  intro factor base
  have made : ofFactor factor = .ok (proportional factor) := by decide +kernel
  have drawn : Draw (-1) := ⟨toRat_neg_one.1, toRat_neg_one.2.ge, by rw [toRat_neg_one.2]; norm_num⟩
  obtain ⟨covered, -, -⟩ := covers_iff made drawn base (.ofList [])
  refine ⟨made, drawn, covered.mpr (.inl ?_)⟩
  decide +kernel

/-- Without jitter a base of `2 ^ 23` seconds and a nanosecond lies below both of its bounds. -/
theorem base_below_bounds :
    let base := Duration.ofNanosClamp (2 ^ 23 * 1000000000 + 1)
    ofFactor 0 = .ok none ∧ Draw 0 ∧ none.apply base 0 < (none.bounds base).1 ∧
      none.covers base (none.apply base 0) = false := by
  intro base
  have drawn : Draw 0 := ⟨isFinite_zero, by rw [toRat_zero]; norm_num, by rw [toRat_zero]; norm_num⟩
  refine ⟨by decide +kernel, drawn, ?_, ?_⟩
  · decide +kernel
  · decide +kernel

end
end Jitter
end Admission
