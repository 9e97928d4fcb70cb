import Mathlib.Tactic.Linarith
import Admission.Proofs.Duration
import Admission.Throttle

/-! The throttle is a ramp. Main statement: the delay is none at the soft limit and the greatest one at the
limit, and in between it never falls as the usage grows; on the exponential curve it is never longer than on
the linear one. -/
namespace Admission

open Binary64

/-- There is a band between the soft limit and the limit. -/
structure Band (limit : UInt64) (softPercent : Nat) : Prop where
  limit_pos : 0 < limit.toNat
  percent_lt : softPercent < 100

/-- A value from zero to one. -/
structure Fraction (a : Binary64) : Prop where
  finite : a.isFinite
  nonneg : 0 ≤ a.toRat
  le_one : a.toRat ≤ 1

private theorem toRat_hundred : (100 : Binary64).isFinite ∧ (100 : Binary64).toRat = 100 :=
  toRat_literal 100 (by decide)

namespace Band

/-- The soft limit as a value. -/
def softLimit (limit : UInt64) (softPercent : Nat) : Binary64 :=
  .ofNat limit.toNat * .ofNat softPercent / 100

def excess (usage limit : UInt64) (softPercent : Nat) : Binary64 :=
  .ofNat usage.toNat - softLimit limit softPercent

/-- The depth of a usage in the band before it is cut off at the limit. -/
def climb (usage limit : UInt64) (softPercent : Nat) : Binary64 :=
  excess usage limit softPercent / excess limit limit softPercent

def Reached (usage limit : UInt64) (softPercent : Nat) : Prop :=
  (softLimit limit softPercent).toRat ≤ (Binary64.ofNat usage.toNat).toRat

variable {usage more limit : UInt64} {softPercent : Nat}

private theorem percentage_spec (band : Band limit softPercent) :
    (Binary64.ofNat limit.toNat * .ofNat softPercent).isFinite ∧
      Rounds ((Binary64.ofNat limit.toNat).toRat * softPercent) (Binary64.ofNat limit.toNat * .ofNat softPercent) ∧
      0 ≤ (Binary64.ofNat limit.toNat).toRat * softPercent ∧
      (Binary64.ofNat limit.toNat).toRat * softPercent ≤ 99 * (Binary64.ofNat limit.toNat).toRat := by
  have percent := band.percent_lt
  have word := limit.toNat_lt.le
  obtain ⟨percentFinite, exactly⟩ := ofNat_exact (n := softPercent) (by simp only [binade]; omega)
  have rounds := rounds_mul (isFinite_ofNat word) percentFinite
  rw [exactly] at rounds
  have low := toRat_ofNat_nonneg word
  have part : (softPercent : ℚ) ≤ 99 := by exact_mod_cast Nat.le_of_lt_succ percent
  have nonneg := mul_nonneg low (Nat.cast_nonneg (α := ℚ) softPercent)
  have le : (Binary64.ofNat limit.toNat).toRat * softPercent ≤ 99 * (Binary64.ofNat limit.toNat).toRat := by
    rw [mul_comm]
    exact mul_le_mul_of_nonneg_right part low
  refine ⟨rounds.isFinite_of_le_natCast nonneg (n := 100 * UInt64.size) (by decide +kernel) ?_, rounds, nonneg, le⟩
  have counted := (abs_le.mp (ofNat_error word)).2
  have size : (limit.toNat : ℚ) ≤ UInt64.size := Nat.cast_le.mpr word
  rw [Nat.cast_mul, Nat.cast_ofNat]
  linarith

/-- The soft limit leaves a part of the limit to the band, whatever is rounded. -/
theorem softLimit_spec (band : Band limit softPercent) : (softLimit limit softPercent).isFinite ∧
    0 ≤ (softLimit limit softPercent).toRat ∧
    (softLimit limit softPercent).toRat ≤ 199 / 200 * (Binary64.ofNat limit.toNat).toRat := by
  obtain ⟨productFinite, product, nonneg, le⟩ := band.percentage_spec
  obtain ⟨hundredFinite, hundred⟩ := toRat_hundred
  have one := one_le_toRat_ofNat band.limit_pos limit.toNat_lt.le
  have tiny := least_tiny
  have low := product.nonneg productFinite nonneg
  have quotient : Rounds _ (softLimit limit softPercent) :=
    rounds_div productFinite hundredFinite (by rw [hundred]; norm_num)
  rw [hundred] at quotient
  have part := div_nonneg low (by norm_num : (0 : ℚ) ≤ 100)
  obtain ⟨finite, softNonneg, -⟩ := quotient.between productFinite part (div_le_self low (by norm_num))
  refine ⟨finite, softNonneg, ?_⟩
  have first := (abs_le.mp (product.error_le productFinite)).2
  have second := (abs_le.mp (quotient.error_le finite)).2
  rw [abs_of_nonneg nonneg] at first
  rw [abs_of_nonneg part] at second
  linarith

theorem excess_spec (band : Band limit softPercent) (reached : Reached usage limit softPercent) :
    (excess usage limit softPercent).isFinite ∧ 0 ≤ (excess usage limit softPercent).toRat ∧
      (excess usage limit softPercent).toRat ≤ (Binary64.ofNat usage.toNat).toRat := by
  obtain ⟨softFinite, low, -⟩ := band.softLimit_spec
  have usageFinite := isFinite_ofNat usage.toNat_lt.le
  exact (rounds_sub usageFinite softFinite).between usageFinite (sub_nonneg.mpr reached) (sub_le_self _ low)

theorem excess_limit (band : Band limit softPercent) : Reached limit limit softPercent ∧
    1 / 250 ≤ (excess limit limit softPercent).toRat := by
  obtain ⟨softFinite, -, high⟩ := band.softLimit_spec
  have one := one_le_toRat_ofNat band.limit_pos limit.toNat_lt.le
  have tiny := least_tiny
  have reached : Reached limit limit softPercent := by
    rw [Reached]
    linarith
  obtain ⟨finite, -, -⟩ := band.excess_spec reached
  have rounds : Rounds _ (excess limit limit softPercent) := rounds_sub (isFinite_ofNat limit.toNat_lt.le) softFinite
  have error := (abs_le.mp (rounds.error_le finite)).1
  rw [abs_of_nonneg (sub_nonneg.mpr reached)] at error
  exact ⟨reached, by linarith⟩

theorem Reached.mono (reached : Reached usage limit softPercent) (le : usage ≤ more) :
    Reached more limit softPercent :=
  reached.trans ((rounds_ofNat _).toRat_le (rounds_ofNat _) (isFinite_ofNat usage.toNat_lt.le)
    (isFinite_ofNat more.toNat_lt.le) (Nat.cast_le.mpr (UInt64.le_iff_toNat_le.mp le)))

private theorem excess_mono (band : Band limit softPercent)
    (reached : Reached usage limit softPercent) (le : usage ≤ more) :
    (excess usage limit softPercent).toRat ≤ (excess more limit softPercent).toRat := by
  obtain ⟨softFinite, -, -⟩ := band.softLimit_spec
  obtain ⟨finite, -, -⟩ := band.excess_spec reached
  obtain ⟨moreFinite, -, -⟩ := band.excess_spec (reached.mono le)
  have usageFinite := isFinite_ofNat usage.toNat_lt.le
  have largeFinite := isFinite_ofNat more.toNat_lt.le
  have amounts := (rounds_ofNat usage.toNat).toRat_le (rounds_ofNat more.toNat) usageFinite largeFinite
    (Nat.cast_le.mpr (UInt64.le_iff_toNat_le.mp le))
  exact (rounds_sub usageFinite softFinite).toRat_le (rounds_sub largeFinite softFinite) finite moreFinite
    (sub_le_sub_right amounts _)

theorem climb_spec (band : Band limit softPercent) (reached : Reached usage limit softPercent) :
    (climb usage limit softPercent).isFinite ∧
      Rounds ((excess usage limit softPercent).toRat / (excess limit limit softPercent).toRat)
        (climb usage limit softPercent) := by
  obtain ⟨finite, low, high⟩ := band.excess_spec reached
  obtain ⟨full, room⟩ := band.excess_limit
  obtain ⟨roomFinite, -, -⟩ := band.excess_spec full
  have positive : 0 < (excess limit limit softPercent).toRat := by linarith
  have rounds : Rounds _ (climb usage limit softPercent) := rounds_div finite roomFinite positive.ne'
  refine ⟨rounds.isFinite_of_le_natCast (div_nonneg low positive.le) (n := 500 * UInt64.size) (by decide +kernel) ?_,
    rounds⟩
  have counted := (abs_le.mp (ofNat_error usage.toNat_lt.le)).2
  have word : (usage.toNat : ℚ) ≤ UInt64.size := Nat.cast_le.mpr usage.toNat_lt.le
  have size : ((UInt64.size : Nat) : ℚ) = 2 ^ 64 := by norm_num [UInt64.size]
  rw [div_le_iff₀ positive, Nat.cast_mul, Nat.cast_ofNat]
  rw [size] at word ⊢
  linarith

private theorem climb_mono (band : Band limit softPercent)
    (reached : Reached usage limit softPercent) (le : usage ≤ more) :
    (climb usage limit softPercent).toRat ≤ (climb more limit softPercent).toRat := by
  obtain ⟨finite, rounds⟩ := band.climb_spec reached
  obtain ⟨moreFinite, moreRounds⟩ := band.climb_spec (reached.mono le)
  have room := band.excess_limit.2
  exact rounds.toRat_le moreRounds finite moreFinite
    (div_le_div_of_nonneg_right (band.excess_mono reached le) (by linarith))

private theorem one_le_climb (band : Band limit softPercent) (full : limit ≤ usage) :
    1 ≤ (climb usage limit softPercent).toRat := by
  obtain ⟨reached, room⟩ := band.excess_limit
  obtain ⟨finite, rounds⟩ := band.climb_spec (reached.mono full)
  have positive : 0 < (excess limit limit softPercent).toRat := by linarith
  have whole := rounds.natCast_le finite (n := 1) (by decide) (by
    rw [Nat.cast_one, one_le_div positive]
    exact band.excess_mono reached full)
  rwa [Nat.cast_one] at whole

/-- Where the products are exact, a usage that is not beyond the soft limit by exact arithmetic is not beyond
it by rounding. -/
private theorem le_softLimit (band : Band limit softPercent) (small : limit.toNat ≤ 2 ^ 46)
    (under : 100 * usage.toNat ≤ softPercent * limit.toNat) :
    (Binary64.ofNat usage.toNat).toRat ≤ (softLimit limit softPercent).toRat := by
  have percent := band.percent_lt
  obtain ⟨softFinite, -, -⟩ := band.softLimit_spec
  obtain ⟨hundredFinite, hundred⟩ := toRat_hundred
  -- A hundred times `2 ^ 46` still has no more than 53 digits, so that only the quotient is rounded.
  have fits : limit.toNat * softPercent ≤ 2 * binade :=
    (Nat.mul_le_mul small percent.le).trans (by decide)
  have limitFits : limit.toNat ≤ 2 * binade := small.trans (by decide)
  have usageFits : usage.toNat ≤ 2 * binade := by
    rw [Nat.mul_comm] at fits
    omega
  obtain ⟨-, product, -, -⟩ := band.percentage_spec
  rw [(ofNat_exact limitFits).2, ← Nat.cast_mul] at product
  have whole := product.whole fits
  have quotient : Rounds _ (softLimit limit softPercent) :=
    rounds_div whole.finite hundredFinite (by rw [hundred]; norm_num)
  rw [whole.toRat_eq, hundred] at quotient
  rw [(ofNat_exact usageFits).2]
  refine quotient.natCast_le softFinite usageFits ?_
  rw [le_div_iff₀ (by norm_num), mul_comm]
  rw [Nat.mul_comm softPercent] at under
  exact_mod_cast under

private theorem climb_eq_zero (band : Band limit softPercent) (reached : Reached usage limit softPercent)
    (under : (Binary64.ofNat usage.toNat).toRat ≤ (softLimit limit softPercent).toRat) :
    (climb usage limit softPercent).toRat = 0 := by
  obtain ⟨softFinite, -, -⟩ := band.softLimit_spec
  obtain ⟨-, rounds⟩ := band.climb_spec reached
  have difference : Rounds _ (excess usage limit softPercent) :=
    rounds_sub (isFinite_ofNat usage.toNat_lt.le) softFinite
  rw [le_antisymm under reached, sub_self, ← toRat_zero] at difference
  rw [(difference.toRat_eq isFinite_zero).2, toRat_zero, zero_div, ← toRat_zero] at rounds
  rw [(rounds.toRat_eq isFinite_zero).2, toRat_zero]

private theorem bandDepth?_of_band (band : Band limit softPercent) : bandDepth? usage limit softPercent =
    if Binary64.ofNat usage.toNat < softLimit limit softPercent then none
    else some ((climb usage limit softPercent).clamp 0 1) := by
  refine if_neg ?_
  rintro (rfl | wide)
  · exact absurd band.limit_pos (lt_irrefl _)
  · exact absurd band.percent_lt (not_lt.mpr wide)

private theorem lt_softLimit_iff (band : Band limit softPercent) :
    Binary64.ofNat usage.toNat < softLimit limit softPercent ↔ ¬ Reached usage limit softPercent := by
  rw [lt_iff_toRat (isFinite_ofNat usage.toNat_lt.le) band.softLimit_spec.1]
  exact not_le.symm

theorem bandDepth?_of_not_reached (band : Band limit softPercent) (below : ¬ Reached usage limit softPercent) :
    bandDepth? usage limit softPercent = none := by
  rw [band.bandDepth?_of_band, if_pos (band.lt_softLimit_iff.mpr below)]

/-- In the band and beyond it the depth is what was climbed, cut off at one. -/
theorem bandDepth?_of_reached (band : Band limit softPercent) (reached : Reached usage limit softPercent) :
    ∃ depth, bandDepth? usage limit softPercent = some depth ∧ Fraction depth ∧
      depth.toRat = min (climb usage limit softPercent).toRat 1 := by
  obtain ⟨finite, rounds⟩ := band.climb_spec reached
  obtain ⟨-, low, -⟩ := band.excess_spec reached
  have room := band.excess_limit.2
  have nonneg := rounds.nonneg finite (div_nonneg low (by linarith))
  obtain ⟨oneFinite, one⟩ := toRat_one
  obtain ⟨clampFinite, clamped⟩ := toRat_clamp finite isFinite_zero oneFinite (by rw [toRat_zero, one]; norm_num)
  rw [toRat_zero, one, max_eq_right (le_min nonneg zero_le_one)] at clamped
  refine ⟨_, band.bandDepth?_of_band.trans (if_neg ?_), ⟨clampFinite, ?_, ?_⟩, clamped⟩
  · exact fun below => band.lt_softLimit_iff.mp below reached
  · rw [clamped]
    exact le_min nonneg zero_le_one
  · rw [clamped]
    exact min_le_right ..

end Band

section Delay

variable {depth more : Binary64} {maxDelay : Duration}

theorem Fraction.mul (fraction : Fraction depth) {a : Binary64} (finite : a.isFinite) (nonneg : 0 ≤ a.toRat) :
    (a * depth).isFinite ∧ 0 ≤ (a * depth).toRat ∧ (a * depth).toRat ≤ a.toRat := by
  have high := mul_le_of_le_one_right nonneg fraction.le_one
  exact (rounds_mul finite fraction.finite).between finite (mul_nonneg nonneg fraction.nonneg) high

theorem Fraction.mul_mono (fraction : Fraction depth) (other : Fraction more) {a b : Binary64}
    (finite : a.isFinite) (nonneg : 0 ≤ a.toRat) (otherFinite : b.isFinite) (le : a.toRat ≤ b.toRat)
    (deeper : depth.toRat ≤ more.toRat) : (a * depth).toRat ≤ (b * more).toRat :=
  (rounds_mul finite fraction.finite).toRat_le (rounds_mul otherFinite other.finite)
    (fraction.mul finite nonneg).1 (other.mul otherFinite (nonneg.trans le)).1
    (mul_le_mul le deeper fraction.nonneg (nonneg.trans le))

theorem Fraction.share (fraction : Fraction depth) (curve : ThrottleCurve) :
    Fraction (curve.share depth) ∧ (curve.share depth).toRat ≤ depth.toRat := by
  cases curve with
  | linear => exact ⟨fraction, le_rfl⟩
  | exponential =>
    obtain ⟨finite, low, high⟩ := fraction.mul fraction.finite fraction.nonneg
    exact ⟨⟨finite, low, high.trans fraction.le_one⟩, high⟩

theorem Fraction.share_mono (fraction : Fraction depth) (other : Fraction more)
    (deeper : depth.toRat ≤ more.toRat)
    (curve : ThrottleCurve) : (curve.share depth).toRat ≤ (curve.share more).toRat := by
  cases curve with
  | linear => exact deeper
  | exponential => exact fraction.mul_mono other fraction.finite fraction.nonneg other.finite deeper deeper

theorem Fraction.share_zero (fraction : Fraction depth) (zero : depth.toRat = 0) (curve : ThrottleCurve) :
    (curve.share depth).toRat = 0 := by
  obtain ⟨share, high⟩ := fraction.share curve
  exact le_antisymm (high.trans zero.le) share.nonneg

theorem Fraction.share_one (fraction : Fraction depth) (whole : depth.toRat = 1) (curve : ThrottleCurve) :
    (curve.share depth).toRat = 1 := by
  cases curve with
  | linear => exact whole
  | exponential =>
    have rounds := rounds_mul fraction.finite fraction.finite
    have square : depth.toRat * depth.toRat = depth.toRat := by rw [whole, mul_one]
    rw [square] at rounds
    exact (rounds.toRat_eq fraction.finite).2.trans whole

theorem delayAt_eq (curve : ThrottleCurve) :
    delayAt curve maxDelay depth = delayAt .linear maxDelay (curve.share depth) :=
  rfl

private theorem delayAt_of_none (beyond : Duration.ofBinary64? (maxDelay.toBinary64 * depth) = none) :
    delayAt .linear maxDelay depth = maxDelay := by
  simp only [delayAt, ThrottleCurve.share, beyond]

private theorem delayAt_of_some {delay : Duration}
    (found : Duration.ofBinary64? (maxDelay.toBinary64 * depth) = some delay) :
    delayAt .linear maxDelay depth = min delay maxDelay := by
  simp only [delayAt, ThrottleCurve.share, found]

/-- A greater share is a longer delay, also where the product is beyond all durations. -/
private theorem delayAt_linear_mono (fraction : Fraction depth) (other : Fraction more)
    (deeper : depth.toRat ≤ more.toRat) :
    delayAt .linear maxDelay depth ≤ delayAt .linear maxDelay more := by
  obtain ⟨finite, nonneg⟩ := maxDelay.toBinary64_spec
  obtain ⟨productFinite, low, -⟩ := fraction.mul finite nonneg
  obtain ⟨otherFinite, -, -⟩ := other.mul finite nonneg
  have le := fraction.mul_mono other finite nonneg finite le_rfl deeper
  cases found : Duration.ofBinary64? (maxDelay.toBinary64 * more) with
  | none =>
    rw [delayAt_of_none found]
    exact delayAt_le ..
  | some longer =>
    obtain ⟨shorter, read, ordered⟩ := Duration.ofBinary64?_mono productFinite low otherFinite le found
    rw [delayAt_of_some read, delayAt_of_some found, Duration.le_iff, Duration.nanos_min, Duration.nanos_min]
    exact min_le_min_right _ ordered

theorem delayAt_mono (fraction : Fraction depth) (other : Fraction more) (deeper : depth.toRat ≤ more.toRat)
    (curve : ThrottleCurve) : delayAt curve maxDelay depth ≤ delayAt curve maxDelay more := by
  rw [delayAt_eq curve, delayAt_eq curve]
  exact delayAt_linear_mono (fraction.share curve).1 (other.share curve).1 (fraction.share_mono other deeper curve)

theorem delayAt_le_linear (fraction : Fraction depth) (curve : ThrottleCurve) :
    delayAt curve maxDelay depth ≤ delayAt .linear maxDelay depth := by
  obtain ⟨share, high⟩ := fraction.share curve
  rw [delayAt_eq curve]
  exact delayAt_linear_mono share fraction high

private theorem delayAt_linear_eq (fraction : Fraction depth) {delay : Duration} (le : delay ≤ maxDelay)
    (near : |(maxDelay.toBinary64 * depth).toRat - delay.nanos / 1000000000| < 1 / 2000000000) :
    delayAt .linear maxDelay depth = delay := by
  obtain ⟨finite, nonneg⟩ := maxDelay.toBinary64_spec
  obtain ⟨productFinite, low, -⟩ := fraction.mul finite nonneg
  rw [delayAt_of_some (Duration.ofBinary64?_eq productFinite low near)]
  exact Duration.ext ((Duration.nanos_min ..).trans (Nat.min_eq_left le))

theorem delayAt_zero (fraction : Fraction depth) (zero : depth.toRat = 0) (curve : ThrottleCurve) :
    delayAt curve maxDelay depth = 0 := by
  obtain ⟨share, -⟩ := fraction.share curve
  have rounds := rounds_mul maxDelay.toBinary64_spec.1 share.finite
  rw [fraction.share_zero zero curve, mul_zero, ← toRat_zero] at rounds
  rw [delayAt_eq curve]
  refine delayAt_linear_eq share (Duration.zero_le maxDelay) ?_
  rw [(rounds.toRat_eq isFinite_zero).2, toRat_zero, Duration.nanos_zero]
  norm_num

/-- The whole of a greatest delay below `2 ^ 23` seconds is that delay to the nanosecond. -/
theorem delayAt_one (fraction : Fraction depth) (whole : depth.toRat = 1)
    (short : maxDelay.nanos < 2 ^ 23 * 1000000000) (curve : ThrottleCurve) :
    delayAt curve maxDelay depth = maxDelay := by
  obtain ⟨share, -⟩ := fraction.share curve
  obtain ⟨finite, -⟩ := maxDelay.toBinary64_spec
  have rounds := rounds_mul finite share.finite
  rw [fraction.share_one whole curve, mul_one] at rounds
  rw [delayAt_eq curve]
  refine delayAt_linear_eq share (Nat.le_refl _) ?_
  rw [(rounds.toRat_eq finite).2]
  exact Duration.toBinary64_near short

end Delay

section Ramp

variable {usage more limit : UInt64} {softPercent : Nat} {maxDelay : Duration} {curve : ThrottleCurve}

private theorem throttleDelay_of_none (outside : bandDepth? usage limit softPercent = none) :
    throttleDelay usage limit softPercent maxDelay curve = 0 := by
  simp only [throttleDelay, outside]

theorem throttleDelay_of_some {depth : Binary64} (found : bandDepth? usage limit softPercent = some depth) :
    throttleDelay usage limit softPercent maxDelay curve = delayAt curve maxDelay depth := by
  simp only [throttleDelay, found]

private theorem bandDepth?_of_not_band (outside : ¬ Band limit softPercent) :
    bandDepth? usage limit softPercent = none := by
  refine if_pos ?_
  by_contra inside
  obtain ⟨nonzero, less⟩ := not_or.mp inside
  refine outside ⟨Nat.pos_of_ne_zero fun zero => nonzero ?_, not_le.mp less⟩
  exact UInt64.toNat_inj.mp zero

/-- Either nothing is delayed, or there is a band and its soft limit is reached. -/
private theorem throttleDelay_cases (usage limit : UInt64) (softPercent : Nat) :
    (∀ maxDelay curve, throttleDelay usage limit softPercent maxDelay curve = 0) ∨
      Band limit softPercent ∧ Band.Reached usage limit softPercent := by
  by_cases band : Band limit softPercent
  · by_cases reached : Band.Reached usage limit softPercent
    · exact .inr ⟨band, reached⟩
    · exact .inl fun _ _ => throttleDelay_of_none (band.bandDepth?_of_not_reached reached)
  · exact .inl fun _ _ => throttleDelay_of_none (bandDepth?_of_not_band band)

theorem throttleDelay_mono (le : usage ≤ more) :
    throttleDelay usage limit softPercent maxDelay curve ≤ throttleDelay more limit softPercent maxDelay curve := by
  rcases throttleDelay_cases usage limit softPercent with outside | ⟨band, reached⟩
  · rw [outside]
    exact Duration.zero_le _
  · obtain ⟨depth, found, fraction, value⟩ := band.bandDepth?_of_reached reached
    obtain ⟨other, read, otherFraction, otherValue⟩ := band.bandDepth?_of_reached (reached.mono le)
    rw [throttleDelay_of_some found, throttleDelay_of_some read]
    refine delayAt_mono fraction otherFraction ?_ curve
    rw [value, otherValue]
    exact min_le_min_right _ (band.climb_mono reached le)

theorem throttleDelay_le_linear : throttleDelay usage limit softPercent maxDelay curve ≤
    throttleDelay usage limit softPercent maxDelay .linear := by
  rcases throttleDelay_cases usage limit softPercent with outside | ⟨band, reached⟩
  · rw [outside, outside]
    exact Duration.zero_le _
  · obtain ⟨depth, found, fraction, -⟩ := band.bandDepth?_of_reached reached
    rw [throttleDelay_of_some found, throttleDelay_of_some found]
    exact delayAt_le_linear fraction curve

theorem throttleDelay_eq_zero (small : limit.toNat ≤ 2 ^ 46)
    (under : 100 * usage.toNat ≤ softPercent * limit.toNat) :
    throttleDelay usage limit softPercent maxDelay curve = 0 := by
  rcases throttleDelay_cases usage limit softPercent with outside | ⟨band, reached⟩
  · exact outside maxDelay curve
  · obtain ⟨depth, found, fraction, value⟩ := band.bandDepth?_of_reached reached
    rw [band.climb_eq_zero reached (band.le_softLimit small under), min_eq_left zero_le_one] at value
    rw [throttleDelay_of_some found, delayAt_zero fraction value]

theorem throttleDelay_eq_max (band : Band limit softPercent) (short : maxDelay.nanos < 2 ^ 23 * 1000000000)
    (full : limit ≤ usage) : throttleDelay usage limit softPercent maxDelay curve = maxDelay := by
  obtain ⟨depth, found, fraction, value⟩ := band.bandDepth?_of_reached (band.excess_limit.1.mono full)
  rw [min_eq_right (band.one_le_climb full)] at value
  rw [throttleDelay_of_some found, delayAt_one fraction value short]

end Ramp

/-- The delay is never longer than the greatest one, never falls as the usage grows, and is no longer on the
exponential curve than on the linear one. Up to the soft limit there is none, and from the limit on it is the
greatest one to the nanosecond. -/
theorem throttleDelay_ramps (usage limit : UInt64) (softPercent : Nat) (maxDelay : Duration)
    (curve : ThrottleCurve) :
    throttleDelay usage limit softPercent maxDelay curve ≤ maxDelay ∧
      (∀ more, usage ≤ more → throttleDelay usage limit softPercent maxDelay curve ≤
        throttleDelay more limit softPercent maxDelay curve) ∧
      throttleDelay usage limit softPercent maxDelay .exponential ≤
        throttleDelay usage limit softPercent maxDelay .linear ∧
      (limit.toNat ≤ 2 ^ 46 → 100 * usage.toNat ≤ softPercent * limit.toNat →
        throttleDelay usage limit softPercent maxDelay curve = 0) ∧
      (0 < limit → softPercent < 100 → maxDelay.nanos < 2 ^ 23 * 1000000000 → limit ≤ usage →
        throttleDelay usage limit softPercent maxDelay curve = maxDelay) := by
  refine ⟨throttleDelay_le .., fun more => throttleDelay_mono, throttleDelay_le_linear, throttleDelay_eq_zero, ?_⟩
  intro limited percent short full
  exact throttleDelay_eq_max ⟨UInt64.lt_iff_toNat_lt.mp limited, percent⟩ short full

/-- A limit of 100 with a soft limit of 80 percent and two seconds at most. -/
theorem throttleDelay_ramps_two_seconds :
    throttleDelay 80 100 80 (.ofSeconds 2) .exponential = 0 ∧
      throttleDelay 80 100 80 (.ofSeconds 2) .exponential ≤ throttleDelay 93 100 80 (.ofSeconds 2) .exponential ∧
      throttleDelay 100 100 80 (.ofSeconds 2) .exponential = .ofSeconds 2 := by
  obtain ⟨-, mono, -, early, -⟩ := throttleDelay_ramps 80 100 80 (.ofSeconds 2) .exponential
  obtain ⟨-, -, -, -, full⟩ := throttleDelay_ramps 100 100 80 (.ofSeconds 2) .exponential
  exact ⟨early (by decide) (by decide), mono 93 (by decide),
    full (by decide) (by decide) (by decide) (by decide)⟩

end Admission
