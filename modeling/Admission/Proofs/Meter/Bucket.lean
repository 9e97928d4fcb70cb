import Mathlib.Tactic.Linarith
import Admission.Meter.Bucket
import Admission.Proofs.Binary64.Error
import Admission.Proofs.Limiter.Build
import Admission.Proofs.Timestamp

namespace Admission.Bucket

open Binary64

/-- The tokens that come in over some milliseconds. -/
def gained (rate : Binary64) (millis : Nat) : Binary64 :=
  .ofNat millis / 1000 * rate

/-- The tokens that a refill starts from: NaN counts as none, and what is out of range is
brought into it. -/
def balance (capacity tokens : Binary64) : Binary64 :=
  if tokens.isNaN then 0 else tokens.clamp 0 capacity

theorem refilled_eq (capacity rate tokens : Binary64) (millis : Nat) :
    refilled capacity rate tokens millis = min (balance capacity tokens + gained rate millis) capacity :=
  rfl

section Time

variable {millis : Nat}

theorem toRat_thousand : (1000 : Binary64).isFinite ∧ (1000 : Binary64).toRat = 1000 :=
  toRat_literal 1000 (by decide)

private theorem thousandth_normal : (binade : ℚ) * least ≤ 1 / 1000 := by
  have room : ((1000 * binade : Nat) : ℚ) ≤ (unitsPerOne : ℚ) := Nat.cast_le.mpr (by decide)
  have scaled := mul_le_mul_of_nonneg_right room least_pos.le
  rw [unitsPerOne_mul_least, Nat.cast_mul, mul_assoc] at scaled
  rw [le_div_iff₀ (by norm_num), mul_comm]
  exact_mod_cast scaled

/-- Milliseconds in seconds are put off by two roundings. -/
theorem seconds_spec (word : millis ≤ UInt64.size) : (Binary64.ofNat millis / 1000).isFinite ∧
    0 ≤ (Binary64.ofNat millis / 1000).toRat ∧
    |(Binary64.ofNat millis / 1000).toRat - millis / 1000| ≤ millis / 1000 * ((1 + 1 / 2 ^ 53) ^ 2 - 1) := by
  have wordFinite := isFinite_ofNat word
  obtain ⟨thousandFinite, thousand⟩ := toRat_thousand
  have reading := rounds_ofNat millis
  have nonneg := reading.nonneg wordFinite (Nat.cast_nonneg _)
  have rounds := rounds_div wordFinite thousandFinite (by rw [thousand]; norm_num)
  rw [thousand] at rounds
  have quotient : 0 ≤ (Binary64.ofNat millis).toRat / 1000 := div_nonneg nonneg (by norm_num)
  have finite : (Binary64.ofNat millis / 1000).isFinite := by
    refine rounds.isFinite_of_le wordFinite ?_
    rw [abs_of_nonneg nonneg, abs_of_nonneg quotient]
    exact div_le_self nonneg (by norm_num)
  refine ⟨finite, rounds.nonneg finite quotient, ?_⟩
  have second : |(Binary64.ofNat millis / 1000).toRat - (Binary64.ofNat millis).toRat / 1000| ≤
      |(Binary64.ofNat millis).toRat / 1000| / 2 ^ 53 := by
    rcases Nat.eq_zero_or_pos millis with instant | positive
    · have zero : (Binary64.ofNat millis).toRat = 0 := by rw [instant]; exact toRat_zero
      exact rounds.error_grid finite 0 (by rw [zero]; norm_num)
    · have one := one_le_toRat_ofNat positive word
      refine rounds.error_normal finite ?_
      rw [abs_of_nonneg quotient]
      exact thousandth_normal.trans (div_le_div_of_nonneg_right one (by norm_num))
  have first := ofNat_error word
  rw [abs_of_nonneg quotient, abs_le] at second
  rw [abs_le] at first
  rw [abs_le]
  constructor <;> linarith

end Time

/-- A number of tokens that a bucket can hold. -/
structure InRange (capacity tokens : Binary64) : Prop where
  finite : tokens.isFinite
  nonneg : 0 ≤ tokens.toRat
  le : tokens.toRat ≤ capacity.toRat

section Refill

variable {capacity rate tokens : Binary64} {millis : Nat}

theorem inRange_self (finite : capacity.isFinite) (nonneg : 0 ≤ capacity.toRat) : InRange capacity capacity :=
  ⟨finite, nonneg, le_rfl⟩

theorem inRange_zero (nonneg : 0 ≤ capacity.toRat) : InRange capacity 0 := by
  refine ⟨isFinite_zero, ?_, ?_⟩
  · rw [toRat_zero]
  · rw [toRat_zero]
    exact nonneg

theorem InRange.bounds (finite : capacity.isFinite) (range : InRange capacity tokens) :
    tokens.isNaN = false ∧ 0 ≤ tokens ∧ tokens ≤ capacity := by
  refine ⟨isNaN_of_isFinite range.finite, ?_, (le_iff_toRat range.finite finite).mpr range.le⟩
  rw [le_iff_toRat isFinite_zero range.finite, toRat_zero]
  exact range.nonneg

theorem InRange.trans {part : Binary64} (range : InRange capacity tokens) (taken : InRange tokens part) :
    InRange capacity part :=
  ⟨taken.finite, taken.nonneg, taken.le.trans range.le⟩

theorem InRange.sub {part : Binary64} (finite : tokens.isFinite) (taken : InRange tokens part) :
    InRange tokens (tokens - part) := by
  obtain ⟨leftFinite, nonneg, le⟩ :=
    (rounds_sub finite taken.finite).between finite (sub_nonneg.mpr taken.le) (sub_le_self _ taken.nonneg)
  exact ⟨leftFinite, nonneg, le⟩

theorem InRange.pay {permits : UInt64} (range : InRange capacity tokens)
    (covered : Binary64.ofNat permits.toNat ≤ tokens) : InRange capacity (tokens - .ofNat permits.toNat) := by
  have costFinite := isFinite_ofNat permits.toNat_lt.le
  have cost : InRange tokens (.ofNat permits.toNat) :=
    ⟨costFinite, toRat_ofNat_nonneg permits.toNat_lt.le, (le_iff_toRat costFinite range.finite).mp covered⟩
  exact range.trans (cost.sub range.finite)

theorem balance_of_inRange (finite : capacity.isFinite) (range : InRange capacity tokens) :
    balance capacity tokens = tokens := by
  have notBelow : ¬ tokens < 0 := by
    rw [lt_iff_toRat range.finite isFinite_zero, toRat_zero]
    exact not_lt.mpr range.nonneg
  have notAbove : ¬ capacity < tokens := by
    rw [lt_iff_toRat finite range.finite]
    exact not_lt.mpr range.le
  rw [balance, isNaN_of_isFinite range.finite, clamp, if_neg notBelow, if_neg notAbove]
  rfl

/-- A refill starts from tokens that the bucket can hold, whatever was stored. -/
theorem inRange_balance (finite : capacity.isFinite) (nonneg : 0 ≤ capacity.toRat) (tokens : Binary64) :
    InRange capacity (balance capacity tokens) := by
  unfold balance clamp
  split_ifs with number below above
  · exact inRange_zero nonneg
  · exact inRange_zero nonneg
  · exact inRange_self finite nonneg
  · have notNaN : tokens.isNaN = false := by simpa using number
    have low := (Binary64.not_lt notNaN rfl).mp below
    have high := (Binary64.not_lt (isNaN_of_isFinite finite) notNaN).mp above
    have tokensFinite := isFinite_of_between isFinite_zero finite low high
    rw [le_iff_toRat isFinite_zero tokensFinite, toRat_zero] at low
    exact ⟨tokensFinite, low, (le_iff_toRat tokensFinite finite).mp high⟩

/-- What a sum is capped to is in range, and hardly more than the sum. -/
private theorem capped {sum : Binary64} {x : ℚ} (rounds : Rounds x sum) (positive : 0 ≤ x)
    (finite : capacity.isFinite) (nonneg : 0 ≤ capacity.toRat) : InRange capacity (min sum capacity) ∧
      (min sum capacity).toRat ≤ x + capacity.toRat / 2 ^ 53 + least / 2 := by
  have pos := least_pos
  have slack : 0 ≤ capacity.toRat / 2 ^ 53 := div_nonneg nonneg (by norm_num)
  rcases rounds.isFinite_or positive with sumFinite | infinite
  · rcases min_cases (isNaN_of_isFinite sumFinite) (isNaN_of_isFinite finite) with ⟨le, same⟩ | ⟨lt, same⟩
    · have fits := (le_iff_toRat sumFinite finite).mp le
      rw [same]
      refine ⟨⟨sumFinite, rounds.nonneg sumFinite positive, fits⟩, ?_⟩
      have error := rounds.error_le sumFinite
      rw [abs_of_nonneg positive, abs_le] at error
      rcases le_total x capacity.toRat with small | large <;> linarith
    · have beyond := (lt_iff_toRat finite sumFinite).mp lt
      rw [same]
      refine ⟨inRange_self finite nonneg, ?_⟩
      by_contra less
      have fits := rounds.toRat_le (rounds_toRat finite) sumFinite finite (by linarith)
      linarith
  · rw [infinite, min_infinite finite]
    have beyond := rounds.lt_of_infinite infinite positive finite nonneg
    exact ⟨inRange_self finite nonneg, by linarith⟩

/-- What comes in is a rounded number that two roundings have put off. -/
theorem rounds_gained (finite : rate.isFinite) (positive : 0 ≤ rate.toRat) (word : millis ≤ UInt64.size) :
    ∃ x, Rounds x (gained rate millis) ∧ 0 ≤ x ∧ |x - rate.toRat * millis / 1000| ≤
      rate.toRat * millis / 1000 * ((1 + 1 / 2 ^ 53) ^ 2 - 1) := by
  obtain ⟨secondsFinite, low, error⟩ := seconds_spec word
  refine ⟨_, rounds_mul secondsFinite finite, mul_nonneg low positive, ?_⟩
  calc |(Binary64.ofNat millis / 1000).toRat * rate.toRat - rate.toRat * millis / 1000|
      = |(Binary64.ofNat millis / 1000).toRat - millis / 1000| * rate.toRat := by
        rw [← abs_of_nonneg positive, ← abs_mul, abs_of_nonneg positive]
        congr 1
        ring
    _ ≤ millis / 1000 * ((1 + 1 / 2 ^ 53) ^ 2 - 1) * rate.toRat :=
        mul_le_mul_of_nonneg_right error positive
    _ = rate.toRat * millis / 1000 * ((1 + 1 / 2 ^ 53) ^ 2 - 1) := by ring

theorem refilled_spec (finite : capacity.isFinite) (nonneg : 0 ≤ capacity.toRat) (rateFinite : rate.isFinite)
    (positive : 0 ≤ rate.toRat) (word : millis ≤ UInt64.size) (tokens : Binary64) :
    InRange capacity (refilled capacity rate tokens millis) ∧
      (refilled capacity rate tokens millis).toRat ≤ (balance capacity tokens).toRat +
        (1 + 1 / 2 ^ 51) * (rate.toRat * millis / 1000) + capacity.toRat / 2 ^ 53 + least := by
  have pos := least_pos
  have start := inRange_balance finite nonneg tokens
  have startNonneg := start.nonneg
  have slack : 0 ≤ capacity.toRat / 2 ^ 53 := div_nonneg nonneg (by norm_num)
  obtain ⟨x, rounds, low, near⟩ := rounds_gained rateFinite positive word
  rw [abs_le] at near
  have credit : 0 ≤ rate.toRat * millis / 1000 :=
    div_nonneg (mul_nonneg positive (Nat.cast_nonneg _)) (by norm_num)
  rw [refilled_eq]
  rcases rounds.isFinite_or low with gainedFinite | infinite
  · have gainedNonneg := rounds.nonneg gainedFinite low
    obtain ⟨range, le⟩ := capped (rounds_add start.finite gainedFinite)
      (add_nonneg startNonneg gainedNonneg) finite nonneg
    have error := rounds.error_le gainedFinite
    rw [abs_of_nonneg low, abs_le] at error
    exact ⟨range, by linarith⟩
  · rw [infinite, add_infinite start.finite, min_infinite finite]
    have beyond := rounds.lt_of_infinite infinite low finite nonneg
    exact ⟨inRange_self finite nonneg, by linarith⟩

/-- Unless it fills the bucket, a refill adds hardly less than the rate allows. -/
theorem le_refilled (finite : capacity.isFinite) (nonneg : 0 ≤ capacity.toRat) (rateFinite : rate.isFinite)
    (positive : 0 ≤ rate.toRat) (word : millis ≤ UInt64.size) (tokens : Binary64)
    (short : (refilled capacity rate tokens millis).toRat < capacity.toRat) :
    (1 - 1 / 2 ^ 50) * ((balance capacity tokens).toRat + rate.toRat * millis / 1000) - least ≤
      (refilled capacity rate tokens millis).toRat := by
  have pos := least_pos
  have start := inRange_balance finite nonneg tokens
  have startNonneg := start.nonneg
  obtain ⟨x, rounds, low, near⟩ := rounds_gained rateFinite positive word
  rw [abs_le] at near
  rw [refilled_eq] at short ⊢
  rcases rounds.isFinite_or low with gainedFinite | infinite
  · have sum := rounds_add start.finite gainedFinite
    have sumNonneg := add_nonneg startNonneg (rounds.nonneg gainedFinite low)
    rcases sum.isFinite_or sumNonneg with sumFinite | infinite
    · rcases min_cases (isNaN_of_isFinite sumFinite) (isNaN_of_isFinite finite) with ⟨-, same⟩ | ⟨-, same⟩
      · rw [same]
        have first := (abs_le.mp (rounds.error_le gainedFinite)).1
        have second := (abs_le.mp (sum.error_le sumFinite)).1
        rw [abs_of_nonneg low] at first
        rw [abs_of_nonneg sumNonneg] at second
        linarith [near.1]
      · rw [same] at short
        exact absurd short (lt_irrefl _)
    · rw [infinite, min_infinite finite] at short
      exact absurd short (lt_irrefl _)
  · rw [infinite, add_infinite start.finite, min_infinite finite] at short
    exact absurd short (lt_irrefl _)

end Refill

/-- The capacity as a value. -/
abbrev capacityOf (limiter : Limiter) : Binary64 := .ofNat limiter.capacity.toNat

/-- A limiter whose buckets hold a token and fill up. -/
structure Fills (limiter : Limiter) : Prop where
  capacity_pos : 0 < limiter.capacity.toNat
  rate_finite : limiter.refillRate.isFinite
  rate_nonneg : 0 ≤ limiter.refillRate.toRat

section Charge

variable {limiter : Limiter} {bucket : Bucket} {permits : UInt64} {now : Timestamp}

theorem charge_none (limiter : Limiter) (permits : UInt64) (now : Timestamp) :
    charge limiter permits now none = charge limiter permits now (some (full limiter now)) := rfl

theorem charge_covered (covered : Binary64.ofNat permits.toNat ≤ bucket.available limiter now) :
    charge limiter permits now (some bucket) =
      ⟨⟨bucket.available limiter now - .ofNat permits.toNat, max bucket.lastRefill now⟩, true⟩ :=
  if_pos covered

theorem charge_not_covered (less : ¬ Binary64.ofNat permits.toNat ≤ bucket.available limiter now) :
    charge limiter permits now (some bucket) =
      ⟨⟨bucket.available limiter now, max bucket.lastRefill now⟩, false⟩ :=
  if_neg less

theorem lastRefill_charge (limiter : Limiter) (permits : UInt64) (now : Timestamp) (bucket : Bucket) :
    (charge limiter permits now (some bucket)).state.lastRefill = max bucket.lastRefill now := by
  unfold charge
  dsimp only
  split_ifs <;> rfl

theorem lastRefill_charge_of_le {previous? : Option Bucket} (limiter : Limiter) (permits : UInt64)
    (earlier : ∀ bucket ∈ previous?, bucket.lastRefill ≤ now) :
    (charge limiter permits now previous?).state.lastRefill = now := by
  have stamp := lastRefill_charge limiter permits now (previous?.getD (full limiter now))
  have le : (previous?.getD (full limiter now)).lastRefill ≤ now := by
    cases previous? with
    | none => exact UInt64.le_refl now
    | some bucket => exact earlier bucket rfl
  refine Eq.trans stamp ?_
  rw [UInt64.le_iff_toNat_le] at le
  rw [← UInt64.toNat_inj, Timestamp.toNat_max]
  omega

theorem Fills.capacity (fills : Fills limiter) :
    (capacityOf limiter).isFinite ∧ 0 < (capacityOf limiter).toRat := by
  have word := limiter.capacity.toNat_lt.le
  exact ⟨isFinite_ofNat word, zero_lt_one.trans_le (one_le_toRat_ofNat fills.capacity_pos word)⟩

/-- Whatever a bucket has stored, it can hold the tokens that there are. -/
theorem inRange_available (fills : Fills limiter) (bucket : Bucket) (now : Timestamp) :
    InRange (capacityOf limiter) (bucket.available limiter now) :=
  (refilled_spec fills.capacity.1 fills.capacity.2.le fills.rate_finite fills.rate_nonneg
    (Timestamp.since_le_size now bucket.lastRefill) bucket.tokens).1

theorem fills_of_build {draft : Limiter.Draft} (built : draft.build = .ok limiter)
    (bucket : limiter.algorithm = .tokenBucket) : Fills limiter := by
  obtain ⟨holds, finite, positive⟩ := Limiter.Draft.build_tokenBucket built bucket
  rw [lt_iff_toRat isFinite_zero finite, toRat_zero] at positive
  exact ⟨holds, finite, positive.le⟩

end Charge
end Admission.Bucket
