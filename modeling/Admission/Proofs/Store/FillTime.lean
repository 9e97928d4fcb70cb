import Admission.Proofs.Duration
import Admission.Proofs.Store.BucketExpiry

/-! Rates and the expiry of token buckets. Main statements: expiry creates no budget if the rate lets in
the capacity in the time to live, and only if it does, up to rounding; so it creates none for a bucket
that refills at the rate of its requests and its window. -/
namespace Admission.MemoryStore

open Binary64 Bucket

section Rate

variable {limiter : Limiter} {key : String}

private theorem fillsInTime_of_rate (fills : Fills limiter)
    (enough : (1 + 1 / 2 ^ 50) * limiter.capacity.toNat ≤
      limiter.refillRate.toRat * limiter.ttl.toMillis.toNat / 1000) : FillsInTime limiter :=
  .inr (refilled_eq_capacity_of_rate fills.capacity_pos limiter.capacity.toNat_lt.le fills.rate_finite
    fills.rate_nonneg limiter.ttl.toMillis.toNat_lt.le enough 0)

theorem noBudget_of_rate (fills : Fills limiter) (bucket : limiter.algorithm = .tokenBucket)
    (enough : (1 + 1 / 2 ^ 50) * limiter.capacity.toNat ≤
      limiter.refillRate.toRat * limiter.ttl.toMillis.toNat / 1000) (key : String) :
    CreatesNoBudget key limiter :=
  noBudget_of_fillsInTime fills bucket (fillsInTime_of_rate fills enough) key

theorem rate_of_noBudget (fills : Fills limiter) (bucket : limiter.algorithm = .tokenBucket)
    (ends : limiter.ttl.toMillis ≠ Timestamp.last) (noBudget : CreatesNoBudget key limiter) :
    limiter.capacity.toNat ≤
      (1 + 1 / 2 ^ 50) * (limiter.refillRate.toRat * limiter.ttl.toMillis.toNat / 1000) := by
  rcases fillsInTime_of_noBudget fills bucket noBudget with endless | full
  · exact absurd endless ends
  · exact rate_of_refilled_eq_capacity fills.capacity_pos limiter.capacity.toNat_lt.le fills.rate_finite
      fills.rate_nonneg limiter.ttl.toMillis.toNat_lt.le full

end Rate

section Defaults

variable {limiter : Limiter} {name : String} {requests : UInt64} {window : Duration}

/-- Two windows in whole milliseconds are a third longer than one window, or last for ever. -/
private theorem ttl_long (long : 1000000 ≤ window.nanos) (same : limiter.window = window) :
    limiter.ttl.toMillis = Timestamp.last ∨ 4 * window.nanos ≤ 3000000 * limiter.ttl.toMillis.toNat := by
  have bound := window.nanos_lt
  rw [← UInt64.toNat_inj, Timestamp.toNat_last, limiter.toNat_ttl, same]
  simp only [durationEnd, UInt64.size] at *
  omega

private theorem toBinary64_le (long : 1000000 ≤ window.nanos) (finite : window.toBinary64.isFinite) :
    0 < window.toBinary64.toRat ∧
      window.toBinary64.toRat ≤ (1 + 1 / 2 ^ 51) * (window.nanos / 1000000000) := by
  obtain ⟨x, rounds, low, near⟩ := Duration.rounds_toBinary64 window
  have tiny := least_tiny
  have lasting : (1 : ℚ) / 1000 ≤ window.nanos / 1000000000 := by
    have cast : (1000000 : ℚ) ≤ window.nanos := by exact_mod_cast long
    rw [div_le_div_iff₀ (by norm_num) (by norm_num)]
    linarith
  have error := rounds.error_le finite
  rw [abs_of_nonneg low] at error
  rw [abs_le] at near error
  constructor <;> linarith

/-- The rate of requests and a window lets in the requests in the window, up to rounding. -/
private theorem le_steadyRate (long : 1000000 ≤ window.nanos) (finite : window.toBinary64.isFinite)
    (rateFinite : (Limiter.steadyRate requests window).isFinite) (positive : 0 < requests.toNat) {k : ℚ}
    (longer : 4 / 3 * (window.nanos / 1000000000) ≤ k) (word : k ≤ 2 ^ 64) :
    (1 + 1 / 2 ^ 50) * requests.toNat ≤ (Limiter.steadyRate requests window).toRat * k := by
  obtain ⟨lasting, le⟩ := toBinary64_le long finite
  have requestsWord := requests.toNat_lt.le
  have requestsFinite := isFinite_ofNat requestsWord
  have tiny := least_tiny
  have one : (1 : ℚ) ≤ requests.toNat := Nat.one_le_cast.mpr positive
  have counted := ofNat_error requestsWord
  have quotient : 0 ≤ (Binary64.ofNat requests.toNat).toRat / window.toBinary64.toRat :=
    div_nonneg (toRat_ofNat_nonneg requestsWord) lasting.le
  have rounds : Rounds _ (Limiter.steadyRate requests window) :=
    rounds_div requestsFinite finite lasting.ne'
  have error := rounds.error_le rateFinite
  rw [abs_of_nonneg quotient, abs_le] at error
  rw [abs_le] at counted
  have nonneg : 0 ≤ k := le_trans (by positivity) longer
  have share : 13 / 10 ≤ k / window.toBinary64.toRat := by
    rw [le_div_iff₀ lasting]
    linarith
  have product : (1 - 1 / 2 ^ 53) * requests.toNat * (13 / 10) ≤
      (Binary64.ofNat requests.toNat).toRat * (k / window.toBinary64.toRat) :=
    mul_le_mul (by linarith) share (by norm_num) (toRat_ofNat_nonneg requestsWord)
  have lost : least / 2 * k ≤ 1 / 2 ^ 107 * 2 ^ 64 := mul_le_mul (by linarith) word nonneg (by norm_num)
  calc (1 + 1 / 2 ^ 50) * (requests.toNat : ℚ)
      ≤ (1 - 1 / 2 ^ 53) * ((1 - 1 / 2 ^ 53) * requests.toNat * (13 / 10)) - 1 / 2 ^ 107 * 2 ^ 64 := by
        linarith
    _ ≤ (1 - 1 / 2 ^ 53) * ((Binary64.ofNat requests.toNat).toRat * (k / window.toBinary64.toRat)) -
          least / 2 * k := by linarith
    _ = ((Binary64.ofNat requests.toNat).toRat / window.toBinary64.toRat * (1 - 1 / 2 ^ 53) -
          least / 2) * k := by ring
    _ ≤ (Limiter.steadyRate requests window).toRat * k :=
        mul_le_mul_of_nonneg_right (by linarith) nonneg

theorem fillsInTime_of_steadyRate (built : Limiter.tokenBucket name requests window = .ok limiter)
    (long : 1000000 ≤ window.nanos) : FillsInTime limiter := by
  obtain ⟨bucket, sameWindow, capacity, rate⟩ := Limiter.tokenBucket_spec built
  have fills := fills_of_build built bucket
  obtain ⟨holds, rateFinite, positive⟩ := Limiter.Draft.build_tokenBucket built bucket
  rw [lt_iff_toRat isFinite_zero rateFinite, toRat_zero] at positive
  rcases ttl_long long sameWindow with endless | longer
  · exact .inl endless
  · refine fillsInTime_of_rate fills ?_
    rw [rate] at rateFinite positive
    rw [capacity] at holds
    obtain ⟨x, rounds, low, -⟩ := Duration.rounds_toBinary64 window
    rw [capacity, rate, mul_div_assoc]
    have word := limiter.ttl.toMillis.toNat_lt
    refine le_steadyRate long ?_ rateFinite holds ?_ ?_
    · rcases rounds.isFinite_or low with finite | infinite
      · exact finite
      · -- A rate over an infinite time would be zero.
        rw [Limiter.steadyRate, infinite, toRat_div_infinite (isFinite_ofNat requests.toNat_lt.le)] at positive
        exact absurd positive (lt_irrefl 0)
    · have cast : (4 * window.nanos : ℚ) ≤ 3000000 * limiter.ttl.toMillis.toNat := by exact_mod_cast longer
      linarith
    · have cast : (limiter.ttl.toMillis.toNat : ℚ) ≤ 2 ^ 64 := by exact_mod_cast word.le
      linarith

/-- Expiry creates no budget for a bucket that refills at the rate of its requests and its window, as
long as the window is a millisecond or more. -/
theorem noBudget_of_steadyRate (built : Limiter.tokenBucket name requests window = .ok limiter)
    (long : 1000000 ≤ window.nanos) (key : String) :
    DiscardsFullBuckets key limiter ∧ CreatesNoBudget key limiter := by
  obtain ⟨bucket, -, -, -⟩ := Limiter.tokenBucket_spec built
  have fills := fills_of_build built bucket
  have inTime := fillsInTime_of_steadyRate built long
  exact ⟨discardsFull_of_fillsInTime fills bucket inTime key, noBudget_of_fillsInTime fills bucket inTime key⟩

end Defaults
end Admission.MemoryStore
