import Admission.Proofs.Meter.Bucket
import Admission.Proofs.Meter.Run

/-! Token buckets conserve tokens. Main statement: what a run of requests is given is at most the
capacity and what the rate lets in over the time of the run, up to rounding. -/
namespace Admission.Bucket

open Binary64

/-- A limiter whose buckets fill up and count every token exactly. -/
structure Countable (limiter : Limiter) : Prop extends Fills limiter where
  capacity_lt : limiter.capacity.toNat < 2 * binade

section Step

variable {limiter : Limiter} {bucket : Bucket} {permits : UInt64} {now : Timestamp}

theorem Countable.exactly (countable : Countable limiter) :
    (capacityOf limiter).isFinite ∧ (capacityOf limiter).toRat = limiter.capacity.toNat :=
  ofNat_exact countable.capacity_lt.le

private theorem available_spec (countable : Countable limiter)
    (range : InRange (capacityOf limiter) bucket.tokens) (now : Timestamp) :
    InRange (capacityOf limiter) (bucket.available limiter now) ∧
      (bucket.available limiter now).toRat ≤ bucket.tokens.toRat +
        (1 + 1 / 2 ^ 51) * (limiter.refillRate.toRat * now.since bucket.lastRefill / 1000) +
        limiter.capacity.toNat / 2 ^ 53 + least := by
  obtain ⟨finite, exactly⟩ := countable.exactly
  have nonneg : 0 ≤ (capacityOf limiter).toRat := by
    rw [exactly]
    exact Nat.cast_nonneg _
  obtain ⟨available, le⟩ := refilled_spec finite nonneg countable.rate_finite
    countable.rate_nonneg (Timestamp.since_le_size now bucket.lastRefill) bucket.tokens
  rw [balance_of_inRange finite range, exactly] at le
  exact ⟨available, le⟩

theorem permits_le (countable : Countable limiter) {tokens : Binary64}
    (range : InRange (capacityOf limiter) tokens)
    (covered : Binary64.ofNat permits.toNat ≤ tokens) : permits.toNat ≤ limiter.capacity.toNat := by
  by_contra more
  have permitsFinite := isFinite_ofNat permits.toNat_lt.le
  have cost := (rounds_ofNat permits.toNat).natCast_le permitsFinite countable.capacity_lt
    (Nat.cast_le.mpr (not_le.mp more))
  have fits := ((le_iff_toRat permitsFinite range.finite).mp covered).trans range.le
  rw [countable.exactly.2] at fits
  have less : ((limiter.capacity.toNat + 1 : Nat) : ℚ) ≤ limiter.capacity.toNat := cost.trans fits
  exact absurd (Nat.cast_le.mp less) (Nat.not_succ_le_self _)

private theorem spend (countable : Countable limiter) {tokens : Binary64}
    (range : InRange (capacityOf limiter) tokens) (covered : Binary64.ofNat permits.toNat ≤ tokens) :
    InRange (capacityOf limiter) (tokens - .ofNat permits.toNat) ∧
      permits.toNat + (tokens - .ofNat permits.toNat).toRat ≤
        tokens.toRat + limiter.capacity.toNat / 2 ^ 53 - least := by
  have small := least_tiny
  have capacityExact := countable.exactly.2
  have within := permits_le countable range covered
  obtain ⟨costFinite, costExact⟩ := ofNat_exact (within.trans countable.capacity_lt.le)
  have rounds := rounds_sub range.finite costFinite
  have paid := (le_iff_toRat costFinite range.finite).mp covered
  rw [costExact] at rounds paid
  have nonneg : 0 ≤ tokens.toRat - permits.toNat := sub_nonneg.mpr paid
  have most := range.le
  have rest := range.pay covered
  refine ⟨rest, ?_⟩
  rcases Nat.eq_zero_or_pos permits.toNat with free | positive
  · -- Nothing is taken, and subtracting zero is exact.
    have one : (1 : ℚ) ≤ limiter.capacity.toNat := Nat.one_le_cast.mpr countable.capacity_pos
    rw [free, Nat.cast_zero, sub_zero] at rounds
    rw [free, Nat.cast_zero, zero_add, (rounds.toRat_eq range.finite).2]
    linarith
  · have one : (1 : ℚ) ≤ permits.toNat := Nat.one_le_cast.mpr positive
    have error := rounds.error_le rest.finite
    rw [abs_of_nonneg nonneg, abs_le] at error
    rw [capacityExact] at most
    linarith

/-- One charge: what is given and what is left are hardly more than what there was and what came
in, and the time up to the charge is not credited again. -/
theorem charge_spec (countable : Countable limiter) (range : InRange (capacityOf limiter) bucket.tokens)
    (request : Request) :
    let charged := charge limiter request.permits request.now (some bucket)
    InRange (capacityOf limiter) charged.state.tokens ∧
      charged.state.lastRefill = max bucket.lastRefill request.now ∧
      Charged.given ⟨request, charged⟩ + charged.state.tokens.toRat ≤ bucket.tokens.toRat +
        (1 + 1 / 2 ^ 51) *
          (limiter.refillRate.toRat * request.now.since bucket.lastRefill / 1000) +
        limiter.capacity.toNat / 2 ^ 52 := by
  have small := least_tiny
  have one : (1 : ℚ) ≤ limiter.capacity.toNat := Nat.one_le_cast.mpr countable.capacity_pos
  obtain ⟨available, grown⟩ := available_spec countable range request.now
  intro charged
  by_cases covered : Binary64.ofNat request.permits.toNat ≤ bucket.available limiter request.now
  · obtain ⟨rest, paid⟩ := spend countable available covered
    have given : charged = _ := charge_covered covered
    rw [given]
    refine ⟨rest, rfl, ?_⟩
    simp only [Charged.given, if_true]
    linarith
  · have denied : charged = _ := charge_not_covered covered
    rw [denied]
    refine ⟨available, rfl, ?_⟩
    simp only [Charged.given, Bool.false_eq_true, if_false, Nat.cast_zero, zero_add]
    linarith

end Step

section Run

variable {limiter : Limiter}

/-- Seconds that one charge credits end where those of the next begin. -/
private theorem cast_since (now earlier : Timestamp) :
    (now.since earlier : ℚ) = (max earlier now).toNat - earlier.toNat := by
  rw [Timestamp.toNat_max, ← Nat.cast_sub (Nat.le_max_left ..), Timestamp.since]
  congr 1
  omega

theorem admitted_run_le (countable : Countable limiter) (requests : List Request) {bucket : Bucket}
    (range : InRange (capacityOf limiter) bucket.tokens) :
    (admitted (run (charge limiter) (some bucket) requests) : ℚ) ≤ bucket.tokens.toRat +
      (1 + 1 / 2 ^ 51) * (limiter.refillRate.toRat *
        ((latest bucket.lastRefill requests).toNat - bucket.lastRefill.toNat) / 1000) +
      requests.length * (limiter.capacity.toNat / 2 ^ 52) := by
  induction requests generalizing bucket with
  | nil => simpa [run, latest] using range.nonneg
  | cons request rest ih =>
    obtain ⟨next, last, conserved⟩ := charge_spec countable range request
    have later := ih next
    rw [last] at later
    rw [cast_since] at conserved
    rw [run, admitted_cons, latest_cons, Nat.cast_add, List.length_cons, Nat.cast_succ]
    linarith

theorem lastRefill_run (requests : List Request) (bucket : Bucket) (i : Nat)
    (inside : i < (run (charge limiter) (some bucket) requests).length) :
    ((run (charge limiter) (some bucket) requests)[i]).charge.state.lastRefill =
      latest bucket.lastRefill (requests.take (i + 1)) := by
  induction requests generalizing bucket i with
  | nil => cases inside
  | cons request rest ih =>
    have stamped := lastRefill_charge limiter request.permits request.now bucket
    cases i with
    | zero => exact stamped
    | succ i =>
      have later := ih (charge limiter request.permits request.now (some bucket)).state i
        (Nat.lt_of_succ_lt_succ inside)
      rw [stamped] at later
      exact later

/-- A token bucket that starts full gives at most its capacity and what its rate lets in from the
first reading to the latest; a share of the capacity for each request pays for rounding. -/
theorem run_conserves_tokens {draft : Limiter.Draft} (built : draft.build = .ok limiter)
    (bucket : limiter.algorithm = .tokenBucket) (small : limiter.capacity.toNat < 2 ^ 53)
    (first : Request) (rest : List Request) :
    let log := run (charge limiter) none (first :: rest)
    (admitted log : ℚ) ≤ limiter.capacity.toNat +
        (1 + 1 / 2 ^ 51) * limiter.refillRate.toRat *
          ((latest first.now rest).toNat - first.now.toNat) / 1000 +
        (first :: rest).length * limiter.capacity.toNat / 2 ^ 52 ∧
      ∀ i (inside : i < log.length),
        log[i].charge.state.lastRefill = latest first.now (rest.take i) := by
  intro log
  have countable : Countable limiter := ⟨fills_of_build built bucket, small⟩
  obtain ⟨finite, exactly⟩ := countable.exactly
  -- A key that was never seen is charged as if it had a full bucket since the first reading.
  have fromFull : log = run (charge limiter) (some (full limiter first.now)) (first :: rest) := rfl
  have range : InRange (capacityOf limiter) (full limiter first.now).tokens :=
    inRange_self finite (by rw [exactly]; exact Nat.cast_nonneg _)
  rw [fromFull]
  constructor
  · have bound := admitted_run_le countable (first :: rest) range
    rw [latest_cons] at bound
    simp only [full, Timestamp.max_self] at bound
    rw [exactly] at bound
    calc _ ≤ _ := bound
      _ = _ := by ring
  · intro i inside
    rw [lastRefill_run, List.take_succ_cons, latest_cons]
    simp only [full, Timestamp.max_self]

/-- Three requests for a bucket of two tokens that refills twice a second. -/
theorem run_conserves_two_tokens :
    let limiter : Limiter :=
      { name := "api", algorithm := .tokenBucket, requests := 2, window := .ofSeconds 1,
        failStrategy := .failOpen, capacity := 2, refillRate := 2, throttle? := none }
    (admitted (run (charge limiter) none [⟨2, 100⟩, ⟨1, 50⟩, ⟨1, 700⟩]) : ℚ) ≤
      2 + (1 + 1 / 2 ^ 51) * limiter.refillRate.toRat * (700 - 100) / 1000 + 3 * 2 / 2 ^ 52 := by
  intro limiter
  have built : Limiter.tokenBucket "api" 2 (.ofSeconds 1) = .ok limiter := by decide +kernel
  exact (run_conserves_tokens built rfl (by decide) ⟨2, 100⟩ [⟨1, 50⟩, ⟨1, 700⟩]).1

end Run
end Admission.Bucket
