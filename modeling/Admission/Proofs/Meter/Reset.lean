import Admission.Proofs.Meter.Remaining

/-! What waiting for the reset that a meter shows brings. Main statement: at the reset of a sliding window
a permit is granted exactly if the window that ends then has not reached the limit, and at the reset of a token
bucket, up to rounding, if a token is due by then: the capacity, less what comes in while the clock catches up
with the last refill. -/
namespace Admission

open Binary64

namespace Window

variable {limiter : Limiter} {now : Timestamp}

private theorem whole_weight_zero {length : Nat} (positive : 0 < length) (word : length ≤ UInt64.size) :
    Whole (weight length 0) 1 := by
  have lengthFinite := isFinite_ofNat word
  have nonzero : (Binary64.ofNat length).toRat ≠ 0 :=
    (zero_lt_one.trans_le (one_le_toRat_ofNat positive word)).ne'
  have rest := rounds_sub lengthFinite whole_zero.finite
  rw [whole_zero.toRat_eq, Nat.cast_zero, sub_zero] at rest
  obtain ⟨restFinite, same⟩ := rest.toRat_eq lengthFinite
  have share := rounds_div restFinite lengthFinite nonzero
  rw [same, div_self nonzero, ← Nat.cast_one] at share
  exact (share.whole (by decide)).max_zero

private theorem toRat_weighted_start (limiter : Limiter) (start : Timestamp) (previous : UInt64) :
    ((⟨start, 0, previous⟩ : Window).weighted (lengthOf limiter) start).toRat =
      (Binary64.ofNat previous.toNat).toRat := by
  have finite := isFinite_ofNat previous.toNat_lt.le
  have weight := whole_weight_zero (lengthOf_pos limiter) (lengthOf_le_size limiter)
  have product := rounds_mul finite weight.finite
  rw [weight.toRat_eq, Nat.cast_one, mul_one] at product
  obtain ⟨productFinite, same⟩ := product.toRat_eq finite
  rw [weighted_eq, Timestamp.since, Nat.sub_self]
  exact (toRat_add_of_zero productFinite isFinite_zero toRat_zero).2.trans same

/-- At its end a window becomes the one before a new one. -/
theorem rotate_at_end {length : Nat} (positive : 0 < length) (window : Window) (now : Timestamp)
    (early : (window.rotate length now).start.plus length < Timestamp.last) :
    window.rotate length ((window.rotate length now).start.plus length) =
      ⟨(window.rotate length now).start.plus length, 0, (window.rotate length now).current⟩ := by
  have settled := since_rotate_start_lt positive window now
  have stop := Timestamp.toNat_plus_of_lt early
  have later : now ≤ (window.rotate length now).start.plus length := by
    rw [UInt64.le_iff_toNat_le, stop]
    rw [Timestamp.since] at settled
    omega
  rw [← rotate_rotate later]
  have passed : ((window.rotate length now).start.plus length).since (window.rotate length now).start / length =
      1 := by
    rw [Timestamp.since, stop, Nat.add_sub_cancel_left, Nat.div_self positive]
  rw [rotate, passed, if_neg Nat.one_ne_zero, if_pos rfl, Nat.one_mul]

/-- When the window is reset a single permit is granted exactly if it has not reached the limit: all of its
count still weighs. -/
theorem allowed_at_reset (limiter : Limiter) (window : Window) (now : Timestamp)
    (early : (usage limiter now window).resetAt < Timestamp.last) :
    (charge limiter 1 (usage limiter now window).resetAt (some window)).allowed = true ↔
      Binary64.ofNat (window.rotate (lengthOf limiter) now).current.toNat <
        .ofNat limiter.requests.toNat := by
  have started : moved limiter (usage limiter now window).resetAt (some window) =
      ⟨(usage limiter now window).resetAt, 0, (window.rotate (lengthOf limiter) now).current⟩ :=
    rotate_at_end (lengthOf_pos limiter) window now early
  rw [allowed_single_iff limiter UInt64.toNat_one, started, toRat_weighted_start,
    lt_iff_toRat (isFinite_ofNat (UInt64.toNat_lt _).le) (isFinite_ofNat (UInt64.toNat_lt _).le)]

end Window

namespace Bucket

section Missing

variable {limiter : Limiter} {bucket : Bucket} {now : Timestamp}

/-- The milliseconds until the bucket is full, by the rate. -/
def missing (limiter : Limiter) (now : Timestamp) (bucket : Bucket) : Binary64 :=
  (capacityOf limiter - bucket.available limiter now) / limiter.refillRate * 1000

private theorem resetAt_eq (limiter : Limiter) (now : Timestamp) (bucket : Bucket) :
    (usage limiter now bucket).resetAt =
      if (missing limiter now bucket).ceil.isFinite ∧ (missing limiter now bucket).ceil < .ofNat UInt64.size then
        now.plus (max (missing limiter now bucket).ceil 0).toUInt64.toNat
      else Timestamp.last := rfl

private theorem scaled_error {scale x y bound : ℚ} (positive : 0 < scale) (near : |x - y| ≤ bound) :
    |scale * x - scale * y| ≤ scale * bound := by
  rw [← mul_sub, abs_mul, abs_of_pos positive]
  exact mul_le_mul_of_nonneg_left near positive.le

private theorem millis_spec {tokens rate : Binary64} (tokensFinite : tokens.isFinite) (low : 0 ≤ tokens.toRat)
    (rateFinite : rate.isFinite) (positive : 0 < rate.toRat) (finite : (tokens / rate * 1000).isFinite) :
    0 ≤ (tokens / rate * 1000).toRat ∧ |rate.toRat * ((tokens / rate * 1000).toRat / 1000) - tokens.toRat| ≤
      (1 / 2 ^ 52 + 1 / 2 ^ 54) * tokens.toRat + 3 / 2 ^ 52 := by
  obtain ⟨thousandFinite, thousand⟩ := toRat_thousand
  have small := toRat_mul_least_le rateFinite
  have seconds := rounds_div tokensFinite rateFinite positive.ne'
  have secondsLow := div_nonneg low positive.le
  have secondsFinite : (tokens / rate).isFinite := by
    rcases seconds.isFinite_or secondsLow with secondsFinite | endless
    · exact secondsFinite
    · have longer : infinite false * (1000 : Binary64) = infinite false := by decide +kernel
      rw [endless, longer] at finite
      cases finite
  have millis := rounds_mul secondsFinite thousandFinite
  rw [thousand] at millis
  have millisLow := mul_nonneg (seconds.nonneg secondsFinite secondsLow) (by norm_num : (0 : ℚ) ≤ 1000)
  refine ⟨millis.nonneg finite millisLow, ?_⟩
  have first := scaled_error positive (seconds.error_le secondsFinite)
  have second := scaled_error positive (millis.error_le finite)
  rw [abs_of_nonneg secondsLow, mul_add, ← mul_div_assoc _ _ ((2 : ℚ) ^ 53),
    mul_div_cancel₀ _ positive.ne'] at first
  rw [abs_of_nonneg millisLow] at second
  rw [abs_le] at first second ⊢
  constructor <;> linarith [first.1, first.2, second.1, second.2]

private theorem missing_spec (fills : Fills limiter) (positive : 0 < limiter.refillRate.toRat) (bucket : Bucket)
    (now : Timestamp) (finite : (missing limiter now bucket).isFinite) :
    0 ≤ (missing limiter now bucket).toRat ∧
      |limiter.refillRate.toRat * ((missing limiter now bucket).toRat / 1000) -
          ((capacityOf limiter).toRat - (bucket.available limiter now).toRat)| ≤
        ((capacityOf limiter).toRat - (bucket.available limiter now).toRat) / 2 ^ 51 + 1 / 2 ^ 50 := by
  have capacityFinite := fills.capacity.1
  have range := inRange_available fills bucket now
  have tiny := least_tiny
  have tokens := range.sub capacityFinite
  obtain ⟨low, near⟩ := millis_spec tokens.finite tokens.nonneg fills.rate_finite positive finite
  refine ⟨low, ?_⟩
  have error := (rounds_sub capacityFinite range.finite).error_le tokens.finite
  rw [abs_of_nonneg (sub_nonneg.mpr range.le)] at error
  rw [missing]
  rw [abs_le] at error near ⊢
  constructor <;> linarith [error.1, error.2, near.1, near.2]

/-- A reset that is not cut lies as many milliseconds ahead as the tokens that are missing take, up to
rounding and to the next whole millisecond. -/
theorem resetAt_spec (fills : Fills limiter) (positive : 0 < limiter.refillRate.toRat) (bucket : Bucket)
    (now : Timestamp) (early : (usage limiter now bucket).resetAt < Timestamp.last) :
    (1 - 1 / 2 ^ 51) * ((capacityOf limiter).toRat - (bucket.available limiter now).toRat) - 1 / 2 ^ 50 ≤
        limiter.refillRate.toRat * (usage limiter now bucket).resetAt.since now / 1000 ∧
      limiter.refillRate.toRat * (usage limiter now bucket).resetAt.since now / 1000 ≤ (1 + 1 / 2 ^ 51) *
        ((capacityOf limiter).toRat - (bucket.available limiter now).toRat) + 1 / 2 ^ 50 +
          limiter.refillRate.toRat / 1000 := by
  rw [resetAt_eq] at early ⊢
  split_ifs at early ⊢ with number
  · obtain ⟨ceilFinite, fits⟩ := number
    have finite : (missing limiter now bucket).isFinite := by
      cases value : missing limiter now bucket <;> simp_all [ceil, isFinite]
    obtain ⟨low, near⟩ := missing_spec fills positive bucket now finite
    have whole := whole_ceil finite low
    have wait := whole.max_zero.toNat_toUInt64 (whole.lt_of_lt_ofNat fits)
    have more := mul_le_mul_of_nonneg_left (Nat.le_ceil (missing limiter now bucket).toRat) positive.le
    have less := mul_le_mul_of_nonneg_left (Nat.ceil_lt_add_one low).le positive.le
    rw [Timestamp.since, Timestamp.toNat_plus_of_lt early, Nat.add_sub_cancel_left, wait]
    rw [abs_le] at near
    constructor <;> linarith [near.1, near.2]
  · exact absurd early (UInt64.lt_irrefl _)

theorem le_resetAt (limiter : Limiter) (now : Timestamp) (bucket : Bucket) :
    now ≤ (usage limiter now bucket).resetAt := by
  rw [resetAt_eq]
  split_ifs
  · exact Timestamp.le_plus ..
  · exact Nat.le_of_lt_succ now.toNat_lt

end Missing

section Wait

variable {limiter : Limiter} {bucket : Bucket} {now later : Timestamp}

/-- The tokens that come in while the clock catches up with the last refill of a bucket. -/
def overdue (limiter : Limiter) (now : Timestamp) (bucket : Bucket) : ℚ :=
  limiter.refillRate.toRat * bucket.lastRefill.since now / 1000

/-- The tokens that should be in a bucket at a later reading: what is there and what comes in, but for what
comes in while the clock catches up. -/
def due (limiter : Limiter) (now later : Timestamp) (bucket : Bucket) : ℚ :=
  (bucket.available limiter now).toRat + limiter.refillRate.toRat * later.since now / 1000 -
    overdue limiter now bucket

/-- The milliseconds by which a reading is behind the last refill are not credited again. -/
private theorem since_add_le (le : now ≤ later) (stamp : Timestamp) :
    (now.since stamp : ℚ) + later.since now ≤ later.since stamp + stamp.since now := by
  rw [UInt64.le_iff_toNat_le] at le
  have spans : now.since stamp + later.since now ≤ later.since stamp + stamp.since now := by
    simp only [Timestamp.since]
    omega
  exact_mod_cast spans

private theorem since_add_of_caught {stamp : Timestamp} (le : now ≤ later) (caught : 0 < later.since stamp) :
    (later.since stamp : ℚ) + stamp.since now = now.since stamp + later.since now := by
  rw [UInt64.le_iff_toNat_le] at le
  have spans : later.since stamp + stamp.since now = now.since stamp + later.since now := by
    simp only [Timestamp.since] at *
    omega
  exact_mod_cast spans

private theorem toRat_available_mono (fills : Fills limiter) (bucket : Bucket) (le : now ≤ later) :
    (bucket.available limiter now).toRat ≤ (bucket.available limiter later).toRat := by
  obtain ⟨finite, positive⟩ := fills.capacity
  refine toRat_refilled_mono finite positive.le fills.rate_finite fills.rate_nonneg
    (Timestamp.since_le_size ..) ?_ bucket.tokens
  exact Nat.sub_le_sub_right (UInt64.le_iff_toNat_le.mp le) _

/-- What is there is between what the rate lets in and hardly less, unless the bucket is full. -/
private theorem available_bounds (fills : Fills limiter) (bucket : Bucket) (now : Timestamp) :
    (bucket.available limiter now).toRat ≤ (balance (capacityOf limiter) bucket.tokens).toRat +
        (1 + 1 / 2 ^ 51) * (limiter.refillRate.toRat * now.since bucket.lastRefill / 1000) +
          (capacityOf limiter).toRat / 2 ^ 53 + least ∧
      ((bucket.available limiter now).toRat < (capacityOf limiter).toRat →
        (1 - 1 / 2 ^ 50) * ((balance (capacityOf limiter) bucket.tokens).toRat +
          limiter.refillRate.toRat * now.since bucket.lastRefill / 1000) - least ≤
            (bucket.available limiter now).toRat) := by
  obtain ⟨finite, positive⟩ := fills.capacity
  have word := Timestamp.since_le_size now bucket.lastRefill
  exact ⟨(refilled_spec finite positive.le fills.rate_finite fills.rate_nonneg word bucket.tokens).2,
    le_refilled finite positive.le fills.rate_finite fills.rate_nonneg word bucket.tokens⟩

private theorem capacityOf_spec (fills : Fills limiter) :
    (1 : ℚ) ≤ limiter.capacity.toNat ∧ 1 ≤ (capacityOf limiter).toRat ∧
      (1 - 1 / 2 ^ 53) * limiter.capacity.toNat ≤ (capacityOf limiter).toRat ∧
      (capacityOf limiter).toRat ≤ (1 + 1 / 2 ^ 53) * limiter.capacity.toNat := by
  have word := limiter.capacity.toNat_lt.le
  obtain ⟨low, high⟩ := abs_le.mp (ofNat_error word)
  refine ⟨Nat.one_le_cast.mpr fills.capacity_pos, one_le_toRat_ofNat fills.capacity_pos word, ?_, ?_⟩ <;>
    rw [capacityOf] <;> linarith

theorem one_le_available_of_due (fills : Fills limiter) (le : now ≤ later)
    (short : (bucket.available limiter now).toRat < 1)
    (enough : 1 + (limiter.capacity.toNat : ℚ) / 2 ^ 49 ≤ due limiter now later bucket) :
    1 ≤ (bucket.available limiter later).toRat := by
  obtain ⟨one, whole, -, capacityHigh⟩ := capacityOf_spec fills
  have start := (inRange_balance fills.capacity.1 fills.capacity.2.le bucket.tokens).nonneg
  have tiny := least_tiny
  by_contra less
  obtain ⟨most, before⟩ := available_bounds fills bucket now
  have before := before (by linarith)
  have after := (available_bounds fills bucket later).2 (by linarith)
  have span := mul_le_mul_of_nonneg_left (since_add_le le bucket.lastRefill) fills.rate_nonneg
  rw [due, overdue] at enough
  linarith

theorem available_lt_one_of_due (fills : Fills limiter) (le : now ≤ later)
    (short : (bucket.available limiter now).toRat < 1)
    (little : due limiter now later bucket + (limiter.capacity.toNat : ℚ) / 2 ^ 49 < 1) :
    (bucket.available limiter later).toRat < 1 := by
  rcases Nat.eq_zero_or_pos (later.since bucket.lastRefill) with still | caught
  · -- The clock has not caught up, so that nothing has come in.
    have seen : now.since bucket.lastRefill = 0 := by
      rw [UInt64.le_iff_toNat_le] at le
      simp only [Timestamp.since] at *
      omega
    rw [available, still, ← seen]
    exact short
  · obtain ⟨one, whole, -, capacityHigh⟩ := capacityOf_spec fills
    have start := (inRange_balance fills.capacity.1 fills.capacity.2.le bucket.tokens).nonneg
    have tiny := least_tiny
    have before := (available_bounds fills bucket now).2 (by linarith)
    have after := (available_bounds fills bucket later).1
    have span := congrArg (limiter.refillRate.toRat * ·) (since_add_of_caught le caught)
    rw [due, overdue] at little
    simp only [mul_add] at span
    linarith

/-- Up to rounding and a millisecond, the capacity is due at the reset of a bucket whose clock is not behind. -/
theorem due_resetAt (fills : Fills limiter) (positive : 0 < limiter.refillRate.toRat) (bucket : Bucket)
    (now : Timestamp) (early : (usage limiter now bucket).resetAt < Timestamp.last) :
    (1 - 1 / 2 ^ 49) * limiter.capacity.toNat ≤
        due limiter now (usage limiter now bucket).resetAt bucket + overdue limiter now bucket ∧
      due limiter now (usage limiter now bucket).resetAt bucket + overdue limiter now bucket ≤
        (1 + 1 / 2 ^ 49) * limiter.capacity.toNat + limiter.refillRate.toRat / 1000 := by
  obtain ⟨least, most⟩ := resetAt_spec fills positive bucket now early
  obtain ⟨one, -, capacityLow, capacityHigh⟩ := capacityOf_spec fills
  have low := (inRange_available fills bucket now).nonneg
  rw [due, sub_add_cancel]
  constructor <;> linarith

/-- When a bucket is reset a single permit is granted if there was a token before or one is due then; it is
denied if less than a token was there and is due. -/
theorem allowed_at_reset (fills : Fills limiter) (bucket : Bucket) (now : Timestamp) :
    ((1 ≤ (bucket.available limiter now).toRat ∨ 1 + (limiter.capacity.toNat : ℚ) / 2 ^ 49 ≤
          due limiter now (usage limiter now bucket).resetAt bucket) →
      (charge limiter 1 (usage limiter now bucket).resetAt (some bucket)).allowed = true) ∧
    ((bucket.available limiter now).toRat < 1 →
      due limiter now (usage limiter now bucket).resetAt bucket + (limiter.capacity.toNat : ℚ) / 2 ^ 49 < 1 →
      (charge limiter 1 (usage limiter now bucket).resetAt (some bucket)).allowed = false) := by
  have later := le_resetAt limiter now bucket
  rw [Bool.eq_false_iff, ne_eq, allowed_single_iff fills UInt64.toNat_one, not_le]
  refine ⟨?_, available_lt_one_of_due fills later⟩
  rintro (there | enough)
  · exact there.trans (toRat_available_mono fills bucket later)
  · rcases le_or_gt 1 (bucket.available limiter now).toRat with there | short
    · exact there.trans (toRat_available_mono fills bucket later)
    · exact one_le_available_of_due fills later short enough

end Wait

end Bucket

namespace Meter

variable {limiter : Limiter}

/-- What happens to a single permit when the reset that a meter shows has come. A sliding window grants it
exactly if the window that ends then has not reached the limit. A token bucket grants it if there was a token
before or one is due by then, and denies it otherwise, up to rounding. What is due is the capacity, up to
rounding and a millisecond, less what comes in while the clock catches up with the last refill. -/
theorem grants_at_reset {draft : Limiter.Draft} (built : draft.build = .ok limiter) (meter : Meter)
    (same : meter.algorithm = limiter.algorithm) (now : Timestamp) :
    ∃ usage, meter.usage? limiter now = some usage ∧ (usage.resetAt < Timestamp.last →
      (∀ state, meter = window state →
        ((charge limiter 1 usage.resetAt (some meter)).allowed = true ↔
          Binary64.ofNat (state.rotate (Window.lengthOf limiter) now).current.toNat <
            .ofNat limiter.requests.toNat)) ∧
      ∀ state, meter = bucket state →
        ((1 ≤ (state.available limiter now).toRat ∨
            1 + (limiter.capacity.toNat : ℚ) / 2 ^ 49 ≤ Bucket.due limiter now usage.resetAt state) →
          (charge limiter 1 usage.resetAt (some meter)).allowed = true) ∧
        ((state.available limiter now).toRat < 1 →
          Bucket.due limiter now usage.resetAt state + (limiter.capacity.toNat : ℚ) / 2 ^ 49 < 1 →
          (charge limiter 1 usage.resetAt (some meter)).allowed = false) ∧
        (1 - 1 / 2 ^ 49) * limiter.capacity.toNat ≤
          Bucket.due limiter now usage.resetAt state + Bucket.overdue limiter now state ∧
        Bucket.due limiter now usage.resetAt state + Bucket.overdue limiter now state ≤
          (1 + 1 / 2 ^ 49) * limiter.capacity.toNat + limiter.refillRate.toRat / 1000) := by
  cases meter with
  | bucket state =>
    have algorithm : limiter.algorithm = .tokenBucket := same.symm
    have fills := Bucket.fills_of_build built algorithm
    obtain ⟨-, finite, refills⟩ := Limiter.Draft.build_tokenBucket built algorithm
    rw [lt_iff_toRat isFinite_zero finite, toRat_zero] at refills
    refine ⟨_, usage?_bucket algorithm now state, fun early => ⟨nofun, ?_⟩⟩
    rintro _ ⟨⟩
    obtain ⟨granted, denied⟩ := Bucket.allowed_at_reset fills state now
    rw [charge_bucket algorithm, Charge.allowed_map]
    exact ⟨granted, denied, Bucket.due_resetAt fills refills state now early⟩
  | window state =>
    have algorithm : limiter.algorithm = .slidingWindow := same.symm
    refine ⟨_, usage?_window algorithm now state, fun early => ⟨?_, nofun⟩⟩
    rintro _ ⟨⟩
    rw [charge_window algorithm, Charge.allowed_map]
    exact Window.allowed_at_reset limiter state now early

/-- An empty bucket of two tokens that refills twice a second. -/
theorem grants_at_reset_of_two :
    let limiter : Limiter :=
      { name := "api", algorithm := .tokenBucket, requests := 2, window := .ofSeconds 1,
        failStrategy := .failOpen, capacity := 2, refillRate := 2, throttle? := none }
    (bucket ⟨0, 0⟩).algorithm = limiter.algorithm ∧
      ∃ usage, (bucket ⟨0, 0⟩).usage? limiter 0 = some usage ∧ usage.resetAt = 1000 ∧
        (charge limiter 1 usage.resetAt (some (bucket ⟨0, 0⟩))).allowed = true := by
  intro limiter
  have built : Limiter.tokenBucket "api" 2 (.ofSeconds 1) = .ok limiter := by decide +kernel
  obtain ⟨usage, shown, granted⟩ := grants_at_reset built (bucket ⟨0, 0⟩) rfl 0
  have second : ((bucket ⟨0, 0⟩).usage? limiter 0).map (·.resetAt) = some 1000 := by decide +kernel
  rw [shown] at second
  have resetAt : usage.resetAt = 1000 := Option.some.inj second
  have early : usage.resetAt < Timestamp.last := by
    rw [resetAt]
    decide
  obtain ⟨enough, -, due, -⟩ := (granted early).2 _ rfl
  have behind : Bucket.overdue limiter 0 ⟨0, 0⟩ = 0 := by
    simp [Bucket.overdue, Timestamp.since]
  have capacity : limiter.capacity.toNat = 2 := rfl
  rw [behind, capacity] at due
  refine ⟨rfl, usage, shown, resetAt, enough (.inr ?_)⟩
  rw [capacity]
  linarith

/-- The reset is not always enough: the window that ends then still weighs all of its count, the reset of a
bucket counts from a reading before its last refill, and rounding leaves a bucket of one token short. -/
theorem denied_at_reset :
    let window : Limiter :=
      { name := "api", algorithm := .slidingWindow, requests := 1, window := .ofSeconds 1,
        failStrategy := .failOpen, capacity := 1, refillRate := 1, throttle? := none }
    let pair : Limiter :=
      { name := "api", algorithm := .tokenBucket, requests := 2, window := .ofSeconds 1,
        failStrategy := .failOpen, capacity := 2, refillRate := 2, throttle? := none }
    let slow : Limiter :=
      { name := "api", algorithm := .tokenBucket, requests := 1, window := .ofSeconds 161,
        failStrategy := .failOpen, capacity := 1, refillRate := 1 / 161, throttle? := none }
    (Limiter.slidingWindow "api" 1 (.ofSeconds 1) = .ok window ∧
      (run (charge window) none [⟨1, 0⟩]).map (·.charge.state) = [.window ⟨0, 1, 0⟩] ∧
      ((Meter.window ⟨0, 1, 0⟩).usage? window 0).map (·.resetAt) = some 1000 ∧
      (charge window 1 1000 (some (.window ⟨0, 1, 0⟩))).allowed = false) ∧
    (Limiter.tokenBucket "api" 2 (.ofSeconds 1) = .ok pair ∧
      (run (charge pair) none [⟨2, 2000⟩]).map (·.charge.state) = [.bucket ⟨0, 2000⟩] ∧
      ((Meter.bucket ⟨0, 2000⟩).usage? pair 0).map (·.resetAt) = some 1000 ∧
      (charge pair 1 1000 (some (.bucket ⟨0, 2000⟩))).allowed = false) ∧
    Limiter.tokenBucket "api" 1 (.ofSeconds 161) = .ok slow ∧
      (run (charge slow) none [⟨1, 0⟩]).map (·.charge.state) = [.bucket ⟨0, 0⟩] ∧
      ((Meter.bucket ⟨0, 0⟩).usage? slow 0).map (·.resetAt) = some 161000 ∧
      (charge slow 1 161000 (some (.bucket ⟨0, 0⟩))).allowed = false := by
  decide +kernel

end Meter
end Admission
