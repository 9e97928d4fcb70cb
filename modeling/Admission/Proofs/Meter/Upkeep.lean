import Admission.Proofs.Meter.Erasure
import Admission.Proofs.Meter.Instant
import Admission.Proofs.Meter.Reset

namespace Admission

open Binary64

namespace Bucket

variable {limiter : Limiter} {bucket : Bucket} {permits : UInt64} {now : Timestamp} {previous? : Option Bucket}

/-- A key that was never seen is charged like one with a full bucket. -/
private theorem charge_getD (limiter : Limiter) (permits : UInt64) (now : Timestamp)
    (previous? : Option Bucket) :
    charge limiter permits now previous? =
      charge limiter permits now (some (previous?.getD (full limiter now))) := rfl

/-- A request for no permits only brings the bucket up to the time, and keeps the tokens to the last bit. -/
private theorem state_of_free (fills : Fills limiter) (free : permits.toNat = 0) (bucket : Bucket)
    (now : Timestamp) :
    (charge limiter permits now (some bucket)).state =
      ⟨bucket.available limiter now, max bucket.lastRefill now⟩ := by
  have range := inRange_available fills bucket now
  have nothing : Binary64.ofNat permits.toNat = 0 := by
    rw [free]
    rfl
  have covered : Binary64.ofNat permits.toNat ≤ bucket.available limiter now := by
    rw [nothing]
    exact (range.bounds fills.capacity.1).2.1
  rw [charge_covered covered, nothing, Binary64.sub_zero range.finite]

theorem state_of_denied (fills : Fills limiter)
    (denied : (charge limiter permits now previous?).allowed = false) :
    (charge limiter permits now previous?).state = (charge limiter 0 now previous?).state := by
  rw [charge_getD] at denied
  rw [charge_getD, charge_getD limiter 0, state_of_free fills UInt64.toNat_zero]
  generalize previous?.getD (full limiter now) = bucket at denied ⊢
  by_cases covered : Binary64.ofNat permits.toNat ≤ bucket.available limiter now
  · rw [charge_covered covered] at denied
    cases denied
  · rw [charge_not_covered covered]

theorem inRange_charge (fills : Fills limiter) (permits : UInt64) (now : Timestamp)
    (previous? : Option Bucket) :
    InRange (capacityOf limiter) (charge limiter permits now previous?).state.tokens := by
  rw [charge_getD]
  generalize previous?.getD (full limiter now) = bucket
  have range := inRange_available fills bucket now
  by_cases covered : Binary64.ofNat permits.toNat ≤ bucket.available limiter now
  · rw [charge_covered covered]
    exact range.pay covered
  · rw [charge_not_covered covered]
    exact range

private theorem lastRefill_charge_getD (limiter : Limiter) (permits : UInt64) (now : Timestamp)
    (previous? : Option Bucket) : (charge limiter permits now previous?).state.lastRefill =
      previous?.elim now fun bucket => max bucket.lastRefill now := by
  rw [charge_getD, lastRefill_charge]
  cases previous? with
  | none => exact Timestamp.max_self now
  | some bucket => rfl

private theorem inRange_used (fills : Fills limiter) (bucket : Bucket) (now : Timestamp) :
    InRange (capacityOf limiter) (usage limiter now bucket).used :=
  (inRange_available fills bucket now).sub fills.capacity.1

/-- Whatever was in a bucket, a charge leaves it with tokens from none to the capacity and stamped with the
latest time, and the usage that it shows lies in the same range and is not reset in the past. -/
theorem charge_heals {draft : Limiter.Draft} (built : draft.build = .ok limiter)
    (algorithm : limiter.algorithm = .tokenBucket) (previous? : Option Bucket) (permits : UInt64)
    (now : Timestamp) :
    let charged := (charge limiter permits now previous?).state
    (charged.tokens.isNaN = false ∧ 0 ≤ charged.tokens ∧ charged.tokens ≤ .ofNat limiter.capacity.toNat) ∧
      charged.lastRefill = (previous?.elim now fun bucket => max bucket.lastRefill now) ∧
      ∀ bucket : Bucket,
        let usage := bucket.usage limiter now
        (usage.used.isNaN = false ∧ 0 ≤ usage.used ∧ usage.used ≤ .ofNat limiter.capacity.toNat) ∧
          now ≤ usage.resetAt := by
  intro charged
  have fills := fills_of_build built algorithm
  have finite := fills.capacity.1
  refine ⟨(inRange_charge fills permits now previous?).bounds finite,
    lastRefill_charge_getD limiter permits now previous?, fun bucket => ?_⟩
  exact ⟨(inRange_used fills bucket now).bounds finite, le_resetAt limiter now bucket⟩

/-- A bucket that holds no number and was last refilled in the future. -/
theorem charge_heals_nan :
    let limiter : Limiter :=
      { name := "api", algorithm := .tokenBucket, requests := 2, window := .ofSeconds 1,
        failStrategy := .failOpen, capacity := 2, refillRate := 2, throttle? := none }
    let charged := (charge limiter 1 1000 (some ⟨.nan, 5000⟩)).state
    charged.lastRefill = 5000 ∧ charged.tokens.isNaN = false ∧ 0 ≤ charged.tokens ∧ charged.tokens ≤ .ofNat 2 := by
  intro limiter charged
  have built : Limiter.tokenBucket "api" 2 (.ofSeconds 1) = .ok limiter := by decide +kernel
  obtain ⟨range, stamp, -⟩ := charge_heals built rfl (some ⟨.nan, 5000⟩) 1 1000
  have latest : max (5000 : Timestamp) 1000 = 5000 := by decide
  exact ⟨stamp.trans latest, range⟩

end Bucket

namespace Window

theorem state_of_denied {limiter : Limiter} {permits : UInt64} {now : Timestamp} {previous? : Option Window}
    (denied : (charge limiter permits now previous?).allowed = false) :
    (charge limiter permits now previous?).state = (charge limiter 0 now previous?).state :=
  (state_of_idle (.inl denied)).trans (state_of_idle (.inr rfl)).symm

end Window

namespace Meter

variable {limiter : Limiter} {permits : UInt64} {now : Timestamp} {previous? : Option Meter}

/-- A denied request leaves a meter as a request for no permits does, whatever was in it; its tokens are a
number, so that the two are equal as numbers too. -/
theorem denial_charges_nothing {draft : Limiter.Draft} (built : draft.build = .ok limiter) (permits : UInt64)
    (now : Timestamp) (previous? : Option Meter)
    (denied : (charge limiter permits now previous?).allowed = false) :
    (charge limiter permits now previous?).state = (charge limiter 0 now previous?).state ∧
      ∀ bucket ∈ (charge limiter permits now previous?).state.bucket?, bucket.tokens.isNaN = false := by
  cases algorithm : limiter.algorithm with
  | tokenBucket =>
    have fills := Bucket.fills_of_build built algorithm
    simp only [charge_tokenBucket algorithm, Charge.allowed_map] at denied ⊢
    refine ⟨congrArg bucket (Bucket.state_of_denied fills denied), ?_⟩
    rintro _ ⟨⟩
    exact isNaN_of_isFinite (Bucket.inRange_charge fills permits now _).finite
  | slidingWindow =>
    simp only [charge_slidingWindow algorithm, Charge.allowed_map] at denied ⊢
    exact ⟨congrArg window (Window.state_of_denied denied), nofun⟩

/-- A bucket that holds no number and has not refilled for a tenth of a second. -/
theorem denial_charges_nothing_nan :
    let limiter : Limiter :=
      { name := "api", algorithm := .tokenBucket, requests := 2, window := .ofSeconds 1,
        failStrategy := .failOpen, capacity := 2, refillRate := 2, throttle? := none }
    let broken : Option Meter := some (.bucket ⟨.nan, 900⟩)
    (charge limiter 1 1000 broken).allowed = false ∧
      (charge limiter 1 1000 broken).state = (charge limiter 0 1000 broken).state := by
  intro limiter broken
  have built : Limiter.tokenBucket "api" 2 (.ofSeconds 1) = .ok limiter := by decide +kernel
  have denied : (charge limiter 1 1000 broken).allowed = false := by decide +kernel
  exact ⟨denied, (denial_charges_nothing built 1 1000 broken denied).1⟩

end Meter
end Admission
