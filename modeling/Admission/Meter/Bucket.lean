import Admission.Meter.Charge

/-! Token buckets: tokens come in at a steady rate up to the capacity, and a request takes
as many as it has permits or none. -/
namespace Admission

structure Bucket where
  tokens : Binary64
  lastRefill : Timestamp
  deriving DecidableEq

namespace Bucket

/-- The tokens after some milliseconds. A balance out of range is brought into it first. -/
def refilled (capacity rate tokens : Binary64) (millis : Nat) : Binary64 :=
  let balance := if tokens.isNaN then 0 else tokens.clamp 0 capacity
  min (balance + .ofNat millis / 1000 * rate) capacity

/-- The bucket of a key that was never seen is full. -/
def full (limiter : Limiter) (now : Timestamp) : Bucket :=
  ⟨.ofNat limiter.capacity.toNat, now⟩

/-- The tokens there are at a time. -/
def available (limiter : Limiter) (bucket : Bucket) (now : Timestamp) : Binary64 :=
  refilled (.ofNat limiter.capacity.toNat) limiter.refillRate bucket.tokens
    (now.since bucket.lastRefill)

/-- Refills, then takes the permits if there are enough tokens. Refills are stamped with
the latest time seen, so that a clock that goes back credits no time twice. -/
def charge (limiter : Limiter) (permits : UInt64) (now : Timestamp) (previous? : Option Bucket) :
    Charge Bucket :=
  let bucket := previous?.getD (full limiter now)
  let available := bucket.available limiter now
  let lastRefill := max bucket.lastRefill now
  let cost := Binary64.ofNat permits.toNat
  if cost ≤ available then ⟨⟨available - cost, lastRefill⟩, true⟩
  else ⟨⟨available, lastRefill⟩, false⟩

/-- The usage at a time; a reset that lies beyond all readings is at the last one. -/
def usage (limiter : Limiter) (now : Timestamp) (bucket : Bucket) : Usage :=
  let capacity := Binary64.ofNat limiter.capacity.toNat
  let available := bucket.available limiter now
  let missingMillis := ((capacity - available) / limiter.refillRate * 1000).ceil
  { used := capacity - available
    limit := limiter.capacity
    remaining := available.floor.toUInt64
    resetAt :=
      if missingMillis.isFinite ∧ missingMillis < .ofNat UInt64.size then
        now.plus (max missingMillis 0).toUInt64.toNat
      else Timestamp.last }

end Bucket
end Admission
