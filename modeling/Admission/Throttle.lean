import Admission.Time.Duration

/-! The throttle: requests that come close to the limit are admitted after a delay that
grows from nothing at the soft limit to the greatest delay at the limit. -/
namespace Admission

/-- How the delay grows between the soft limit and the limit. -/
inductive ThrottleCurve
  | linear
  | exponential
  deriving DecidableEq, Repr

inductive ThrottleError
  | softLimitOutOfRange (percent : Nat)
  | zeroMaxDelay
  deriving DecidableEq, Repr

/-- A throttle whose band is not empty and whose delay is not zero. -/
structure Throttle where
  softPercent : Nat
  maxDelay : Duration
  curve : ThrottleCurve
  softPercent_pos : 0 < softPercent
  softPercent_lt : softPercent < 100
  maxDelay_pos : 0 < maxDelay
  deriving DecidableEq

namespace ThrottleCurve

def text : ThrottleCurve → String
  | linear => "linear"
  | exponential => "exponential"

/-- The share of the greatest delay at a depth of the band between zero and one. -/
def share : ThrottleCurve → Binary64 → Binary64
  | linear, depth => depth
  | exponential, depth => depth * depth

end ThrottleCurve

def ThrottleError.message : ThrottleError → String
  | softLimitOutOfRange percent => s!"soft limit percent must be in 1..=99 (got {percent})"
  | zeroMaxDelay => "max delay must be greater than zero"

def ThrottleError.kind : ThrottleError → String
  | softLimitOutOfRange _ => "SoftLimitOutOfRange"
  | zeroMaxDelay => "ZeroMaxDelay"

/-- How deep a usage of a limit is in the band, from zero at the soft limit to one at the
limit. There is no depth below the soft limit, nor where no band lies between the two. -/
def bandDepth? (usage limit : UInt64) (softPercent : Nat) : Option Binary64 :=
  if limit = 0 ∨ 100 ≤ softPercent then none
  else
    let limit := Binary64.ofNat limit.toNat
    let usage := Binary64.ofNat usage.toNat
    let soft := limit * .ofNat softPercent / 100
    if usage < soft then none else some (((usage - soft) / (limit - soft)).clamp 0 1)

/-- The share of the greatest delay at a depth of the band; a product out of range of
durations counts as the greatest delay. -/
def delayAt (curve : ThrottleCurve) (maxDelay : Duration) (depth : Binary64) : Duration :=
  match Duration.ofBinary64? (maxDelay.toBinary64 * curve.share depth) with
  | some delay => min delay maxDelay
  | none => maxDelay

/-- The delay for a usage of a limit, which is none outside the band. -/
def throttleDelay (usage limit : UInt64) (softPercent : Nat) (maxDelay : Duration)
    (curve : ThrottleCurve) : Duration :=
  match bandDepth? usage limit softPercent with
  | some depth => delayAt curve maxDelay depth
  | none => 0

theorem delayAt_le (curve : ThrottleCurve) (maxDelay : Duration) (depth : Binary64) :
    delayAt curve maxDelay depth ≤ maxDelay := by
  unfold delayAt
  split
  · exact Duration.min_le_right ..
  · exact Nat.le_refl _

theorem throttleDelay_le (usage limit : UInt64) (softPercent : Nat) (maxDelay : Duration)
    (curve : ThrottleCurve) : throttleDelay usage limit softPercent maxDelay curve ≤ maxDelay := by
  cases depth : bandDepth? usage limit softPercent with
  | none => simp only [throttleDelay, depth, Duration.zero_le]
  | some depth => simp only [throttleDelay, depth, delayAt_le]

namespace Throttle

/-- The soft limit is looked at before the delay. -/
def ofSettings (softPercent : Nat) (maxDelay : Duration) (curve : ThrottleCurve) :
    Except ThrottleError Throttle :=
  if percent : 0 < softPercent ∧ softPercent < 100 then
    if delay : 0 < maxDelay then .ok ⟨softPercent, maxDelay, curve, percent.1, percent.2, delay⟩
    else .error .zeroMaxDelay
  else .error (.softLimitOutOfRange softPercent)

def delayFor (throttle : Throttle) (usage limit : UInt64) : Duration :=
  throttleDelay usage limit throttle.softPercent throttle.maxDelay throttle.curve

theorem ofSettings_isOk_iff (softPercent : Nat) (maxDelay : Duration) (curve : ThrottleCurve) :
    (∃ throttle, ofSettings softPercent maxDelay curve = .ok throttle) ↔
      (0 < softPercent ∧ softPercent < 100) ∧ 0 < maxDelay := by
  unfold ofSettings
  by_cases percent : 0 < softPercent ∧ softPercent < 100 <;>
    by_cases delay : 0 < maxDelay <;> simp [percent, delay]

end Throttle

end Admission
