import Admission.Binary64.Basic
import Admission.Breaker.Word

namespace Admission

inductive StoreOperation
  | currentTime
  | acquire
  | reset
  | state
  deriving DecidableEq, Repr

def StoreOperation.text : StoreOperation → String
  | currentTime => "current_time"
  | acquire => "try_acquire"
  | reset => "reset"
  | state => "get_state"

inductive MetricEvent
  | allow (limiter : String)
  | deny (limiter : String)
  /-- No store answered and a fail strategy was applied. -/
  | error (limiter text : String)
  /-- The fallback store was asked instead of the primary one. -/
  | fallback (operation : StoreOperation) (cause : String)
  | circuit (breaker : String) (transition : Transition)
  | usage (limiter : String) (used : Binary64) (limit : UInt64)
  /-- A check was timed; how long it took is not part of the event. -/
  | latency (limiter : String)
  deriving DecidableEq

structure MetricTally where
  allows : Nat := 0
  denies : Nat := 0
  errors : Nat := 0
  fallbacks : Nat := 0
  usageSamples : Nat := 0
  latencySamples : Nat := 0
  /-- The newest first. -/
  transitions : List (String × Transition) := []

def MetricTally.record (tally : MetricTally) : MetricEvent → MetricTally
  | .allow _ => { tally with allows := tally.allows + 1 }
  | .deny _ => { tally with denies := tally.denies + 1 }
  | .error .. => { tally with errors := tally.errors + 1 }
  | .fallback .. => { tally with fallbacks := tally.fallbacks + 1 }
  | .circuit breaker transition =>
    { tally with transitions := (breaker, transition) :: tally.transitions }
  | .usage .. => { tally with usageSamples := tally.usageSamples + 1 }
  | .latency _ => { tally with latencySamples := tally.latencySamples + 1 }

end Admission
