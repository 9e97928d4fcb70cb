import Admission.Limiter.Basic
import Admission.Time.Timestamp

namespace Admission

structure Decision where
  allowed : Bool
  limiter : String
  limit : UInt64
  remaining : UInt64
  resetTime : Timestamp
  delayMillis : UInt64
  reason? : Option String
  deriving DecidableEq

namespace Decision

/-- The reason of a denial by the limiter itself. -/
def rateLimited : String := "rate_limit_exceeded"

/-- The reason of a decision by the fail strategy. -/
def storageUnavailable (strategy : FailStrategy) : String :=
  "storage_unavailable_" ++ strategy.tag

def allow (limiter : Limiter) (remaining : UInt64) (resetTime : Timestamp) : Decision :=
  { allowed := true, limiter := limiter.name, limit := limiter.capacity, remaining, resetTime
    delayMillis := 0, reason? := none }

def deny (limiter : Limiter) (resetTime : Timestamp) (reason : String) : Decision :=
  { allowed := false, limiter := limiter.name, limit := limiter.capacity, remaining := 0
    resetTime, delayMillis := 0, reason? := some reason }

/-- Asks the caller to wait first; a denied request has nothing to wait for. -/
def withDelay (decision : Decision) (delay : Duration) : Decision :=
  if decision.allowed then { decision with delayMillis := delay.toMillis } else decision

def withReason (decision : Decision) (reason : String) : Decision :=
  { decision with reason? := some reason }

def delay (decision : Decision) : Duration :=
  .ofMillis decision.delayMillis

end Decision
end Admission
