import Admission.Limiter.Options
import Admission.Throttle

/-! Limiters: a draft is checked once, and the limiter made of it is never checked again. -/
namespace Admission

/-- The settings that only a token bucket has. -/
inductive BucketSetting
  | capacity
  | refillRate
  deriving DecidableEq, Repr

inductive LimiterError
  | emptyName
  | zeroRequests
  | zeroWindow
  | subSecondWindow (window : Duration)
  | invalidCapacity (capacity : UInt64)
  | invalidRefillRate (rate : Binary64)
  | notApplicable (setting : BucketSetting) (algorithm : Algorithm)
  | unknownAlgorithm (written : String)
  | unknownFailStrategy (written : String)
  | throttle (error : ThrottleError)
  deriving DecidableEq

/-- The settings of one limiter. A sliding window has its requests for a capacity. -/
structure Limiter where
  name : String
  algorithm : Algorithm
  requests : UInt64
  window : Duration
  failStrategy : FailStrategy
  capacity : UInt64
  /-- In tokens per second. -/
  refillRate : Binary64
  throttle? : Option Throttle
  deriving DecidableEq

structure Limiter.Draft where
  name : String
  algorithm : Algorithm
  requests : UInt64 := 0
  window : Duration := 0
  failStrategy : FailStrategy := .failOpen
  capacity? : Option UInt64 := none
  refillRate? : Option Binary64 := none
  throttle? : Option Throttle := none
  deriving DecidableEq

def BucketSetting.text : BucketSetting → String
  | capacity => "capacity"
  | refillRate => "refill_rate"

def LimiterError.message : LimiterError → String
  | emptyName => "limiter name must not be empty"
  | zeroRequests => "requests must be > 0"
  | zeroWindow => "window must be > 0"
  | subSecondWindow window => "sliding window must be at least 1s (got " ++ window.text ++ ")"
  | invalidCapacity capacity => "capacity must be >= 1 (got " ++ toString capacity ++ ")"
  | invalidRefillRate rate => "refill rate must be a finite value > 0 (got " ++ rate.text ++ ")"
  | notApplicable setting algorithm =>
    "`" ++ setting.text ++ "` does not apply to the " ++ algorithm.text ++ " algorithm"
  | unknownAlgorithm written => "unknown algorithm `" ++ written ++ "`"
  | unknownFailStrategy written => "unknown fail strategy `" ++ written ++ "`"
  | throttle error => error.message

def LimiterError.kind : LimiterError → String
  | emptyName => "EmptyName"
  | zeroRequests => "ZeroRequests"
  | zeroWindow => "ZeroWindow"
  | subSecondWindow _ => "SubSecondWindow"
  | invalidCapacity _ => "InvalidCapacity"
  | invalidRefillRate _ => "InvalidRefillRate"
  | notApplicable .. => "NotApplicable"
  | unknownAlgorithm _ => "UnknownAlgorithm"
  | unknownFailStrategy _ => "UnknownFailStrategy"
  | throttle error => "Throttle." ++ error.kind

/-- Reads the name of an algorithm; the error shows it as written. -/
def Algorithm.read (written : String) : Except LimiterError Algorithm :=
  match ofText? written with
  | some algorithm => .ok algorithm
  | none => .error (.unknownAlgorithm written)

/-- Reads the name of a fail strategy; the error shows it as written. -/
def FailStrategy.read (written : String) : Except LimiterError FailStrategy :=
  match ofText? written with
  | some strategy => .ok strategy
  | none => .error (.unknownFailStrategy written)

namespace Limiter

/-- The rate that lets the requests of one window through in one window. -/
def steadyRate (requests : UInt64) (window : Duration) : Binary64 :=
  .ofNat requests.toNat / window.toBinary64

namespace Draft

/-- The capacity and the refill rate of a token bucket. -/
def bucketSettings (draft : Draft) : Except LimiterError (UInt64 × Binary64) :=
  let capacity := draft.capacity?.getD draft.requests
  let rate := draft.refillRate?.getD (steadyRate draft.requests draft.window)
  if capacity = 0 then .error (.invalidCapacity capacity)
  else if rate.isFinite ∧ 0 < rate then .ok (capacity, rate)
  else .error (.invalidRefillRate rate)

/-- The capacity and the refill rate of a sliding window, which are not its own to set. -/
def windowSettings (draft : Draft) : Except LimiterError (UInt64 × Binary64) :=
  if draft.window < .ofSeconds 1 then .error (.subSecondWindow draft.window)
  else if draft.capacity?.isSome then .error (.notApplicable .capacity draft.algorithm)
  else if draft.refillRate?.isSome then .error (.notApplicable .refillRate draft.algorithm)
  else .ok (draft.requests, steadyRate draft.requests draft.window)

/-- Checks what all limiters need, then what the algorithm needs; the first fault is the error. -/
def build (draft : Draft) : Except LimiterError Limiter :=
  if Text.isBlank draft.name then .error .emptyName
  else if draft.requests = 0 then .error .zeroRequests
  else if draft.window ≤ 0 then .error .zeroWindow
  else
    let settings := match draft.algorithm with
      | .tokenBucket => draft.bucketSettings
      | .slidingWindow => draft.windowSettings
    settings.map fun (capacity, refillRate) =>
      { name := draft.name, algorithm := draft.algorithm, requests := draft.requests,
        window := draft.window, failStrategy := draft.failStrategy, capacity, refillRate,
        throttle? := draft.throttle? }

end Draft

/-- A token bucket that starts a window with a full burst. -/
def tokenBucket (name : String) (requests : UInt64) (window : Duration) :
    Except LimiterError Limiter :=
  Draft.build { name, algorithm := .tokenBucket, requests, window }

def slidingWindow (name : String) (requests : UInt64) (window : Duration) :
    Except LimiterError Limiter :=
  Draft.build { name, algorithm := .slidingWindow, requests, window }

/-- How long the state of an idle key is kept: two windows. -/
def ttl (limiter : Limiter) : Duration :=
  limiter.window.doubled

def withFailStrategy (limiter : Limiter) (failStrategy : FailStrategy) : Limiter :=
  { limiter with failStrategy }

end Limiter
end Admission
