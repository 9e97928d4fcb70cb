import Admission.Limiter.Basic

namespace Admission

structure ThrottleManifest where
  softPercent : UInt8
  maxDelayMillis : UInt64
  curve : ThrottleCurve
  deriving DecidableEq

structure LimiterManifest where
  name : String
  algorithm : Algorithm
  requests : UInt64
  windowMillis : UInt64
  failStrategy : FailStrategy := .failOpen
  capacity? : Option UInt64 := none
  refillRate? : Option Binary64 := none
  throttle? : Option ThrottleManifest := none
  deriving DecidableEq

def ThrottleManifest.build (manifest : ThrottleManifest) : Except ThrottleError Throttle :=
  Throttle.ofSettings manifest.softPercent.toNat (.ofMillis manifest.maxDelayMillis) manifest.curve

namespace LimiterManifest

/-- The draft with the same settings and a throttle that has been checked. -/
def draft (manifest : LimiterManifest) (throttle? : Option Throttle) : Limiter.Draft :=
  { name := manifest.name, algorithm := manifest.algorithm, requests := manifest.requests,
    window := .ofMillis manifest.windowMillis, failStrategy := manifest.failStrategy,
    capacity? := manifest.capacity?, refillRate? := manifest.refillRate?, throttle? }

/-- The throttle is checked before everything else. -/
def build (manifest : LimiterManifest) : Except LimiterError Limiter :=
  match manifest.throttle?.mapM ThrottleManifest.build with
  | .ok throttle? => (manifest.draft throttle?).build
  | .error error => .error (.throttle error)

end LimiterManifest
end Admission
