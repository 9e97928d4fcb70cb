import Admission.Jitter

namespace Admission

inductive BreakerError
  | invalidFailureRate (rate : Binary64)
  | zeroMinimumCalls
  | zeroWindow
  | zeroRecovery
  | invalidJitterFactor (factor : Binary64)
  | zeroProbeLimit
  deriving DecidableEq

structure BreakerSettings where
  /-- The share of failed calls from which on the circuit opens. -/
  threshold : Binary64
  /-- How many calls a window must count before their failure rate matters. -/
  minimumCalls : Nat
  window : Duration
  recovery : Duration
  jitter : Jitter
  maxProbes : Nat
  deriving DecidableEq

/-- Settings that have not been checked. What is left out is as good as any for a start. -/
structure BreakerSettings.Draft where
  threshold : Binary64 := 1 / 2
  minimumCalls : Nat := 1
  window : Duration := .ofSeconds 60
  recovery : Duration := .ofSeconds 30
  jitterFactor : Binary64 := 3 / 10
  maxProbes : Nat := 1

def BreakerError.message : BreakerError → String
  | invalidFailureRate rate => "failure rate threshold must be in (0, 1] (got " ++ rate.text ++ ")"
  | zeroMinimumCalls => "minimum calls must be at least 1"
  | zeroWindow => "rolling window must be greater than zero"
  | zeroRecovery => "recovery timeout must be greater than zero"
  | invalidJitterFactor factor => "jitter factor must be in [0, 1) (got " ++ factor.text ++ ")"
  | zeroProbeLimit => "max concurrent probes must be at least 1"

def BreakerError.kind : BreakerError → String
  | invalidFailureRate _ => "InvalidFailureRate"
  | zeroMinimumCalls => "ZeroMinimumCalls"
  | zeroWindow => "ZeroWindow"
  | zeroRecovery => "ZeroRecoveryTimeout"
  | invalidJitterFactor _ => "InvalidJitterFactor"
  | zeroProbeLimit => "ZeroProbeLimit"

/-- Checks the settings in order; the first fault is the error. -/
def BreakerSettings.Draft.build (draft : Draft) : Except BreakerError BreakerSettings :=
  if ¬ (0 < draft.threshold ∧ draft.threshold ≤ 1) then
    .error (.invalidFailureRate draft.threshold)
  else if draft.minimumCalls = 0 then .error .zeroMinimumCalls
  else if draft.window ≤ 0 then .error .zeroWindow
  else if draft.recovery ≤ 0 then .error .zeroRecovery
  else match Jitter.ofFactor draft.jitterFactor with
    | .error _ => .error (.invalidJitterFactor draft.jitterFactor)
    | .ok jitter =>
      if draft.maxProbes = 0 then .error .zeroProbeLimit
      else .ok
        { threshold := draft.threshold, minimumCalls := draft.minimumCalls
          window := draft.window, recovery := draft.recovery, jitter
          maxProbes := draft.maxProbes }

end Admission
