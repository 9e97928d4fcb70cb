import Admission.Meter.Bucket
import Admission.Meter.Window

namespace Admission

inductive Meter
  | bucket (bucket : Bucket)
  | window (window : Window)
  deriving DecidableEq

namespace Meter

def algorithm : Meter → Algorithm
  | bucket _ => .tokenBucket
  | window _ => .slidingWindow

def bucket? : Meter → Option Bucket
  | bucket b => some b
  | window _ => none

def window? : Meter → Option Window
  | bucket _ => none
  | window w => some w

/-- Charges a request to the meter of its key, or to a fresh one. -/
def charge (limiter : Limiter) (permits : UInt64) (now : Timestamp) (previous? : Option Meter) :
    Charge Meter :=
  match limiter.algorithm with
  | .tokenBucket => (Bucket.charge limiter permits now (previous?.bind bucket?)).map bucket
  | .slidingWindow => (Window.charge limiter permits now (previous?.bind window?)).map window

/-- The usage that a meter shows under a limiter of its algorithm. -/
def usage? (limiter : Limiter) (now : Timestamp) (meter : Meter) : Option Usage :=
  match limiter.algorithm with
  | .tokenBucket => meter.bucket?.map (Bucket.usage limiter now)
  | .slidingWindow => meter.window?.map (Window.usage limiter now)

theorem charge_tokenBucket {limiter : Limiter} (bucket : limiter.algorithm = .tokenBucket) (permits : UInt64)
    (now : Timestamp) (previous? : Option Meter) : charge limiter permits now previous? =
      (Bucket.charge limiter permits now (previous?.bind bucket?)).map .bucket := by
  unfold charge
  rw [bucket]

theorem charge_slidingWindow {limiter : Limiter} (window : limiter.algorithm = .slidingWindow)
    (permits : UInt64)
    (now : Timestamp) (previous? : Option Meter) : charge limiter permits now previous? =
      (Window.charge limiter permits now (previous?.bind window?)).map .window := by
  unfold charge
  rw [window]

theorem algorithm_charge (limiter : Limiter) (permits : UInt64) (now : Timestamp)
    (previous? : Option Meter) :
    (charge limiter permits now previous?).state.algorithm = limiter.algorithm := by
  unfold charge
  split <;> simp_all [Charge.map, algorithm]

theorem usage?_isSome (limiter : Limiter) (now : Timestamp) (meter : Meter) :
    (meter.usage? limiter now).isSome = decide (meter.algorithm = limiter.algorithm) := by
  unfold usage?
  split <;> cases meter <;> simp_all [bucket?, window?, algorithm]

end Meter
end Admission
