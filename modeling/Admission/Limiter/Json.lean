import Admission.Json.Record
import Admission.Limiter.Manifest

namespace Admission

def ThrottleCurve.ofTag? : String → Option ThrottleCurve
  | "linear" => some linear
  | "exponential" => some exponential
  | _ => none

def ThrottleManifest.ofJson? (value : Json) : Option ThrottleManifest :=
  match value.record? ["soft_limit_percent", "max_delay_ms", "strategy"] with
  | some [percent, delay, curve] => do
    let softPercent ← Json.required? Json.uint8? percent
    let maxDelayMillis ← Json.required? Json.uint64? delay
    let curve ← Json.required? (fun v => v.choice?.bind ThrottleCurve.ofTag?) curve
    some { softPercent, maxDelayMillis, curve }
  | _ => none

namespace LimiterManifest

/-- The fields in the order in which they are declared. -/
def fieldNames : List String :=
  ["name", "algorithm", "requests", "window_ms", "fail_strategy", "capacity", "refill_rate",
    "throttle"]

def ofJson? (value : Json) : Option LimiterManifest :=
  match value.record? fieldNames with
  | some [name, algorithm, requests, window, strategy, capacity, rate, throttle] => do
    let name ← Json.required? Json.text? name
    let algorithm ← Json.required? (fun v => v.choice?.bind Algorithm.ofTag?) algorithm
    let requests ← Json.required? Json.uint64? requests
    let windowMillis ← Json.required? Json.uint64? window
    let failStrategy ←
      Json.defaulted? .failOpen (fun v => v.choice?.bind FailStrategy.ofTag?) strategy
    let capacity? ← Json.optional? Json.uint64? capacity
    let refillRate? ← Json.optional? Json.binary64? rate
    let throttle? ← Json.optional? ThrottleManifest.ofJson? throttle
    some { name, algorithm, requests, windowMillis, failStrategy, capacity?, refillRate?,
           throttle? }
  | _ => none

def read? (text : String) : Option LimiterManifest :=
  (Json.read? text).bind ofJson?

end LimiterManifest
end Admission
