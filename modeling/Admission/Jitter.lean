import Admission.Random.Stream
import Admission.Time.Duration

/-! Jitter spreads a base duration over an interval around it, so that nodes that failed
together do not all come back together. -/
namespace Admission

inductive Jitter
  | none
  /-- Scales by one plus the factor times a draw between minus one and one. -/
  | proportional (factor : Binary64)
  deriving DecidableEq

/-- A factor that would not keep every result positive. -/
structure JitterError where
  factor : Binary64
  deriving DecidableEq

def JitterError.message (error : JitterError) : String :=
  "jitter factor must be finite and in [0, 1) (got " ++ error.factor.text ++ ")"

def JitterError.kind (_ : JitterError) : String := "InvalidJitterFactor"

/-- The base times a multiplier, or the longest duration if that is no duration. -/
def Duration.scale (base : Duration) (multiplier : Binary64) : Duration :=
  (ofBinary64? (base.toBinary64 * multiplier)).getD longest

namespace Jitter

/-- A zero factor of either sign is no jitter at all. -/
def ofFactor (factor : Binary64) : Except JitterError Jitter :=
  if factor.isFinite ∧ 0 ≤ factor ∧ factor < 1 then
    .ok (if factor ≤ 0 then none else proportional factor)
  else .error ⟨factor⟩

def factor : Jitter → Binary64
  | none => 0
  | proportional factor => factor

/-- The duration for one draw between minus one and one. -/
def apply (jitter : Jitter) (base : Duration) (draw : Binary64) : Duration :=
  match jitter with
  | none => base
  | proportional factor => base.scale (1 + draw * factor)

/-- The duration for the next word of a stream; without jitter no word is drawn. -/
def sample (jitter : Jitter) (base : Duration) (stream : Random.Stream) :
    Duration × Random.Stream :=
  match jitter with
  | none => (base, stream)
  | proportional _ =>
    let (word, stream) := stream.next
    (jitter.apply base (Random.symmetricUnit word), stream)

/-- The durations for the draws minus one and one. -/
def bounds (jitter : Jitter) (base : Duration) : Duration × Duration :=
  (base.scale (1 - jitter.factor), base.scale (1 + jitter.factor))

/-- Whether a duration lies within the bounds. Scaling by one rounds, so even without jitter
the base itself may lie outside. -/
def covers (jitter : Jitter) (base d : Duration) : Bool :=
  let (low, high) := jitter.bounds base
  low ≤ d && d ≤ high

def text : Jitter → String
  | none => "none"
  | proportional _ => "proportional"

end Jitter
end Admission
