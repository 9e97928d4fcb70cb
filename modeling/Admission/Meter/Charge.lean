import Admission.Limiter.Basic
import Admission.Time.Timestamp

namespace Admission

/-- The meter after a request was charged, and whether the request is allowed. The meter is
kept in either case, since time has been credited to it. -/
structure Charge (σ : Type) where
  state : σ
  allowed : Bool
  deriving DecidableEq

def Charge.map {σ τ : Type} (f : σ → τ) (charge : Charge σ) : Charge τ :=
  ⟨f charge.state, charge.allowed⟩

@[simp] theorem Charge.allowed_map {σ τ : Type} (f : σ → τ) (charge : Charge σ) :
    (charge.map f).allowed = charge.allowed := rfl

/-- How much of a limit is in use. -/
structure Usage where
  used : Binary64
  limit : UInt64
  remaining : UInt64
  /-- When nothing is in use any more if no request comes. -/
  resetAt : Timestamp
  deriving DecidableEq

end Admission
