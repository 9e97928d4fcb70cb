import Admission.Meter.Basic
import Admission.Report.Metric

namespace Admission

/-- Why a store could not do what it was asked. -/
inductive StoreError
  | unavailable (reason : String)
  | timeout (waited : Duration)
  | corrupt (key reason : String)
  | backend (reason : String)
  deriving DecidableEq

def StoreError.message : StoreError → String
  | unavailable reason => "storage backend unavailable: " ++ reason
  | timeout waited => "storage operation timed out after " ++ waited.text
  | corrupt key reason => "corrupt state for key `" ++ key ++ "`: " ++ reason
  | backend reason => "storage backend error: " ++ reason

def StoreError.kind : StoreError → String
  | unavailable _ => "Unavailable"
  | timeout _ => "Timeout"
  | corrupt .. => "Corrupt"
  | backend _ => "Backend"

/-- The answer of a store, the events on the way to it, and the store afterwards. -/
structure Reply (α σ : Type) where
  result : Except StoreError α
  events : List MetricEvent := []
  store : σ

/-- The same answer of a store that holds the one that gave it. -/
def Reply.inside {α σ τ : Type} (wrap : σ → τ) (reply : Reply α σ) : Reply α τ :=
  ⟨reply.result, reply.events, wrap reply.store⟩

/-- What diagnostics show under a name. -/
inductive Diagnostic
  | text (value : String)
  | count (value : Nat)
  | flag (value : Bool)
  | rate (value : Binary64)
  | names (value : List String)
  deriving DecidableEq

abbrev Diagnostics := List (String × Diagnostic)

class Store (σ : Type) where
  /-- The time that limits are counted in. -/
  currentTime : σ → Reply Timestamp σ
  /-- Charges permits to the meter of a key and tells whether the request is allowed. -/
  acquire : σ → (key : String) → Limiter → (permits : UInt64) → (now : Timestamp) → Reply Bool σ
  /-- Forgets the meter of a key. -/
  reset : σ → (key : String) → Reply Unit σ
  /-- The meter of a key. -/
  state : σ → (key : String) → Reply (Option Meter) σ
  isHealthy : σ → Bool
  diagnostics : σ → Diagnostics

/-- One of two stores is a store. -/
instance {σ τ : Type} [Store σ] [Store τ] : Store (σ ⊕ τ) where
  currentTime
    | .inl store => (Store.currentTime store).inside .inl
    | .inr store => (Store.currentTime store).inside .inr
  acquire
    | .inl store, key, limiter, permits, now =>
      (Store.acquire store key limiter permits now).inside .inl
    | .inr store, key, limiter, permits, now =>
      (Store.acquire store key limiter permits now).inside .inr
  reset
    | .inl store, key => (Store.reset store key).inside .inl
    | .inr store, key => (Store.reset store key).inside .inr
  state
    | .inl store, key => (Store.state store key).inside .inl
    | .inr store, key => (Store.state store key).inside .inr
  isHealthy
    | .inl store => Store.isHealthy store
    | .inr store => Store.isHealthy store
  diagnostics
    | .inl store => Store.diagnostics store
    | .inr store => Store.diagnostics store

end Admission
