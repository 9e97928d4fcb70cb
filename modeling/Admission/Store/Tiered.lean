import Admission.Breaker.Basic
import Admission.Store.Basic

/-! Two stores in one: a primary store behind a circuit breaker, and a fallback store for
all that the primary one does not answer. Resets go to both. -/
namespace Admission

structure TieredStore (π φ : Type) where
  primary : π
  fallback : φ
  breaker : Breaker
  /-- The clock of the breaker. -/
  clock : Timestamp

/-- The most requests that nodes admit beyond the limit while each counts for itself. -/
def overAdmissionBound (nodes limit : UInt64) : UInt64 :=
  UInt64.ofNatClamp ((nodes.toNat - 1) * limit.toNat)

namespace TieredStore

variable {π φ α : Type}

/-- What came of a call of the primary store. -/
structure Guarded (π φ α : Type) where
  result : Except (CallError StoreError) α
  events : List MetricEvent
  store : TieredStore π φ

/-- The event that tells of a transition of the breaker. -/
def transitionEvents (store : TieredStore π φ) (reported : Option Transition) :
    List MetricEvent :=
  (reported.map (MetricEvent.circuit store.breaker.name)).toList

/-- Calls the primary store if the breaker lets the call in, and records the outcome. -/
def callPrimary (store : TieredStore π φ) (call : π → Reply α π) : Guarded π φ α :=
  let entry := store.breaker.enter store.clock
  let entered := store.transitionEvents entry.reported
  match entry.result with
  | .error refusal =>
    ⟨.error (.refused refusal), entered, { store with breaker := entry.breaker }⟩
  | .ok permit =>
    let reply := call store.primary
    let (breaker, reported) := entry.breaker.record permit reply.result.isOk store.clock
    ⟨reply.result.mapError .inner,
      entered ++ reply.events ++ store.transitionEvents reported,
      { store with primary := reply.store, breaker := breaker.release permit }⟩

/-- The answer of the primary store, or else the answer of the fallback store. -/
def answer (store : TieredStore π φ) (operation : StoreOperation) (primary : π → Reply α π)
    (fallback : φ → Reply α φ) : Reply α (TieredStore π φ) :=
  let first := store.callPrimary primary
  match first.result with
  | .ok value => ⟨.ok value, first.events, first.store⟩
  | .error cause =>
    let second := fallback first.store.fallback
    ⟨second.result,
      first.events ++ .fallback operation (cause.message StoreError.message) :: second.events,
      { first.store with fallback := second.store }⟩

/-- Resets both stores; it fails with the error of the fallback store if both do. -/
def resetBoth (store : TieredStore π φ) (primary : π → Reply Unit π)
    (fallback : φ → Reply Unit φ) : Reply Unit (TieredStore π φ) :=
  let first := store.callPrimary primary
  let second := fallback first.store.fallback
  { result := if first.result.isOk then .ok () else second.result
    events := first.events ++ second.events
    store := { first.store with fallback := second.store } }

def shownBreaker (store : TieredStore π φ) : Diagnostics :=
  let snapshot := store.breaker.snapshot
  [("circuit_breaker.state", .text snapshot.circuit.text),
    ("circuit_breaker.failures", .count snapshot.failures),
    ("circuit_breaker.successes", .count snapshot.successes),
    ("circuit_breaker.failure_rate", .rate snapshot.failureRate)]

instance [Store π] [Store φ] : Store (TieredStore π φ) where
  currentTime store := store.answer .currentTime Store.currentTime Store.currentTime
  acquire store key limiter permits now :=
    store.answer .acquire (Store.acquire · key limiter permits now)
      (Store.acquire · key limiter permits now)
  reset store key := store.resetBoth (Store.reset · key) (Store.reset · key)
  state store key := store.answer .state (Store.state · key) (Store.state · key)
  isHealthy store :=
    (store.breaker.circuit ≠ .opened && Store.isHealthy store.primary) ||
      Store.isHealthy store.fallback
  diagnostics store :=
    ("backend", .text "tiered") ::
      ((Store.diagnostics store.primary).map fun (name, value) => ("l1." ++ name, value)) ++
      ((Store.diagnostics store.fallback).map fun (name, value) => ("l2." ++ name, value)) ++
      store.shownBreaker

end TieredStore
end Admission
