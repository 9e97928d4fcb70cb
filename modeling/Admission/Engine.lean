import Admission.Decision
import Admission.Key
import Admission.Registry
import Admission.Store.Basic

/-! The engine decides about requests. It finds the key of a request, has the store charge
it, reads the usage, and tells the caller how long to wait. No fault of its own parts makes
it fail: a request without a key is charged to a shared one, and without an answer of the
store the fail strategy of the limiter decides. -/
namespace Admission

structure Engine (σ C : Type) where
  store : σ
  resolver : KeyResolver C
  registry : Registry := {}

namespace Engine

variable {σ C : Type}

/-- A decision with all that was reported on the way to it: the events of the store, which
come first, then those of the engine, and the audit events. -/
structure Outcome (σ C : Type) where
  decision : Decision
  storeEvents : List MetricEvent
  metrics : List MetricEvent
  audit : List AuditEvent
  engine : Engine σ C

/-- What the store had to say about a request. -/
structure Check (σ : Type) where
  result : Except StoreError (Decision × Option Usage)
  events : List MetricEvent
  store : σ

/-- The name under which a store keeps the meter of a key. -/
def storageKey (limiter : Limiter) (key : String) : String :=
  limiter.name ++ ":" ++ key

/-- The key of a request, which is not blank, or why it has none. -/
def resolve (engine : Engine σ C) (context : C) : Except KeyError String :=
  match engine.resolver context with
  | .error error => .error error
  | .ok key => if Text.isBlank key then .error .missing else .ok key

/-- The name of the meter to charge, and the audit event if the request has no key. -/
def meterName (engine : Engine σ C) (context : C) (limiter : Limiter) :
    String × List AuditEvent :=
  match engine.resolve context with
  | .ok key => (storageKey limiter key, [])
  | .error error =>
    (storageKey limiter anonymousKey, [.keyResolutionFailed limiter.name error.message])

/-- The decision about a charged request. Without usage it tells what it can. -/
def verdict (limiter : Limiter) (permits : UInt64) (now : Timestamp) (allowed : Bool)
    (usage? : Option Usage) : Decision :=
  if allowed then
    match usage? with
    | none =>
      .allow limiter (UInt64.ofNatClamp (limiter.capacity.toNat - permits.toNat)) now
    | some usage =>
      let decision := Decision.allow limiter usage.remaining usage.resetAt
      match limiter.throttle? with
      | none => decision
      | some throttle =>
        decision.withDelay (throttle.delayFor (max usage.used 0).ceil.toUInt64 usage.limit)
  else .deny limiter ((usage?.map (·.resetAt)).getD now) Decision.rateLimited

/-- The usage that a meter read back shows; a failed read shows none. -/
def usageRead (limiter : Limiter) (now : Timestamp) :
    Except StoreError (Option Meter) → Option Usage
  | .ok (some meter) => meter.usage? limiter now
  | _ => none

/-- Asks the store for the time, has it charge the request, and reads the meter back. -/
def check [Store σ] (store : σ) (key : String) (limiter : Limiter) (permits : UInt64) :
    Check σ :=
  let time := Store.currentTime store
  match time.result with
  | .error error => ⟨.error error, time.events, time.store⟩
  | .ok now =>
    let charged := Store.acquire time.store key limiter permits now
    match charged.result with
    | .error error => ⟨.error error, time.events ++ charged.events, charged.store⟩
    | .ok allowed =>
      let read := Store.state charged.store key
      let usage? := usageRead limiter now read.result
      ⟨.ok (verdict limiter permits now allowed usage?, usage?),
        time.events ++ charged.events ++ read.events, read.store⟩

/-- The decision of the fail strategy. -/
def failDecision (limiter : Limiter) : Decision :=
  let reason := Decision.storageUnavailable limiter.failStrategy
  if limiter.failStrategy.allows then (Decision.allow limiter limiter.capacity 0).withReason reason
  else .deny limiter 0 reason

/-- The metric events that every decision ends with. -/
def closing (decision : Decision) : List MetricEvent :=
  [if decision.allowed then .allow decision.limiter else .deny decision.limiter,
    .latency decision.limiter]

/-- Decides about a request that costs some permits. No permits ask for the standing. -/
def acquire [Store σ] (engine : Engine σ C) (context : C) (limiter : Limiter)
    (permits : UInt64) : Outcome σ C :=
  let (key, keyAudit) := engine.meterName context limiter
  let checked := check engine.store key limiter permits
  let engine := { engine with store := checked.store }
  match checked.result with
  | .ok (decision, usage?) =>
    { decision
      storeEvents := checked.events
      metrics :=
        (usage?.map fun usage => MetricEvent.usage limiter.name usage.used usage.limit).toList ++
          closing decision
      audit := keyAudit ++
        if decision.allowed then [] else [.enforcement limiter.name key Decision.rateLimited]
      engine }
  | .error error =>
    let decision := failDecision limiter
    { decision
      storeEvents := checked.events
      metrics := .error limiter.name error.message :: closing decision
      audit := keyAudit ++
        [.failure limiter.name key error.message limiter.failStrategy decision.allowed]
      engine }

/-- Decides about a request that costs one permit of a registered limiter. -/
def acquireNamed [Store σ] (engine : Engine σ C) (context : C) (name : String) :
    Except RegistryError (Outcome σ C) :=
  match engine.registry.get? name with
  | some limiter => .ok (engine.acquire context limiter 1)
  | none => .error (.notFound name)

/-- Forgets the meter that a request would be charged to. -/
def reset [Store σ] (engine : Engine σ C) (context : C) (limiter : Limiter) :
    Reply Unit (Engine σ C) × List AuditEvent :=
  let (key, keyAudit) := engine.meterName context limiter
  ((Store.reset engine.store key).inside fun store => { engine with store }, keyAudit)

def currentTime [Store σ] (engine : Engine σ C) : Reply Timestamp (Engine σ C) :=
  (Store.currentTime engine.store).inside fun store => { engine with store }

def diagnostics [Store σ] (engine : Engine σ C) : Diagnostics :=
  Store.diagnostics engine.store ++
    [("storage_healthy", .flag (Store.isHealthy engine.store)),
      ("registered_limiters", .names engine.registry.names)]

end Engine
end Admission
