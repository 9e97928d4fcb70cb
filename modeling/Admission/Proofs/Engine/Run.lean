import Admission.Proofs.Engine.Books
import Admission.Store.Memory

namespace Admission.Engine

/-- What is done with an engine. Events befall its store between requests, as time passing does. -/
inductive Action (C τ : Type)
  | acquire (context : C) (limiter : Limiter) (permits : UInt64)
  | reset (context : C) (limiter : Limiter)
  | event (event : τ)

/-- What the caller and the collaborators of an engine see of an action. -/
inductive Report
  | decided (decision : Decision) (metrics : List MetricEvent) (audit : List AuditEvent)
  | forgot (result : Except StoreError Unit) (audit : List AuditEvent)
  | silent

/-- The report of an action, what the store reported on the way, and the engine afterwards. -/
structure Step (σ C : Type) where
  report : Report
  storeEvents : List MetricEvent
  engine : Engine σ C

variable {σ C τ : Type}

theorem resolve_congr {ρ : Type} {engine : Engine σ C} {other : Engine ρ C}
    (same : other.resolver = engine.resolver) (context : C) :
    other.resolve context = engine.resolve context := by
  unfold resolve
  rw [same]

section

variable [Store σ]

def step (befall : τ → σ → σ) (engine : Engine σ C) : Action C τ → Step σ C
  | .acquire context limiter permits =>
    let outcome := engine.acquire context limiter permits
    ⟨.decided outcome.decision outcome.metrics outcome.audit, outcome.storeEvents, outcome.engine⟩
  | .reset context limiter =>
    let (reply, audit) := engine.reset context limiter
    ⟨.forgot reply.result audit, reply.events, reply.store⟩
  | .event event => ⟨.silent, [], { engine with store := befall event engine.store }⟩

/-- The actions of a run with their reports. -/
def run (befall : τ → σ → σ) (engine : Engine σ C) : List (Action C τ) → List (Action C τ × Report)
  | [] => []
  | action :: rest =>
    let step := engine.step befall action
    (action, step.report) :: run befall step.engine rest

/-- The engine after a run. -/
def after (befall : τ → σ → σ) (engine : Engine σ C) (actions : List (Action C τ)) : Engine σ C :=
  actions.foldl (fun engine action => (engine.step befall action).engine) engine

/-- A memory store answers every request at the reading of its clock. -/
theorem check_memory (store : MemoryStore) (key : String) (limiter : Limiter) (permits : UInt64) :
    check store key limiter permits =
      let charged := store.charge key limiter permits store.clock
      let usage? := usageRead limiter store.clock (.ok (charged.state.meter? key))
      ⟨.ok (verdict limiter permits store.clock charged.allowed usage?, usage?), [], charged.state⟩ := rfl

/-- An engine allows what its memory store grants, and keeps the charge. -/
theorem acquire_memory (engine : Engine MemoryStore C) (context : C) (limiter : Limiter) (permits : UInt64) :
    let charged := engine.store.charge (chargedKey limiter (engine.resolve context)) limiter permits
      engine.store.clock
    (engine.acquire context limiter permits).decision.allowed = charged.allowed ∧
      (engine.acquire context limiter permits).engine = { engine with store := charged.state } := by
  unfold acquire
  simp only [meterName_eq, check_memory]
  exact ⟨(verdict_spec ..).1, trivial⟩

theorem step_acquire (befall : τ → σ → σ) (engine : Engine σ C) (context : C) (limiter : Limiter)
    (permits : UInt64) :
    let checked := check engine.store (chargedKey limiter (engine.resolve context)) limiter permits
    (engine.step befall (.acquire context limiter permits)).storeEvents = checked.events ∧
      (engine.step befall (.acquire context limiter permits)).engine = { engine with store := checked.store } := by
  unfold step acquire
  simp only [meterName_eq]
  cases (check engine.store (chargedKey limiter (engine.resolve context)) limiter permits).result with
  | ok pair => exact ⟨rfl, rfl⟩
  | error error => exact ⟨rfl, rfl⟩

theorem step_reset (befall : τ → σ → σ) (engine : Engine σ C) (context : C) (limiter : Limiter) :
    engine.step befall (.reset context limiter) =
      let reply := Store.reset engine.store (chargedKey limiter (engine.resolve context))
      ⟨.forgot reply.result (engine.meterName context limiter).2, reply.events,
        { engine with store := reply.store }⟩ := by
  unfold step reset
  simp only [meterName_eq]
  rfl

variable {ρ : Type} [Store ρ] {befall : τ → σ → σ} {befallOther : τ → ρ → ρ} {engine : Engine σ C}
  {other : Engine ρ C}

/-- Two stores that answer a request alike get the same told of it. -/
theorem acquire_congr (resolver : other.resolver = engine.resolver) {context : C} {limiter : Limiter}
    {permits : UInt64}
    (same : (check other.store (chargedKey limiter (engine.resolve context)) limiter permits).result =
      (check engine.store (chargedKey limiter (engine.resolve context)) limiter permits).result) :
    (other.step befallOther (.acquire context limiter permits)).report =
      (engine.step befall (.acquire context limiter permits)).report := by
  unfold step acquire
  simp only [meterName_eq, resolve_congr resolver, same]
  cases (check engine.store (chargedKey limiter (engine.resolve context)) limiter permits).result with
  | ok pair => rfl
  | error error => rfl

theorem reset_congr (resolver : other.resolver = engine.resolver) {context : C} {limiter : Limiter}
    (same : (Store.reset other.store (chargedKey limiter (engine.resolve context))).result =
      (Store.reset engine.store (chargedKey limiter (engine.resolve context))).result) :
    (other.step befallOther (.reset context limiter)).report =
      (engine.step befall (.reset context limiter)).report := by
  simp only [step_reset, meterName_eq, resolve_congr resolver, same]

/-- No action changes how keys are found. -/
theorem resolver_step (befall : τ → σ → σ) (engine : Engine σ C) (action : Action C τ) :
    (engine.step befall action).engine.resolver = engine.resolver := by
  cases action with
  | acquire context limiter permits =>
    rw [(step_acquire befall engine context limiter permits).2]
  | reset context limiter => rfl
  | event event => rfl

theorem resolver_after (befall : τ → σ → σ) (engine : Engine σ C) (actions : List (Action C τ)) :
    (engine.after befall actions).resolver = engine.resolver := by
  induction actions generalizing engine with
  | nil => rfl
  | cons action rest ih => exact (ih _).trans (resolver_step befall engine action)

end
end Admission.Engine
