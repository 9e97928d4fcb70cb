import Admission.Proofs.Engine.Run
import Admission.Proofs.Store.Standing

namespace Admission

/-- What a decision says of a request when some permits were granted before. -/
structure Decision.Tells (limiter : Limiter) (before : Nat) (permits : UInt64)
    (decision : Decision) : Prop where
  allowed : decision.allowed = true ↔ before + permits.toNat ≤ limiter.capacity.toNat
  remaining : decision.allowed = true →
    decision.remaining.toNat = limiter.capacity.toNat - before - permits.toNat
  delay : decision.allowed = true → decision.delayMillis = match limiter.throttle? with
    | none => 0
    | some throttle =>
      (throttle.delayFor (UInt64.ofNat (before + permits.toNat)) limiter.capacity).toMillis
  reason : decision.allowed = false → decision.reason? = some "rate_limit_exceeded"

/-- Which requests fit into a capacity, one after the other, when some of it is in use. -/
def fitting (capacity : Nat) : (inUse : Nat) → List UInt64 → List Bool
  | _, [] => []
  | inUse, permits :: rest =>
    let fits := decide (inUse + permits.toNat ≤ capacity)
    fits :: fitting capacity (if fits then inUse + permits.toNat else inUse) rest

theorem countP_fitting_ones (capacity inUse : Nat) (requests : List UInt64)
    (ones : ∀ permits ∈ requests, permits = 1) :
    (fitting capacity inUse requests).countP id = min requests.length (capacity - inUse) := by
  induction requests generalizing inUse with
  | nil => simp [fitting]
  | cons permits rest ih =>
    have one : permits.toNat = 1 := congrArg UInt64.toNat (ones permits (List.mem_cons_self ..))
    have others := fun inUse => ih inUse fun later member => ones later (List.mem_cons_of_mem _ member)
    rw [fitting, one]
    by_cases room : inUse + 1 ≤ capacity
    · simp only [room, decide_true, if_true, List.countP_cons, id_eq, others, List.length_cons]
      omega
    · simp only [room, decide_false, Bool.false_eq_true, if_false, List.countP_cons, id_eq, others,
        List.length_cons]
      omega

namespace Engine

variable {σ C : Type}

structure Served where
  permits : UInt64
  decision : Decision

/-- Decides about requests for one limiter, one after the other. -/
def serve [Store σ] (engine : Engine σ C) (limiter : Limiter) : List (C × UInt64) → List Served
  | [] => []
  | (context, permits) :: rest =>
    let outcome := engine.acquire context limiter permits
    ⟨permits, outcome.decision⟩ :: serve outcome.engine limiter rest

def granted : List Served → Nat
  | [] => 0
  | served :: log => (if served.decision.allowed then served.permits.toNat else 0) + granted log

/-- Requests for a fresh key of a memory store whose clock shows an early reading. -/
structure AtInstant (limiter : Limiter) (key : String) (engine : Engine MemoryStore C)
    (requests : List (C × UInt64)) : Prop where
  built : ∃ draft : Limiter.Draft, draft.build = .ok limiter
  window : .ofMillis 1 ≤ limiter.window
  capacity : limiter.capacity.toNat < 2 ^ 53
  early : engine.store.clock < Timestamp.last
  fresh : engine.store.meter? key = none
  keys : ∀ request ∈ requests, chargedKey limiter (engine.resolve request.1) = key
  permits : ∀ request ∈ requests, 1 ≤ request.2.toNat

section

variable {limiter : Limiter} {key : String} {n : Nat} {engine : Engine MemoryStore C} {context : C}
  {permits : UInt64}

private theorem tells_verdict (precise : limiter.Exact) {now : Timestamp} {allowed : Bool} {usage : Usage}
    (fits : allowed = true ↔ n + permits.toNat ≤ limiter.capacity.toNat)
    (used : Binary64.Whole usage.used (if allowed then n + permits.toNat else n))
    (limit : usage.limit = limiter.capacity)
    (remaining : usage.remaining.toNat =
      limiter.capacity.toNat - if allowed then n + permits.toNat else n) :
    Decision.Tells limiter n permits (verdict limiter permits now allowed (some usage)) := by
  cases allowed with
  | false =>
    constructor
    case allowed => exact fits
    case remaining => exact nofun
    case delay => exact nofun
    case reason => exact fun _ => rfl
  | true =>
    have room := fits.mp rfl
    have small := precise.capacity_lt
    simp only [if_true] at used remaining
    have word : n + permits.toNat < UInt64.size := by
      simp only [UInt64.size]
      omega
    have inUse : (max usage.used 0).ceil.toUInt64 = UInt64.ofNat (n + permits.toNat) := by
      apply UInt64.toNat_inj.mp
      rw [used.max_zero.ceil.toNat_toUInt64 word, UInt64.toNat_ofNat_of_lt' word]
    have shape : verdict limiter permits now true (some usage) =
        match limiter.throttle? with
        | none => Decision.allow limiter usage.remaining usage.resetAt
        | some throttle => (Decision.allow limiter usage.remaining usage.resetAt).withDelay
            (throttle.delayFor (UInt64.ofNat (n + permits.toNat)) limiter.capacity) := by
      rw [← inUse, ← limit]
      rfl
    have shown : limiter.capacity.toNat - (n + permits.toNat) = limiter.capacity.toNat - n - permits.toNat :=
      (Nat.sub_sub ..).symm
    rw [shape]
    cases throttle : limiter.throttle? with
    | none => exact ⟨fits, fun _ => remaining.trans shown, fun _ => by rw [throttle]; rfl, nofun⟩
    | some throttle' => exact ⟨fits, fun _ => remaining.trans shown, fun _ => by rw [throttle]; rfl, nofun⟩

/-- One request of a key with some permits in use. -/
theorem acquire_holds (precise : limiter.Exact)
    (outlives : engine.store.clock < engine.store.clock.after limiter.ttl)
    (charged : chargedKey limiter (engine.resolve context) = key) (positive : 1 ≤ permits.toNat)
    (holds : engine.store.Holds limiter key n) :
    let outcome := engine.acquire context limiter permits
    Decision.Tells limiter n permits outcome.decision ∧
      outcome.engine.store.clock = engine.store.clock ∧ outcome.engine.resolver = engine.resolver ∧
      outcome.engine.store.Holds limiter key (if outcome.decision.allowed then n + permits.toNat else n) := by
  obtain ⟨clock, fits, meter, shown, used⟩ := MemoryStore.charge_holds precise outlives holds permits
  obtain ⟨usage, read, whole, limit, remaining⟩ := Meter.usage?_used precise used
  generalize answer : engine.store.charge key limiter permits engine.store.clock = charge at *
  have checked : check engine.store key limiter permits = ⟨.ok (verdict limiter permits engine.store.clock
      charge.allowed (some usage), some usage), [], charge.state⟩ := by
    have visible : usageRead limiter engine.store.clock (.ok (charge.state.meter? key)) = some usage := by
      rw [shown]
      exact read
    rw [check_memory, answer]
    simp only [visible]
  have told : Decision.Tells limiter n permits
      (verdict limiter permits engine.store.clock charge.allowed (some usage)) :=
    tells_verdict precise (fits positive) whole limit remaining
  have same : (verdict limiter permits engine.store.clock charge.allowed (some usage)).allowed = charge.allowed :=
    (verdict_spec ..).1
  intro outcome
  have decision : outcome.decision = verdict limiter permits engine.store.clock charge.allowed (some usage) ∧
      outcome.engine = { engine with store := charge.state } := by
    simp only [outcome, acquire, meterName_eq, charged, checked, and_self]
  rw [decision.1, decision.2, same]
  exact ⟨told, clock, rfl, MemoryStore.holds_of_used clock shown used⟩

theorem serve_holds (precise : limiter.Exact)
    (outlives : engine.store.clock < engine.store.clock.after limiter.ttl) (requests : List (C × UInt64))
    (keys : ∀ request ∈ requests, chargedKey limiter (engine.resolve request.1) = key)
    (positive : ∀ request ∈ requests, 1 ≤ request.2.toNat) (holds : engine.store.Holds limiter key n) :
    (engine.serve limiter requests).map (·.permits) = requests.map (·.2) ∧
      (engine.serve limiter requests).map (·.decision.allowed) =
        fitting limiter.capacity.toNat n (requests.map (·.2)) ∧
      ∀ before served after, engine.serve limiter requests = before ++ served :: after →
        served.decision.Tells limiter (n + granted before) served.permits := by
  induction requests generalizing engine n with
  | nil =>
    refine ⟨rfl, rfl, fun before served after cut => ?_⟩
    exact absurd cut.symm (List.append_ne_nil_of_right_ne_nil before (List.cons_ne_nil served after))
  | cons request rest ih =>
    obtain ⟨context, permits⟩ := request
    obtain ⟨told, clock, resolver, next⟩ := acquire_holds precise outlives
      (keys _ (List.mem_cons_self ..)) (positive _ (List.mem_cons_self ..)) holds
    have resolves := resolve_congr resolver
    rw [← clock] at outlives
    obtain ⟨permits', verdicts, tells⟩ := ih outlives
      (fun later member => by rw [resolves]; exact keys later (List.mem_cons_of_mem _ member))
      (fun later member => positive later (List.mem_cons_of_mem _ member)) next
    have fits : (engine.acquire context limiter permits).decision.allowed =
        decide (n + permits.toNat ≤ limiter.capacity.toNat) :=
      Bool.eq_iff_iff.mpr (told.allowed.trans decide_eq_true_iff.symm)
    refine ⟨?_, ?_, ?_⟩
    · rw [serve, List.map_cons, List.map_cons, permits']
    · rw [serve, List.map_cons, List.map_cons, verdicts, fitting, fits]
    · intro before served after cut
      rw [serve] at cut
      cases before with
      | nil =>
        obtain ⟨rfl, -⟩ := List.cons.inj cut
        exact told
      | cons first before =>
        obtain ⟨rfl, later⟩ := List.cons.inj cut
        have rest := tells before served after later
        rw [granted]
        split_ifs at rest ⊢ with allowed
        · rwa [Nat.add_assoc] at rest
        · rwa [Nat.zero_add]

theorem AtInstant.serve {requests : List (C × UInt64)} (instant : AtInstant limiter key engine requests) :
    (engine.serve limiter requests).map (·.permits) = requests.map (·.2) ∧
      (engine.serve limiter requests).map (·.decision.allowed) =
        fitting limiter.capacity.toNat 0 (requests.map (·.2)) ∧
      ∀ before served after, engine.serve limiter requests = before ++ served :: after →
        served.decision.Tells limiter (granted before) served.permits := by
  obtain ⟨draft, built⟩ := instant.built
  obtain ⟨permits, verdicts, tells⟩ := serve_holds (Limiter.exact_of_build built instant.capacity)
    (MemoryStore.outlives instant.early instant.window) requests instant.keys instant.permits
    (MemoryStore.holds_fresh limiter instant.fresh)
  refine ⟨permits, verdicts, fun before served after cut => ?_⟩
  have told := tells before served after cut
  rwa [Nat.zero_add] at told

/-- While the clock of a memory store stands still, a request for a fresh key is allowed exactly if its
permits fit into the capacity with those granted before. The verdicts depend on nothing but the capacity
and the permits, and of single permits as many are granted as the capacity has. -/
theorem serve_at_instant {requests : List (C × UInt64)} (instant : AtInstant limiter key engine requests) :
    let log := engine.serve limiter requests
    log.map (·.permits) = requests.map (·.2) ∧
      (∀ before served after, log = before ++ served :: after →
        served.decision.Tells limiter (granted before) served.permits) ∧
      (∀ {D : Type} {other : Limiter} {otherKey : String} {otherEngine : Engine MemoryStore D}
        {otherRequests : List (D × UInt64)}, AtInstant other otherKey otherEngine otherRequests →
          other.capacity = limiter.capacity → otherRequests.map (·.2) = requests.map (·.2) →
            (otherEngine.serve other otherRequests).map (·.decision.allowed) =
              log.map (·.decision.allowed)) ∧
      ((∀ request ∈ requests, request.2 = 1) →
        log.countP (·.decision.allowed) = min requests.length limiter.capacity.toNat) := by
  intro log
  obtain ⟨permits, verdicts, tells⟩ := instant.serve
  refine ⟨permits, tells, ?_, ?_⟩
  · intro D other otherKey otherEngine otherRequests otherInstant capacity same
    rw [otherInstant.serve.2.1, verdicts, capacity, same]
  · intro ones
    have single := countP_fitting_ones limiter.capacity.toNat 0 (requests.map (·.2)) (by
      intro permits member
      obtain ⟨request, inside, rfl⟩ := List.mem_map.mp member
      exact ones request inside)
    rw [← verdicts, List.countP_map, List.length_map, Nat.sub_zero] at single
    exact single

/-- Three requests for two permits a second, under either algorithm. -/
theorem serve_two_at_instant :
    let bucket : Limiter :=
      { name := "api", algorithm := .tokenBucket, requests := 2, window := .ofSeconds 1,
        failStrategy := .failOpen, capacity := 2, refillRate := 2, throttle? := none }
    let window : Limiter := { bucket with algorithm := .slidingWindow }
    let engine : Engine MemoryStore Unit := { store := { clock := 5 }, resolver := fun _ => .ok "key" }
    let requests : List (Unit × UInt64) := [((), 1), ((), 1), ((), 1)]
    let key := chargedKey bucket (engine.resolve ())
    AtInstant bucket key engine requests ∧ AtInstant window key engine requests ∧
      (engine.serve bucket requests).countP (·.decision.allowed) = 2 ∧
      (engine.serve window requests).map (·.decision.allowed) =
        (engine.serve bucket requests).map (·.decision.allowed) := by
  intro bucket window engine requests key
  have bucketBuilt : Limiter.tokenBucket "api" 2 (.ofSeconds 1) = .ok bucket := by decide +kernel
  have windowBuilt : Limiter.slidingWindow "api" 2 (.ofSeconds 1) = .ok window := by decide +kernel
  have fresh : engine.store.meter? key = none := by simp [engine, MemoryStore.meter?]
  have single : ∀ request ∈ requests, request.2 = 1 := by simp [requests]
  have positive : ∀ request ∈ requests, 1 ≤ request.2.toNat := by
    intro request member
    rw [single request member]
    exact Nat.le_refl 1
  have bucketInstant : AtInstant bucket key engine requests :=
    ⟨⟨_, bucketBuilt⟩, by decide, by decide, by decide, fresh, fun _ _ => rfl, positive⟩
  have windowInstant : AtInstant window key engine requests :=
    ⟨⟨_, windowBuilt⟩, by decide, by decide, by decide, fresh, fun _ _ => rfl, positive⟩
  obtain ⟨-, -, same, ones⟩ := serve_at_instant bucketInstant
  exact ⟨bucketInstant, windowInstant, ones single, same windowInstant rfl rfl⟩

end
end Engine
end Admission
