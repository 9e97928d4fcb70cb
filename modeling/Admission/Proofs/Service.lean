import Admission.Proofs.Engine.Run
import Admission.Proofs.Store.Standing
import Admission.Service

/-! Services behind an engine. Main statement: whatever the services do, exactly the requests that the engine
allows reach them, each once and after the wait that is asked for, and so what reaches them of one key is within
the capacity while the clock of a memory store stands still. -/
namespace Admission.Gate

/-- A request that comes to a service behind a gate. Each may come to a service of its own. -/
structure Arrival (ι Req Res ε : Type) where
  service : Service ι Req Res ε
  inner : ι
  request : Req

section

variable {σ ι Req Res ε : Type} [Store σ]

def passage (gate : Gate Req) (engine : Engine σ Req) (arrival : Arrival ι Req Res ε) : Passage σ ι Req Res ε :=
  gate.pass arrival.service engine arrival.inner arrival.request

/-- Lets requests through one after the other. The services have nothing but the engine in common. -/
def passEach (gate : Gate Req) (engine : Engine σ Req) :
    List (Arrival ι Req Res ε) → List (Passage σ ι Req Res ε)
  | [] => []
  | arrival :: rest => gate.passage engine arrival :: passEach gate (gate.passage engine arrival).engine rest

def engineAfter (gate : Gate Req) (engine : Engine σ Req) (arrivals : List (Arrival ι Req Res ε)) :
    Engine σ Req :=
  arrivals.foldl (fun engine arrival => (gate.passage engine arrival).engine) engine

/-- Requests that come to one and the same service are such requests. -/
theorem exists_arrivals (gate : Gate Req) (service : Service ι Req Res ε) (engine : Engine σ Req) (inner : ι)
    (requests : List Req) :
    ∃ arrivals : List (Arrival ι Req Res ε), arrivals.map (·.request) = requests ∧
      (∀ arrival ∈ arrivals, arrival.service = service) ∧
      gate.passAll service engine inner requests = gate.passEach engine arrivals := by
  induction requests generalizing engine inner with
  | nil => exact ⟨[], rfl, by simp, rfl⟩
  | cons request rest ih =>
    let first : Arrival ι Req Res ε := ⟨service, inner, request⟩
    obtain ⟨arrivals, same, served, passed⟩ :=
      ih (gate.passage engine first).engine (gate.passage engine first).inner
    refine ⟨first :: arrivals, congrArg (request :: ·) same, ?_, congrArg (gate.passage engine first :: ·) passed⟩
    exact List.forall_mem_cons.mpr ⟨rfl, served⟩

/-- What becomes of a request that comes to a gate. -/
structure Handled (gate : Gate Req) (engine : Engine σ Req) (arrival : Arrival ι Req Res ε)
    (passage : Passage σ ι Req Res ε) : Prop where
  unready : ∀ error, (arrival.service.ready arrival.inner).1 = .error error →
    passage.result = .error (.inner error) ∧ passage.events = [] ∧ passage.outcome? = none ∧
      passage.engine = engine
  decided : (arrival.service.ready arrival.inner).1 = .ok () →
    ∃ outcome, outcome = engine.acquire arrival.request gate.limiter (gate.cost arrival.request) ∧
      passage.outcome? = some outcome ∧ passage.engine = outcome.engine
  allowed : ∀ outcome ∈ passage.outcome?, outcome.decision.allowed = true →
    passage.events =
        (if 0 < outcome.decision.delayMillis then [.waited outcome.decision.delay] else []) ++
          [.called arrival.request] ∧
      (passage.result, passage.inner) =
        ((arrival.service.call (arrival.service.ready arrival.inner).2 arrival.request).1.mapError .inner,
          (arrival.service.call (arrival.service.ready arrival.inner).2 arrival.request).2)
  denied : ∀ outcome ∈ passage.outcome?, outcome.decision.allowed = false →
    passage.result = .error (.rejected outcome.decision) ∧ passage.events = [] ∧
      passage.inner = (arrival.service.ready arrival.inner).2

variable {gate : Gate Req} {engine : Engine σ Req} {arrival : Arrival ι Req Res ε}

private theorem waits_eq (decision : Decision) :
    (waits decision : List (Event Req)) = if 0 < decision.delayMillis then [.waited decision.delay] else [] := by
  unfold waits
  simp only [UInt64.pos_iff_ne_zero, ite_not]

private theorem passage_of_unready {error : ε}
    (ready : (arrival.service.ready arrival.inner).1 = .error error) :
    gate.passage engine arrival =
      { result := .error (.inner error), events := [], outcome? := none, engine
        inner := (arrival.service.ready arrival.inner).2 } := by
  unfold passage pass
  generalize arrival.service.ready arrival.inner = answer at ready ⊢
  obtain ⟨_, inner⟩ := answer
  cases ready
  rfl

private theorem passage_of_ready (ready : (arrival.service.ready arrival.inner).1 = .ok ()) :
    let outcome := engine.acquire arrival.request gate.limiter (gate.cost arrival.request)
    let inner := (arrival.service.ready arrival.inner).2
    gate.passage engine arrival =
      if outcome.decision.allowed then
        { result := (arrival.service.call inner arrival.request).1.mapError .inner
          events := waits outcome.decision ++ [.called arrival.request], outcome? := some outcome
          engine := outcome.engine, inner := (arrival.service.call inner arrival.request).2 }
      else
        { result := .error (.rejected outcome.decision), events := [], outcome? := some outcome
          engine := outcome.engine, inner } := by
  unfold passage pass
  generalize arrival.service.ready arrival.inner = answer at ready ⊢
  obtain ⟨_, inner⟩ := answer
  cases ready
  rfl

theorem handled_passage (gate : Gate Req) (engine : Engine σ Req) (arrival : Arrival ι Req Res ε) :
    Handled gate engine arrival (gate.passage engine arrival) := by
  cases ready : (arrival.service.ready arrival.inner).1 with
  | error error =>
    rw [passage_of_unready ready]
    constructor
    case unready => exact fun other same => ⟨by rw [Except.error.inj (ready.symm.trans same)], rfl, rfl, rfl⟩
    case decided => exact fun ok => absurd (ready.symm.trans ok) nofun
    case allowed => exact nofun
    case denied => exact nofun
  | ok =>
    rw [passage_of_ready ready]
    generalize found : engine.acquire arrival.request gate.limiter (gate.cost arrival.request) = outcome
    cases allowed : outcome.decision.allowed with
    | true =>
      rw [if_pos rfl]
      constructor
      case unready => exact fun error same => absurd (ready.symm.trans same) nofun
      case decided => exact fun _ => ⟨outcome, found.symm, rfl, rfl⟩
      case allowed =>
        rintro _ ⟨⟩ -
        exact ⟨congrArg (· ++ [.called arrival.request]) (waits_eq outcome.decision), rfl⟩
      case denied =>
        rintro _ ⟨⟩ denied
        exact absurd (allowed.symm.trans denied) nofun
    | false =>
      rw [if_neg Bool.false_ne_true]
      constructor
      case unready => exact fun error same => absurd (ready.symm.trans same) nofun
      case decided => exact fun _ => ⟨outcome, found.symm, rfl, rfl⟩
      case allowed =>
        rintro _ ⟨⟩ granted
        exact absurd (allowed.symm.trans granted) nofun
      case denied =>
        rintro _ ⟨⟩ -
        exact ⟨rfl, rfl, rfl⟩

theorem handled_passEach (gate : Gate Req) (engine : Engine σ Req) (before : List (Arrival ι Req Res ε))
    (arrival : Arrival ι Req Res ε) (after : List (Arrival ι Req Res ε)) :
    ∃ passage, (gate.passEach engine (before ++ arrival :: after))[before.length]? = some passage ∧
      Handled gate (gate.engineAfter engine before) arrival passage := by
  induction before generalizing engine with
  | nil => exact ⟨_, rfl, handled_passage gate engine arrival⟩
  | cons first before ih => exact ih (gate.passage engine first).engine

end

/-- What the requests of a key that reached their services have cost. -/
def reachedCost {σ ι Req Res ε : Type} (gate : Gate Req) (engine : Engine σ Req) (key : String)
    (passages : List (Passage σ ι Req Res ε)) : Nat :=
  (((passages.flatMap Passage.reached).filter fun request =>
    Engine.chargedKey gate.limiter (engine.resolve request) = key).map
      fun request => (gate.cost request).toNat).sum

section

variable {ι Req Res ε : Type} {gate : Gate Req} {engine : Engine MemoryStore Req} {key : String} {n : Nat}

private theorem reachedCost_cons {σ : Type} (gate : Gate Req) (engine : Engine σ Req) (key : String)
    (passage : Passage σ ι Req Res ε) (rest : List (Passage σ ι Req Res ε)) :
    reachedCost gate engine key (passage :: rest) =
      reachedCost gate engine key [passage] + reachedCost gate engine key rest := by
  unfold reachedCost
  rw [List.flatMap_cons, List.filter_append, List.map_append, List.sum_append, List.flatMap_cons, List.flatMap_nil,
    List.append_nil]

private theorem reachedCost_none {σ : Type} {engine : Engine σ Req} {passage : Passage σ ι Req Res ε}
    (events : passage.events = []) : reachedCost gate engine key [passage] = 0 := by
  simp [reachedCost, Passage.reached, events]

private theorem reachedCost_one {σ : Type} {engine : Engine σ Req}
    {passage : Passage σ ι Req Res ε} {decision : Decision}
    {request : Req} (events : passage.events = waits decision ++ [.called request]) :
    reachedCost gate engine key [passage] =
      if Engine.chargedKey gate.limiter (engine.resolve request) = key then (gate.cost request).toNat else 0 := by
  have reached : passage.reached = [request] := by
    unfold Passage.reached waits at *
    rw [events]
    split_ifs <;> rfl
  rw [reachedCost, List.flatMap_singleton, reached]
  split_ifs with own
  · simp [own]
  · simp [own]

/-- A request costs what the store grants to it, and nothing if its service is not ready. -/
private theorem reachedCost_passage (gate : Gate Req) (engine : Engine MemoryStore Req) (key : String)
    (arrival : Arrival ι Req Res ε) :
    let passage := gate.passage engine arrival
    let charged := Engine.chargedKey gate.limiter (engine.resolve arrival.request)
    let charge := engine.store.charge charged gate.limiter (gate.cost arrival.request) engine.store.clock
    (reachedCost gate engine key [passage] = 0 ∧ passage.engine = engine) ∨
      reachedCost gate engine key [passage] =
          (if charge.allowed ∧ charged = key then (gate.cost arrival.request).toNat else 0) ∧
        passage.engine = { engine with store := charge.state } := by
  intro passage charged charge
  have handled : Handled gate engine arrival passage := handled_passage gate engine arrival
  cases ready : (arrival.service.ready arrival.inner).1 with
  | error error =>
    obtain ⟨-, events, -, same⟩ := handled.unready error ready
    exact .inl ⟨reachedCost_none events, same⟩
  | ok =>
    obtain ⟨outcome, found, decided, goesOn⟩ := handled.decided ready
    obtain ⟨granted, next⟩ := Engine.acquire_memory engine arrival.request gate.limiter (gate.cost arrival.request)
    rw [← found] at granted next
    refine .inr ⟨?_, goesOn.trans next⟩
    cases allowed : charge.allowed with
    | true =>
      obtain ⟨events, -⟩ := handled.allowed outcome decided (granted.trans allowed)
      rw [← waits_eq] at events
      rw [reachedCost_one events]
      simp only [true_and, charged]
    | false =>
      obtain ⟨-, events, -⟩ := handled.denied outcome decided (granted.trans allowed)
      rw [reachedCost_none events]
      simp only [Bool.false_eq_true, false_and, if_false]

/-- What reaches the services is spent, and what is spent is within the capacity. -/
theorem add_reachedCost_le (precise : gate.limiter.Exact) (arrivals : List (Arrival ι Req Res ε))
    (outlives : engine.store.clock < engine.store.clock.after gate.limiter.ttl)
    (spent : engine.store.Spent gate.limiter key n) :
    n + reachedCost gate engine key (gate.passEach engine arrivals) ≤ gate.limiter.capacity.toNat := by
  induction arrivals generalizing engine n with
  | nil => exact spent.le precise
  | cons arrival rest ih =>
    rw [passEach, reachedCost_cons]
    rcases reachedCost_passage gate engine key arrival with ⟨nothing, same⟩ | ⟨cost, next⟩
    · rw [nothing, same, Nat.zero_add]
      exact ih outlives spent
    · let charged := Engine.chargedKey gate.limiter (engine.resolve arrival.request)
      let charge := engine.store.charge charged gate.limiter (gate.cost arrival.request) engine.store.clock
      let left : Engine MemoryStore Req := { engine with store := charge.state }
      have later : (if charge.allowed ∧ charged = key then n + (gate.cost arrival.request).toNat else n) +
          reachedCost gate left key (gate.passEach left rest) ≤ gate.limiter.capacity.toNat :=
        ih outlives (spent.charge precise outlives charged (gate.cost arrival.request))
      -- Keys are found by the resolver, and no charge changes it.
      have same : reachedCost gate engine key (gate.passEach left rest) =
          reachedCost gate left key (gate.passEach left rest) := rfl
      rw [cost, next, same]
      split_ifs at later ⊢ <;> omega

/-- Each request is handled as the engine decides about it after those before it: if it is allowed it reaches
its service once, after the wait that is asked for, and the answer is passed on, and if it is denied it does
not. So while the clock of a memory store stands still, what reaches the services of one key costs no more than
the capacity, whatever was kept before. -/
theorem admits_what_engine_allows {σ : Type} [Store σ] (gate : Gate Req) (engine : Engine σ Req)
    (frozen : Engine MemoryStore Req) (arrivals : List (Arrival ι Req Res ε)) :
    (∀ before arrival after, arrivals = before ++ arrival :: after →
      ∃ passage, (gate.passEach engine arrivals)[before.length]? = some passage ∧
        Handled gate (gate.engineAfter engine before) arrival passage) ∧
      ((∃ draft : Limiter.Draft, draft.build = .ok gate.limiter) → .ofMillis 1 ≤ gate.limiter.window →
        gate.limiter.capacity.toNat < 2 ^ 53 → frozen.store.clock < Timestamp.last →
        ∀ key, reachedCost gate frozen key (gate.passEach frozen arrivals) ≤ gate.limiter.capacity.toNat) := by
  constructor
  · rintro before arrival after rfl
    exact handled_passEach gate engine before arrival after
  · rintro ⟨draft, built⟩ long small early key
    have precise := Limiter.exact_of_build built small
    have within := add_reachedCost_le precise arrivals (MemoryStore.outlives early long)
      (MemoryStore.spent_zero precise key frozen.store)
    rwa [Nat.zero_add] at within

/-- Two requests of one key and a limiter of one permit a second. The service fails whenever it is called. -/
theorem admits_what_engine_allows_failing :
    let gate : Gate String := { limiter := Limiter.single "api" }
    let engine : Engine MemoryStore String := { store := { clock := 0 }, resolver := fun key => .ok key }
    let failing : Service Unit String Unit Unit :=
      { ready := fun inner => (.ok (), inner), call := fun inner _ => (.error (), inner) }
    let arrivals : List (Arrival Unit String Unit Unit) := [⟨failing, (), "user"⟩, ⟨failing, (), "user"⟩]
    reachedCost gate engine "api:user" (gate.passEach engine arrivals) ≤ 1 := by
  intro gate engine failing arrivals
  obtain ⟨-, within⟩ := admits_what_engine_allows gate engine engine arrivals
  exact within (Limiter.single_built (by decide +kernel)) (by decide) (by decide) (by decide) "api:user"

end
end Admission.Gate
