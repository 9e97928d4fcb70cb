import Admission.Proofs.Engine.Run
import Admission.Proofs.Store.Tiered

/-! Engines over a tiered store. Main statement: with a primary store that always fails the engine tells
what it would tell over the fallback store, and with one that always answers, under a breaker that nobody
trips, what it would tell over the primary store. -/
namespace Admission

variable {π φ C : Type}

theorem Store.Follows.check {σ ρ : Type} [Store σ] [Store ρ]
    {Tells : List MetricEvent → List MetricEvent → Prop} {Goes : σ → ρ → Prop}
    (follows : Store.Follows Tells Goes) {store : σ} {other : ρ} (goes : Goes store other) (key : String)
    (limiter : Limiter) (permits : UInt64) :
    (Engine.check store key limiter permits).result = (Engine.check other key limiter permits).result ∧
      Tells (Engine.check store key limiter permits).events (Engine.check other key limiter permits).events ∧
      Goes (Engine.check store key limiter permits).store (Engine.check other key limiter permits).store := by
  obtain ⟨time, timeTold, timed⟩ := follows.currentTime goes
  unfold Engine.check
  simp only [time]
  cases (Store.currentTime other).result with
  | error error => exact ⟨rfl, timeTold, timed⟩
  | ok now =>
    obtain ⟨verdict, chargeTold, charged⟩ := follows.acquire timed key limiter permits now
    have told := follows.append timeTold chargeTold
    simp only [verdict]
    cases (Store.acquire (Store.currentTime other).store key limiter permits now).result with
    | error error => exact ⟨rfl, told, charged⟩
    | ok allowed =>
      obtain ⟨shown, readTold, read⟩ := follows.state charged key
      simp only [shown]
      exact ⟨trivial, follows.append told readTold, read⟩

namespace Engine

open TieredStore (Event)

def Action.isAcquire {τ : Type} : Action C τ → Bool
  | .acquire .. => true
  | _ => false

def withStore {σ ρ : Type} (engine : Engine σ C) (store : ρ) : Engine ρ C :=
  ⟨store, engine.resolver, engine.registry⟩

section

variable [Store π] [Store φ] {Holds : π → Prop} {engine : Engine (TieredStore π φ) C}

theorem step_dead (fails : Store.Always Holds false) {alone : Engine φ C}
    (resolver : engine.resolver = alone.resolver) (dead : TieredStore.Dead Holds engine.store alone.store)
    (action : Action C (Event π φ)) (keeps : ∀ event, action = .event event → event.Keeps Holds) :
    (engine.step Event.befall action).report = (alone.step Event.onFallback action).report ∧
      TieredStore.Dead Holds (engine.step Event.befall action).engine.store
        (alone.step Event.onFallback action).engine.store := by
  cases action with
  | acquire context limiter permits =>
    obtain ⟨result, -, next⟩ := (TieredStore.follows_fallback fails).check dead
      (chargedKey limiter (alone.resolve context)) limiter permits
    refine ⟨acquire_congr resolver result, ?_⟩
    rw [(step_acquire Event.befall engine context limiter permits).2,
      (step_acquire Event.onFallback alone context limiter permits).2, resolve_congr resolver]
    exact next
  | reset context limiter =>
    obtain ⟨result, next⟩ := dead.reset fails (chargedKey limiter (alone.resolve context))
    refine ⟨reset_congr resolver result, ?_⟩
    rw [step_reset, step_reset, resolve_congr resolver]
    exact next
  | event event => exact ⟨rfl, dead.befall (keeps event rfl)⟩

theorem run_dead (fails : Store.Always Holds false) {alone : Engine φ C}
    (resolver : engine.resolver = alone.resolver) (dead : TieredStore.Dead Holds engine.store alone.store)
    (actions : List (Action C (Event π φ))) (keeps : ∀ event, .event event ∈ actions → event.Keeps Holds) :
    engine.run Event.befall actions = alone.run Event.onFallback actions ∧
      TieredStore.Dead Holds (engine.after Event.befall actions).store
        (alone.after Event.onFallback actions).store := by
  induction actions generalizing engine alone with
  | nil => exact ⟨rfl, dead⟩
  | cons action rest ih =>
    obtain ⟨told, next⟩ := step_dead fails resolver dead action fun event same =>
      keeps event (same ▸ List.mem_cons_self ..)
    have found := (resolver_step Event.befall engine action).trans
      (resolver.trans (resolver_step Event.onFallback alone action).symm)
    obtain ⟨later, last⟩ := ih found next fun event member => keeps event (List.mem_cons_of_mem _ member)
    rw [run, run, told, later]
    exact ⟨rfl, last⟩

/-- One action over a primary store that answers. The fallback store is only reset. -/
theorem step_healthy (alive : Store.Always Holds true) {direct : Engine π C} {spare : Engine φ C}
    (resolver : engine.resolver = direct.resolver) (spareResolver : spare.resolver = direct.resolver)
    (healthy : TieredStore.Healthy Holds spare.store engine.store direct.store)
    (action : Action C (Event π φ)) (keeps : ∀ event, action = .event event → event.Keeps Holds)
    (untripped : action ≠ .event .trip) :
    (engine.step Event.befall action).report = (direct.step Event.onPrimary action).report ∧
      (engine.step Event.befall action).storeEvents = (direct.step Event.onPrimary action).storeEvents ++
        (if action.isAcquire then [] else (spare.step Event.onFallback action).storeEvents) ∧
      TieredStore.Healthy Holds (spare.after Event.onFallback ([action].filter (!·.isAcquire))).store
        (engine.step Event.befall action).engine.store (direct.step Event.onPrimary action).engine.store := by
  cases action with
  | acquire context limiter permits =>
    obtain ⟨result, events, next⟩ := (TieredStore.follows_primary alive spare.store).check healthy
      (chargedKey limiter (direct.resolve context)) limiter permits
    obtain ⟨told, goesOn⟩ := step_acquire Event.befall engine context limiter permits
    obtain ⟨directTold, directLeft⟩ := step_acquire Event.onPrimary direct context limiter permits
    rw [resolve_congr resolver] at told goesOn
    refine ⟨acquire_congr resolver result, ?_, ?_⟩
    · rw [told, directTold, events]
      exact (List.append_nil _).symm
    · rw [goesOn, directLeft]
      exact next
  | reset context limiter =>
    obtain ⟨result, events, next⟩ := healthy.reset alive (chargedKey limiter (direct.resolve context))
    refine ⟨reset_congr resolver result, ?_, ?_⟩
    · simp only [step_reset, resolve_congr resolver, resolve_congr spareResolver]
      exact events
    · show TieredStore.Healthy Holds (spare.step Event.onFallback (.reset context limiter)).engine.store _ _
      simp only [step_reset, resolve_congr resolver, resolve_congr spareResolver]
      exact next
  | event event =>
    exact ⟨rfl, rfl, healthy.befall (keeps event rfl) fun same => untripped (same ▸ rfl)⟩

theorem run_healthy (alive : Store.Always Holds true) {direct : Engine π C} {spare : Engine φ C}
    (resolver : engine.resolver = direct.resolver) (spareResolver : spare.resolver = direct.resolver)
    (healthy : TieredStore.Healthy Holds spare.store engine.store direct.store)
    (actions : List (Action C (Event π φ))) (keeps : ∀ event, .event event ∈ actions → event.Keeps Holds)
    (untripped : .event .trip ∉ actions) :
    engine.run Event.befall actions = direct.run Event.onPrimary actions ∧
      TieredStore.Healthy Holds (spare.after Event.onFallback (actions.filter (!·.isAcquire))).store
        (engine.after Event.befall actions).store (direct.after Event.onPrimary actions).store := by
  induction actions generalizing engine direct spare with
  | nil => exact ⟨rfl, healthy⟩
  | cons action rest ih =>
    obtain ⟨told, -, next⟩ := step_healthy alive resolver spareResolver healthy action
      (fun event same => keeps event (same ▸ List.mem_cons_self ..))
      (fun same => untripped (same ▸ List.mem_cons_self ..))
    have found := resolver_step Event.onPrimary direct action
    obtain ⟨later, last⟩ := ih ((resolver_step Event.befall engine action).trans (resolver.trans found.symm))
      ((resolver_after Event.onFallback spare _).trans (spareResolver.trans found.symm)) next
      (fun event member => keeps event (List.mem_cons_of_mem _ member))
      (fun member => untripped (List.mem_cons_of_mem _ member))
    have spared : spare.after Event.onFallback ((action :: rest).filter (!·.isAcquire)) =
        (spare.after Event.onFallback ([action].filter (!·.isAcquire))).after Event.onFallback
          (rest.filter (!·.isAcquire)) := by
      rw [← List.singleton_append, List.filter_append]
      exact List.foldl_append ..
    rw [run, run, told, later, spared]
    exact ⟨rfl, last⟩

/-- Over a primary store that always fails an engine tells what it would tell over the fallback store,
whatever the breaker goes through. Over one that always answers, behind a breaker that starts closed and
that nobody trips, it tells what it would tell over the primary store: the circuit stays closed, the store
reports no more than the primary store and the resets of the fallback store do, and nothing but resets
reaches the fallback store. -/
theorem tiered_transparent (engine : Engine (TieredStore π φ) C) (actions : List (Action C (Event π φ)))
    (holds : Holds engine.store.primary) (keeps : ∀ event, .event event ∈ actions → event.Keeps Holds) :
    (Store.Always Holds false →
      engine.run Event.befall actions = (engine.withStore engine.store.fallback).run Event.onFallback actions ∧
        (engine.after Event.befall actions).store.fallback =
          ((engine.withStore engine.store.fallback).after Event.onFallback actions).store) ∧
    (Store.Always Holds true → engine.store.breaker.circuit = .closed → .event .trip ∉ actions →
      engine.run Event.befall actions = (engine.withStore engine.store.primary).run Event.onPrimary actions ∧
        ∀ before rest, actions = before ++ rest →
          let tiered := engine.after Event.befall before
          let direct := (engine.withStore engine.store.primary).after Event.onPrimary before
          let spare := (engine.withStore engine.store.fallback).after Event.onFallback
            (before.filter (!·.isAcquire))
          tiered.store.breaker.circuit = .closed ∧ tiered.store.primary = direct.store ∧
            tiered.store.fallback = spare.store ∧
            ∀ action ∈ rest.head?, (tiered.step Event.befall action).storeEvents =
              (direct.step Event.onPrimary action).storeEvents ++
                if action.isAcquire then [] else (spare.step Event.onFallback action).storeEvents) := by
  constructor
  · intro fails
    have dead : TieredStore.Dead Holds engine.store (engine.withStore engine.store.fallback).store :=
      ⟨rfl, holds⟩
    obtain ⟨told, last⟩ := run_dead fails rfl dead actions keeps
    exact ⟨told, last.fallback⟩
  · intro alive closed untripped
    have healthy : TieredStore.Healthy Holds (engine.withStore engine.store.fallback).store engine.store
        (engine.withStore engine.store.primary).store := ⟨closed, rfl, rfl, holds⟩
    have resolver : engine.resolver = (engine.withStore engine.store.primary).resolver := rfl
    have spareResolver : (engine.withStore engine.store.fallback).resolver =
        (engine.withStore engine.store.primary).resolver := rfl
    refine ⟨(run_healthy alive resolver spareResolver healthy actions keeps untripped).1, ?_⟩
    intro before rest cut tiered direct spare
    have early : ∀ action ∈ before, action ∈ actions := fun action member =>
      cut ▸ List.mem_append_left rest member
    obtain ⟨-, now⟩ := run_healthy alive resolver spareResolver healthy before
      (fun event member => keeps event (early _ member)) (fun member => untripped (early _ member))
    refine ⟨now.closed, now.primary, now.fallback, fun action next => ?_⟩
    have later : action ∈ actions := cut ▸ List.mem_append_right before (List.mem_of_mem_head? next)
    have found := resolver_after Event.onPrimary (engine.withStore engine.store.primary) before
    obtain ⟨-, events, -⟩ := step_healthy alive
      ((resolver_after Event.befall engine before).trans found.symm)
      ((resolver_after Event.onFallback (engine.withStore engine.store.fallback) _).trans found.symm) now action
      (fun event same => keeps event (same ▸ later)) (fun same => untripped (same ▸ later))
    exact events

/-- A breaker that is tripped over a primary store that is down, and resets that the fallback store cannot
do next to a primary store that can. -/
theorem tiered_transparent_of_outage :
    let limiter : Limiter :=
      { name := "api", algorithm := .tokenBucket, requests := 2, window := .ofSeconds 1,
        failStrategy := .failOpen, capacity := 2, refillRate := 2, throttle? := none }
    let settings : BreakerSettings :=
      { threshold := 1, minimumCalls := 1, window := .ofSeconds 60, recovery := .ofSeconds 30, jitter := .none
        maxProbes := 1 }
    let breaker : Breaker := .create "l1" settings (.ofList []) 5
    let memory : MemoryStore := { clock := 5 }
    let fault := StoreError.unavailable "down"
    let down : FaultyStore MemoryStore :=
      { inner := memory, faults := [(.currentTime, fault), (.acquire, fault), (.reset, fault), (.state, fault)] }
    let dead : Engine (TieredStore (FaultyStore MemoryStore) MemoryStore) Unit :=
      { store := ⟨down, memory, breaker, 5⟩, resolver := fun _ => .ok "key" }
    let alive : Engine (TieredStore MemoryStore (FaultyStore MemoryStore)) Unit :=
      { store := ⟨memory, down, breaker, 5⟩, resolver := fun _ => .ok "key" }
    let tripping : List (Action Unit (Event (FaultyStore MemoryStore) MemoryStore)) :=
      [.acquire () limiter 1, .event .trip, .acquire () limiter 2, .event (.clock 60000), .reset () limiter]
    let resetting : List (Action Unit (Event MemoryStore (FaultyStore MemoryStore))) :=
      [.acquire () limiter 1, .reset () limiter, .event (.clock 60000), .acquire () limiter 2]
    down.Down ∧ alive.store.breaker.circuit = .closed ∧
      dead.run Event.befall tripping = (dead.withStore memory).run Event.onFallback tripping ∧
      alive.run Event.befall resetting = (alive.withStore memory).run Event.onPrimary resetting := by
  intro limiter settings breaker memory fault down dead alive tripping resetting
  have isDown : down.Down := by
    intro operation
    cases operation with
    | currentTime => exact ⟨fault, rfl⟩
    | acquire => exact ⟨fault, rfl⟩
    | reset => exact ⟨fault, rfl⟩
    | state => exact ⟨fault, rfl⟩
  have closed : alive.store.breaker.circuit = .closed := Breaker.circuit_create ..
  have trippingKeeps : ∀ event, .event event ∈ tripping → event.Keeps FaultyStore.Down := by
    intro event member
    have cases : event = .trip ∨ event = .clock 60000 := by simpa [tripping] using member
    rcases cases with rfl | rfl
    · trivial
    · trivial
  have resettingKeeps : ∀ event, .event event ∈ resetting → event.Keeps fun _ : MemoryStore => True := by
    intro event member
    have only : event = .clock 60000 := by simpa [resetting] using member
    subst only
    trivial
  have untripped : .event .trip ∉ resetting := by simp [resetting]
  refine ⟨isDown, closed, ?_, ?_⟩
  · exact ((tiered_transparent dead tripping isDown trippingKeeps).1 FaultyStore.always_down).1
  · exact ((tiered_transparent alive resetting trivial resettingKeeps).2 MemoryStore.always closed untripped).1

end
end Engine
end Admission
