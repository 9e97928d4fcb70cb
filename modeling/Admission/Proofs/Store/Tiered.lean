import Admission.Proofs.Breaker.Effect
import Admission.Store.Faulty
import Admission.Store.Memory
import Admission.Store.Tiered

namespace Admission

variable {π φ α : Type}

/-- The reply succeeds, or does not, and leaves a store of some kind. -/
def Reply.Answers (Holds : π → Prop) (ok : Bool) (reply : Reply α π) : Prop :=
  reply.result.isOk = ok ∧ Holds reply.store

/-- A store of some kind whose operations all succeed, or all fail, and keep it of that kind. -/
structure Store.Always [Store π] (Holds : π → Prop) (ok : Bool) : Prop where
  currentTime : ∀ store, Holds store → (Store.currentTime store).Answers Holds ok
  acquire : ∀ store key limiter permits now, Holds store →
    (Store.acquire store key limiter permits now).Answers Holds ok
  reset : ∀ store key, Holds store → (Store.reset store key).Answers Holds ok
  state : ∀ store key, Holds store → (Store.state store key).Answers Holds ok

/-- One reply gives the answer of another, tells about as much, and leaves a store that goes with the
other's. -/
structure Reply.Follows {α σ ρ : Type} (Tells : List MetricEvent → List MetricEvent → Prop)
    (Goes : σ → ρ → Prop) (reply : Reply α σ) (other : Reply α ρ) : Prop where
  result : reply.result = other.result
  events : Tells reply.events other.events
  store : Goes reply.store other.store

/-- A store that answers requests as another one does, as long as the two go together. -/
structure Store.Follows {σ ρ : Type} [Store σ] [Store ρ] (Tells : List MetricEvent → List MetricEvent → Prop)
    (Goes : σ → ρ → Prop) : Prop where
  append : ∀ {told other later others}, Tells told other → Tells later others →
    Tells (told ++ later) (other ++ others)
  currentTime : ∀ {store other}, Goes store other →
    (Store.currentTime store).Follows Tells Goes (Store.currentTime other)
  acquire : ∀ {store other}, Goes store other → ∀ key limiter permits now,
    (Store.acquire store key limiter permits now).Follows Tells Goes (Store.acquire other key limiter permits now)
  state : ∀ {store other}, Goes store other → ∀ key,
    (Store.state store key).Follows Tells Goes (Store.state other key)

/-- What befalls a tiered store between requests: to a clock, to one of its stores, or to its breaker. -/
inductive TieredStore.Event (π φ : Type)
  | clock (now : Timestamp)
  | primary (change : π → π)
  | fallback (change : φ → φ)
  | trip
  | close

namespace TieredStore.Event

def befall : Event π φ → TieredStore π φ → TieredStore π φ
  | clock now, store => { store with clock := now }
  | primary change, store => { store with primary := change store.primary }
  | fallback change, store => { store with fallback := change store.fallback }
  | trip, store => { store with breaker := (store.breaker.trip store.clock).1 }
  | close, store => { store with breaker := (store.breaker.reset store.clock).1 }

/-- The same for the primary store alone. -/
def onPrimary : Event π φ → π → π
  | primary change, store => change store
  | _, store => store

def onFallback : Event π φ → φ → φ
  | fallback change, store => change store
  | _, store => store

/-- What befalls the primary store keeps it of a kind. -/
def Keeps (Holds : π → Prop) : Event π φ → Prop
  | primary change => ∀ store, Holds store → Holds (change store)
  | _ => True

end TieredStore.Event

namespace TieredStore

variable {store : TieredStore π φ} {call : π → Reply α π} {Holds : π → Prop}

/-- The breaker refuses a call of the primary store, or the primary store is called once. -/
inductive Called (store : TieredStore π φ) (call : π → Reply α π) : Guarded π φ α → Prop
  | refused (refusal : Refusal) (before : Option Transition) (breaker : Breaker) :
    Called store call ⟨.error (.refused refusal), store.transitionEvents before, { store with breaker }⟩
  | made (before after : Option Transition) (breaker : Breaker) :
    Called store call ⟨(call store.primary).result.mapError .inner,
      store.transitionEvents before ++ (call store.primary).events ++ store.transitionEvents after,
      { store with primary := (call store.primary).store, breaker }⟩

private theorem called (store : TieredStore π φ) (call : π → Reply α π) :
    Called store call (store.callPrimary call) := by
  unfold callPrimary
  cases entered : (store.breaker.enter store.clock).result with
  | error refusal =>
    simp only [entered]
    exact .refused ..
  | ok permit =>
    simp only [entered]
    exact .made ..

private theorem callPrimary_dead (holds : Holds store.primary)
    (dead : (call store.primary).Answers Holds false) :
    (∃ cause, (store.callPrimary call).result = .error cause) ∧
      (store.callPrimary call).store.fallback = store.fallback ∧
      Holds (store.callPrimary call).store.primary := by
  have called := store.called call
  generalize store.callPrimary call = guarded at called ⊢
  cases called with
  | refused refusal before breaker => exact ⟨⟨_, rfl⟩, rfl, holds⟩
  | made before after breaker =>
    refine ⟨?_, rfl, dead.2⟩
    cases failed : (call store.primary).result with
    | error error => exact ⟨_, rfl⟩
    | ok value =>
      have wrong := dead.1
      rw [failed] at wrong
      cases wrong

private theorem callPrimary_healthy (closed : store.breaker.circuit = .closed)
    (healthy : (call store.primary).result.isOk = true) :
    ∃ breaker : Breaker, breaker.circuit = .closed ∧ store.callPrimary call =
      ⟨(call store.primary).result.mapError .inner, (call store.primary).events,
        { store with primary := (call store.primary).store, breaker }⟩ := by
  have stays : (store.breaker.count true store.clock).1.circuit = .closed := by
    rw [Breaker.count_eq closed, if_neg (by simp)]
    exact (BreakerWord.circuit_unpack_pack _).trans (Breaker.circuit_counted closed true)
  refine ⟨_, stays, ?_⟩
  unfold callPrimary
  simp only [Breaker.enter_closed closed, healthy, Breaker.record_closed closed, Breaker.release]
  simp [transitionEvents, Breaker.count]

/-- Who answers: the primary store, or else the fallback store, and then the cause is reported. -/
inductive Answered (store : TieredStore π φ) (operation : StoreOperation) (call : π → Reply α π)
    (fallback : φ → Reply α φ) : Reply α (TieredStore π φ) → Prop
  | primary (value : α) (said : (call store.primary).result = .ok value) (before after : Option Transition)
      (breaker : Breaker) : Answered store operation call fallback
    ⟨.ok value, store.transitionEvents before ++ (call store.primary).events ++ store.transitionEvents after,
      { store with primary := (call store.primary).store, breaker }⟩
  | refused (refusal : Refusal) (before : Option Transition) (breaker : Breaker) :
    Answered store operation call fallback
      ⟨(fallback store.fallback).result, store.transitionEvents before ++
          .fallback operation refusal.message :: (fallback store.fallback).events,
        { store with fallback := (fallback store.fallback).store, breaker }⟩
  | failed (error : StoreError) (said : (call store.primary).result = .error error)
      (before after : Option Transition) (breaker : Breaker) : Answered store operation call fallback
    ⟨(fallback store.fallback).result, (store.transitionEvents before ++ (call store.primary).events ++
        store.transitionEvents after) ++ .fallback operation error.message :: (fallback store.fallback).events,
      { store with
        primary := (call store.primary).store, fallback := (fallback store.fallback).store, breaker }⟩

theorem answered (store : TieredStore π φ) (operation : StoreOperation) (call : π → Reply α π)
    (fallback : φ → Reply α φ) :
    Answered store operation call fallback (store.answer operation call fallback) := by
  have called := store.called call
  unfold answer
  generalize store.callPrimary call = guarded at called ⊢
  cases called with
  | refused refusal before breaker => exact .refused refusal before breaker
  | made before after breaker =>
    cases said : (call store.primary).result with
    | ok value => exact .primary value said before after breaker
    | error error => exact .failed error said before after breaker

private theorem answer_dead (operation : StoreOperation) {fallback : φ → Reply α φ}
    (holds : Holds store.primary) (dead : (call store.primary).Answers Holds false) :
    let reply := store.answer operation call fallback
    reply.result = (fallback store.fallback).result ∧
      reply.store.fallback = (fallback store.fallback).store ∧ Holds reply.store.primary := by
  obtain ⟨⟨cause, failed⟩, same, holds⟩ := callPrimary_dead holds dead
  unfold answer
  simp only [failed, same]
  exact ⟨trivial, trivial, holds⟩

/-- A primary store that answers behind a closed circuit leaves nothing to the fallback store. -/
theorem answer_healthy (operation : StoreOperation) {fallback : φ → Reply α φ}
    (closed : store.breaker.circuit = .closed) (healthy : (call store.primary).result.isOk = true) :
    ∃ breaker : Breaker, breaker.circuit = .closed ∧ store.answer operation call fallback =
      ⟨(call store.primary).result, (call store.primary).events,
        { store with primary := (call store.primary).store, breaker }⟩ := by
  obtain ⟨breaker, stays, called⟩ := callPrimary_healthy closed healthy
  refine ⟨breaker, stays, ?_⟩
  unfold answer
  rw [called]
  cases said : (call store.primary).result with
  | ok value => rfl
  | error error =>
    rw [said] at healthy
    cases healthy

/-- A reset that only the fallback store can do is as good as that of the fallback store. -/
private theorem resetBoth_dead (call : π → Reply Unit π) (fallback : φ → Reply Unit φ)
    (holds : Holds store.primary) (dead : (call store.primary).Answers Holds false) :
    let reply := store.resetBoth call fallback
    reply.result = (fallback store.fallback).result ∧
      reply.store.fallback = (fallback store.fallback).store ∧ Holds reply.store.primary := by
  obtain ⟨⟨cause, failed⟩, same, holds⟩ := callPrimary_dead holds dead
  unfold resetBoth
  simp only [failed, same]
  exact ⟨rfl, trivial, holds⟩

private theorem resetBoth_healthy (call : π → Reply Unit π) (fallback : φ → Reply Unit φ)
    (closed : store.breaker.circuit = .closed) (healthy : (call store.primary).result.isOk = true) :
    ∃ breaker : Breaker, breaker.circuit = .closed ∧ store.resetBoth call fallback =
      ⟨(call store.primary).result, (call store.primary).events ++ (fallback store.fallback).events,
        { store with primary := (call store.primary).store, fallback := (fallback store.fallback).store
                     breaker }⟩ := by
  obtain ⟨breaker, stays, called⟩ := callPrimary_healthy closed healthy
  refine ⟨breaker, stays, ?_⟩
  unfold resetBoth
  rw [called]
  cases said : (call store.primary).result with
  | ok value => rfl
  | error error =>
    rw [said] at healthy
    cases healthy

/-- The store goes with its fallback store, whatever its breaker does. -/
structure Dead (Holds : π → Prop) (store : TieredStore π φ) (other : φ) : Prop where
  fallback : store.fallback = other
  holds : Holds store.primary

theorem Dead.answer {other : φ} (dead : Dead Holds store other) (operation : StoreOperation)
    {fallback : φ → Reply α φ} (fails : (call store.primary).Answers Holds false) :
    (store.answer operation call fallback).Follows (fun _ _ => True) (Dead Holds) (fallback other) := by
  obtain ⟨rfl, holds⟩ := dead
  obtain ⟨result, still, held⟩ := answer_dead operation holds fails
  exact ⟨result, trivial, still, held⟩

/-- The store goes with its primary store behind a closed circuit, over an untouched fallback store. -/
structure Healthy (Holds : π → Prop) (kept : φ) (store : TieredStore π φ) (other : π) : Prop where
  closed : store.breaker.circuit = .closed
  primary : store.primary = other
  fallback : store.fallback = kept
  holds : Holds other

theorem Healthy.answer {kept : φ} {other : π} (healthy : Healthy Holds kept store other)
    (operation : StoreOperation) {fallback : φ → Reply α φ} (answers : (call other).Answers Holds true) :
    (store.answer operation call fallback).Follows Eq (Healthy Holds kept) (call other) := by
  obtain ⟨closed, rfl, rfl, holds⟩ := healthy
  obtain ⟨breaker, stays, same⟩ := answer_healthy operation closed answers.1
  rw [same]
  exact ⟨rfl, rfl, stays, rfl, rfl, answers.2⟩

theorem Dead.befall {other : φ} (dead : Dead Holds store other) {event : Event π φ}
    (keeps : event.Keeps Holds) :
    Dead Holds (event.befall store) (event.onFallback other) := by
  obtain ⟨rfl, holds⟩ := dead
  cases event with
  | clock now => exact ⟨rfl, holds⟩
  | primary change => exact ⟨rfl, keeps _ holds⟩
  | fallback change => exact ⟨rfl, holds⟩
  | trip => exact ⟨rfl, holds⟩
  | close => exact ⟨rfl, holds⟩

theorem Healthy.befall {kept : φ} {other : π} (healthy : Healthy Holds kept store other) {event : Event π φ}
    (keeps : event.Keeps Holds) (untripped : event ≠ .trip) :
    Healthy Holds (event.onFallback kept) (event.befall store) (event.onPrimary other) := by
  obtain ⟨closed, rfl, rfl, holds⟩ := healthy
  cases event with
  | clock now => exact ⟨closed, rfl, rfl, holds⟩
  | primary change => exact ⟨closed, rfl, rfl, keeps _ holds⟩
  | fallback change => exact ⟨closed, rfl, rfl, holds⟩
  | trip => exact absurd rfl untripped
  | close => exact ⟨store.breaker.circuit_closeAt store.clock, rfl, rfl, holds⟩

section

variable [Store π] [Store φ]

/-- With a primary store that fails a tiered store follows its fallback store. -/
theorem follows_fallback (fails : Store.Always Holds false) :
    Store.Follows (fun _ _ => True) (Dead (π := π) (φ := φ) Holds) := by
  constructor
  case append => exact fun _ _ => trivial
  case currentTime => exact fun dead => dead.answer .currentTime (fails.currentTime _ dead.holds)
  case acquire =>
    intro store other dead key limiter permits now
    exact dead.answer .acquire (fails.acquire _ key limiter permits now dead.holds)
  case state => exact fun dead key => dead.answer .state (fails.state _ key dead.holds)

/-- With a primary store that answers a tiered store follows it, as long as the circuit is closed. -/
theorem follows_primary (alive : Store.Always Holds true) (kept : φ) :
    Store.Follows Eq (Healthy (π := π) Holds kept) := by
  constructor
  case append =>
    rintro _ _ _ _ rfl rfl
    rfl
  case currentTime => exact fun healthy => healthy.answer .currentTime (alive.currentTime _ healthy.holds)
  case acquire =>
    intro store other healthy key limiter permits now
    exact healthy.answer .acquire (alive.acquire other key limiter permits now healthy.holds)
  case state => exact fun healthy key => healthy.answer .state (alive.state _ key healthy.holds)

theorem Dead.reset {other : φ} (dead : Dead Holds store other) (fails : Store.Always Holds false)
    (key : String) :
    (Store.reset store key).result = (Store.reset other key).result ∧
      Dead Holds (Store.reset store key).store (Store.reset other key).store := by
  obtain ⟨rfl, holds⟩ := dead
  obtain ⟨result, still, held⟩ :=
    resetBoth_dead (Store.reset · key) (Store.reset · key) holds (fails.reset _ key holds)
  exact ⟨result, still, held⟩

theorem Healthy.reset {kept : φ} {other : π} (healthy : Healthy Holds kept store other)
    (alive : Store.Always Holds true) (key : String) :
    (Store.reset store key).result = (Store.reset other key).result ∧
      (Store.reset store key).events = (Store.reset other key).events ++ (Store.reset kept key).events ∧
      Healthy Holds (Store.reset kept key).store (Store.reset store key).store
        (Store.reset other key).store := by
  obtain ⟨closed, rfl, rfl, holds⟩ := healthy
  have reset : Store.reset store key = store.resetBoth (Store.reset · key) (Store.reset · key) := rfl
  have answers := alive.reset _ key holds
  obtain ⟨breaker, stays, same⟩ := resetBoth_healthy (Store.reset · key) (Store.reset · key) closed answers.1
  rw [reset, same]
  exact ⟨rfl, rfl, stays, rfl, rfl, answers.2⟩

end

end TieredStore
namespace FaultyStore

variable {σ : Type} {store : FaultyStore σ} {operation : StoreOperation}

private theorem attempt_of_some {fault : StoreError} (found : store.faults.lookup operation = some fault)
    (run : σ → Reply α σ) :
    store.attempt operation run = { result := .error fault, store := { store with calls := store.calls + 1 } } := by
  unfold attempt
  simp only [found]

def Down (store : FaultyStore σ) : Prop :=
  ∀ operation, ∃ fault, store.faults.lookup operation = some fault

theorem Down.attempt (down : Down store) (operation : StoreOperation) (run : σ → Reply α σ) :
    (store.attempt operation run).Answers Down false := by
  obtain ⟨fault, found⟩ := down operation
  rw [attempt_of_some found]
  exact ⟨rfl, down⟩

theorem always_down [Store σ] : Store.Always (Down (σ := σ)) false where
  currentTime _ down := down.attempt .currentTime _
  acquire _ _ _ _ _ down := down.attempt .acquire _
  reset _ _ down := down.attempt .reset _
  state _ _ down := down.attempt .state _

end FaultyStore

theorem MemoryStore.always : Store.Always (fun _ : MemoryStore => True) true where
  currentTime _ _ := ⟨rfl, trivial⟩
  acquire _ _ _ _ _ _ := ⟨rfl, trivial⟩
  reset _ _ _ := ⟨rfl, trivial⟩
  state _ _ _ := ⟨rfl, trivial⟩

end Admission
