import Admission.Proofs.Store.Record
import Admission.Proofs.Store.Traffic

/-! What the calls of a tiered store are charged to, however they overlap. Main statement: every call is
charged to one store, and each store is left as by the calls that were charged to it, one after the
other. -/
namespace Admission

namespace TieredStore

open Store (Call Response)

variable {π φ κ ν : Type}

def Deed.isSwitch : Deed → Bool
  | switched _ => true
  | _ => false

/-- What is on record of the primary store for a deed. -/
def Deed.onPrimary? : Deed → Option (Store.Entry π)
  | primary call result _ => some (.call call result)
  | _ => none

def Deed.onFallback? : Deed → Option (Store.Entry φ)
  | fallback call result _ => some (.call call result)
  | _ => none

namespace Traffic

/-- What a call has done, the reports of transitions aside. -/
def deeds (number : Nat) (trace : List (Happening π φ)) : List Deed :=
  trace.filterMap fun
    | .deed other deed => if other = number ∧ ¬ deed.isSwitch then some deed else none
    | .event _ => none

/-- What is on record of the primary store. -/
def primaryRecord (trace : List (Happening π φ)) : List (Store.Entry π) :=
  trace.filterMap fun
    | .deed _ deed => deed.onPrimary?
    | .event (.primary change) => some (.change change)
    | .event _ => none

def fallbackRecord (trace : List (Happening π φ)) : List (Store.Entry φ) :=
  trace.filterMap fun
    | .deed _ deed => deed.onFallback?
    | .event (.fallback change) => some (.change change)
    | .event _ => none

end Traffic

private theorem note_primary (call : Call) (first : Except (CallError StoreError) Response) :
    (note call first).filterMap Deed.onPrimary? = ([] : List (Store.Entry π)) := by
  cases first with
  | ok value => rfl
  | error cause => cases reset : call.isReset <;> simp [note, reset, Deed.onPrimary?]

private theorem note_fallback (call : Call) (first : Except (CallError StoreError) Response) :
    (note call first).filterMap Deed.onFallback? = ([] : List (Store.Entry φ)) := by
  cases first with
  | ok value => rfl
  | error cause => cases reset : call.isReset <;> simp [note, reset, Deed.onFallback?]

/-- What a call has done to get as far as it has, the reports of transitions aside. -/
inductive Course (call : Call) : Stage → List Deed → Prop
  | asking : Course call .asking []
  | admitted (permit : Permit) : Course call (.admitted permit) []
  | answered (permit : Permit) (result : Except StoreError Response) (events : List MetricEvent) :
    Course call (.answered permit result) [.primary call result events]
  | refused (refusal : Refusal) : Course call (.passing (.error (.refused refusal))) [.refused refusal]
  | failed (error : StoreError) (events : List MetricEvent) :
    Course call (.passing (.error (.inner error))) [.primary call (.error error) events]
  | halfway (reset : call.isReset = true) (value : Response) (events : List MetricEvent) :
    Course call (.passing (.ok value)) [.primary call (.ok value) events]
  /-- The primary store answered, and the fallback store was not called. -/
  | served (charge : call.isReset = false) (value : Response) (events : List MetricEvent) :
    Course call (.finished (.ok value)) [.primary call (.ok value) events]
  /-- The primary store did not answer for a cause that was reported, and the fallback store answered. -/
  | fellBack (charge : call.isReset = false) {cause : CallError StoreError} {before : List Deed}
      (course : Course call (.passing (.error cause)) before) (result : Except StoreError Response)
      (events : List MetricEvent) :
    Course call (.finished result)
      (before ++ [.noted call.operation (cause.message StoreError.message), .fallback call result events])
  /-- A reset went to the fallback store, and failed if it failed there as well. -/
  | reset (reset : call.isReset = true) {first : Except (CallError StoreError) Response} {before : List Deed}
      (course : Course call (.passing first) before) (result : Except StoreError Response)
      (events : List MetricEvent) :
    Course call (.finished (if first.isOk then .ok .forgotten else result))
      (before ++ [.fallback call result events])

namespace Traffic

variable {number other : Nat} {trace rest : List (Happening π φ)}

private theorem deeds_append : deeds number (trace ++ rest) = deeds number trace ++ deeds number rest :=
  List.filterMap_append

private theorem deeds_own (done : List Deed) :
    deeds number (done.map (.deed number) : List (Happening π φ)) = done.filter (!·.isSwitch) := by
  induction done with
  | nil => rfl
  | cons deed done ih =>
    cases switch : deed.isSwitch with
    | true => simp [deeds, switch] at ih ⊢; exact ih
    | false => simp [deeds, switch] at ih ⊢; exact ih

private theorem deeds_other (apart : other ≠ number) (done : List Deed) :
    deeds number (done.map (.deed other) : List (Happening π φ)) = [] := by
  induction done with
  | nil => rfl
  | cons deed done ih => simp [deeds, apart]

private theorem primaryRecord_append :
    primaryRecord (trace ++ rest) = primaryRecord trace ++ primaryRecord rest :=
  List.filterMap_append

private theorem fallbackRecord_append :
    fallbackRecord (trace ++ rest) = fallbackRecord trace ++ fallbackRecord rest :=
  List.filterMap_append

private theorem primaryRecord_deeds (done : List Deed) :
    primaryRecord (done.map (.deed number) : List (Happening π φ)) = done.filterMap Deed.onPrimary? :=
  List.filterMap_map

private theorem fallbackRecord_deeds (done : List Deed) :
    fallbackRecord (done.map (.deed number) : List (Happening π φ)) = done.filterMap Deed.onFallback? :=
  List.filterMap_map

end Traffic

section

variable [Store π] [Store φ]

/-- A call that goes to the fallback store is finished by it. -/
theorem Course.pass {call : Call} {first : Except (CallError StoreError) Response} {before : List Deed}
    (course : Course call (.passing first) before) (store : TieredStore π φ) :
    Course call (store.advance call (.passing first)).stage
      (before ++ (store.advance call (.passing first)).deeds.filter (!·.isSwitch)) := by
  cases reset : call.isReset with
  | true =>
    have unnoted : note call first = [] := by
      cases first with
      | ok value => rfl
      | error cause => exact if_pos reset
    simpa [TieredStore.advance, unnoted, Deed.isSwitch] using course.reset reset _ _
  | false =>
    cases first with
    | ok value =>
      cases course with
      | halfway wrong => rw [reset] at wrong; cases wrong
    | error cause =>
      have noted : note call (.error cause) = [.noted call.operation (cause.message StoreError.message)] :=
        if_neg (by simp [reset])
      have finished := course.fellBack reset (call.on store.fallback).result (call.on store.fallback).events
      simp only [TieredStore.advance, noted]
      exact finished

/-- A call that goes on by a step has done what its new stage says. -/
theorem Course.advance {call : Call} {stage : Stage} {before : List Deed} (course : Course call stage before)
    (store : TieredStore π φ) :
    Course call (store.advance call stage).stage
      (before ++ (store.advance call stage).deeds.filter (!·.isSwitch)) := by
  cases stage with
  | asking =>
    cases course
    unfold TieredStore.advance
    cases store.breaker.look store.clock with
    | started permit breaker => exact .admitted permit
    | refused refusal => exact .refused refusal
    | moved breaker => exact .asking
  | admitted permit =>
    cases course
    exact .answered permit ..
  | answered permit result =>
    cases course with
    | answered permit result events =>
      have switches : ∀ reported : Option Transition,
          ((store.transitionEvents reported).map Deed.switched).filter (!·.isSwitch) = [] := by
        intro reported
        simp [Deed.isSwitch]
      unfold TieredStore.advance
      simp only [switches]
      cases result with
      | error error => exact .failed error events
      | ok value =>
        cases reset : call.isReset with
        | true => exact .halfway reset value events
        | false => exact .served reset value events
  | passing first => exact course.pass store
  | finished result =>
    rw [TieredStore.advance, List.filter_nil, List.append_nil]
    exact course

/-- An event makes as much of two stores that have as much to them. -/
def Event.Respects (view : π → κ) (spareView : φ → ν) : Event π φ → Prop
  | primary change => ∀ store other, view store = view other → view (change store) = view (change other)
  | fallback change =>
    ∀ store other, spareView store = spareView other → spareView (change store) = spareView (change other)
  | _ => True

/-- A step of a call calls the primary store and puts that on record, or does neither. -/
private theorem primary_advance (call : Call) (store : TieredStore π φ) (stage : Stage) :
    let progress := store.advance call stage
    progress.deeds.filterMap Deed.onPrimary? = ([] : List (Store.Entry π)) ∧
        progress.store.primary = store.primary ∨
      progress.deeds.filterMap Deed.onPrimary? =
          ([.call call (call.on store.primary).result] : List (Store.Entry π)) ∧
        progress.store.primary = (call.on store.primary).store := by
  cases stage with
  | asking =>
    left
    unfold TieredStore.advance
    cases store.breaker.look store.clock with
    | started | refused | moved => exact ⟨rfl, rfl⟩
  | admitted permit => exact .inr ⟨rfl, rfl⟩
  | answered permit result =>
    left
    exact ⟨by simp [TieredStore.advance, Deed.onPrimary?], rfl⟩
  | passing first =>
    left
    refine ⟨?_, rfl⟩
    show (note call first ++ [_]).filterMap _ = _
    rw [List.filterMap_append, note_primary]
    rfl
  | finished result => exact .inl ⟨rfl, rfl⟩

private theorem fallback_advance (call : Call) (store : TieredStore π φ) (stage : Stage) :
    let progress := store.advance call stage
    progress.deeds.filterMap Deed.onFallback? = ([] : List (Store.Entry φ)) ∧
        progress.store.fallback = store.fallback ∨
      progress.deeds.filterMap Deed.onFallback? =
          ([.call call (call.on store.fallback).result] : List (Store.Entry φ)) ∧
        progress.store.fallback = (call.on store.fallback).store := by
  cases stage with
  | asking =>
    left
    unfold TieredStore.advance
    cases store.breaker.look store.clock with
    | started | refused | moved => exact ⟨rfl, rfl⟩
  | admitted permit => exact .inl ⟨rfl, rfl⟩
  | answered permit result =>
    left
    exact ⟨by simp [TieredStore.advance, Deed.onFallback?], rfl⟩
  | passing first =>
    right
    refine ⟨?_, rfl⟩
    show (note call first ++ [_]).filterMap _ = _
    rw [List.filterMap_append, note_fallback]
    rfl
  | finished result => exact .inl ⟨rfl, rfl⟩

namespace Traffic

variable {view : π → κ} {spareView : φ → ν} {call : Call}

/-- The calls have done what their stages say, and the stores are left as by what was charged to them. -/
structure Accounted (view : π → κ) (spareView : φ → ν) (origin : TieredStore π φ)
    (traffic : Traffic π φ) : Prop where
  courses : ∀ number call stage, traffic.calls[number]? = some (call, stage) →
    Course call stage (deeds number traffic.trace)
  unbegun : ∀ number, traffic.calls.length ≤ number → deeds number traffic.trace = []
  primary : Store.Matches view (primaryRecord traffic.trace) origin.primary traffic.store.primary
  fallback : Store.Matches spareView (fallbackRecord traffic.trace) origin.fallback traffic.store.fallback

variable {origin : TieredStore π φ} {traffic : Traffic π φ}

private theorem accounted_new (origin : TieredStore π φ) :
    Accounted view spareView origin { store := origin } :=
  ⟨by simp, fun _ _ => rfl, Store.matches_nil .., Store.matches_nil ..⟩

theorem Accounted.start (accounted : Accounted view spareView origin traffic) (call : Call) :
    Accounted view spareView origin (traffic.step (.start call)) := by
  refine ⟨fun number begun stage found => ?_, fun number late => ?_, accounted.primary, accounted.fallback⟩
  · have later : (traffic.calls ++ [(call, .asking)])[number]? = some (begun, stage) := found
    rcases Nat.lt_or_ge number traffic.calls.length with old | new
    · rw [List.getElem?_append_left old] at later
      exact accounted.courses number begun stage later
    · rw [List.getElem?_append_right new, List.getElem?_singleton] at later
      split at later
      · cases later
        show Course call .asking (deeds number traffic.trace)
        rw [accounted.unbegun number new]
        exact .asking
      · cases later
  · have longer : (traffic.calls ++ [(call, Stage.asking)]).length ≤ number := late
    rw [List.length_append] at longer
    exact accounted.unbegun number (Nat.le_of_add_right_le longer)

theorem Accounted.advance (kept : Store.Kept view) (spareKept : Store.Kept spareView)
    (accounted : Accounted view spareView origin traffic) (number : Nat) :
    Accounted view spareView origin (traffic.step (.advance number)) := by
  cases found : traffic.calls[number]? with
  | none =>
    rw [step_advance_none found]
    exact accounted
  | some entry =>
    obtain ⟨call, stage⟩ := entry
    rw [step_advance found]
    have begun : number < traffic.calls.length := (List.getElem?_eq_some_iff.mp found).1
    constructor
    case courses =>
      intro other begunCall reached member
      -- A step adds to what its own call has done, and to nothing else.
      show Course begunCall reached (deeds other (traffic.trace ++ _))
      rw [deeds_append]
      rw [List.getElem?_set] at member
      by_cases own : number = other
      · subst own
        rw [if_pos rfl, if_pos begun] at member
        cases member
        rw [deeds_own]
        exact (accounted.courses number call stage found).advance traffic.store
      · rw [if_neg own] at member
        rw [deeds_other own, List.append_nil]
        exact accounted.courses other begunCall reached member
    case unbegun =>
      intro other late
      rw [List.length_set] at late
      show deeds other (traffic.trace ++ _) = []
      rw [deeds_append, accounted.unbegun other late, deeds_other (by omega)]
      rfl
    case primary =>
      show Store.Matches view (primaryRecord (traffic.trace ++ _)) origin.primary _
      rw [primaryRecord_append, primaryRecord_deeds]
      rcases primary_advance call traffic.store stage with ⟨silent, same⟩ | ⟨recorded, called⟩
      · rw [silent, same, List.append_nil]
        exact accounted.primary
      · rw [recorded, called]
        exact accounted.primary.call kept call
    case fallback =>
      show Store.Matches spareView (fallbackRecord (traffic.trace ++ _)) origin.fallback _
      rw [fallbackRecord_append, fallbackRecord_deeds]
      rcases fallback_advance call traffic.store stage with ⟨silent, same⟩ | ⟨recorded, called⟩
      · rw [silent, same, List.append_nil]
        exact accounted.fallback
      · rw [recorded, called]
        exact accounted.fallback.call spareKept call

theorem Accounted.event (accounted : Accounted view spareView origin traffic) {event : Event π φ}
    (respects : event.Respects view spareView) : Accounted view spareView origin (traffic.step (.event event)) := by
  have silent : ∀ number, deeds number (traffic.trace ++ [.event event]) = deeds number traffic.trace := by
    intro number
    rw [deeds_append]
    exact List.append_nil _
  constructor
  case courses =>
    intro number call stage found
    show Course call stage (deeds number (traffic.trace ++ [.event event]))
    rw [silent]
    exact accounted.courses number call stage found
  case unbegun =>
    intro number late
    exact (silent number).trans (accounted.unbegun number late)
  case primary =>
    show Store.Matches view (primaryRecord (traffic.trace ++ [.event event])) origin.primary _
    rw [primaryRecord_append]
    cases event with
    | primary change => exact accounted.primary.change respects
    | clock | fallback | trip | close => exact (List.append_nil (primaryRecord _)).symm ▸ accounted.primary
  case fallback =>
    show Store.Matches spareView (fallbackRecord (traffic.trace ++ [.event event])) origin.fallback _
    rw [fallbackRecord_append]
    cases event with
    | fallback change => exact accounted.fallback.change respects
    | clock | primary | trip | close => exact (List.append_nil (fallbackRecord _)).symm ▸ accounted.fallback

theorem Accounted.run (kept : Store.Kept view) (spareKept : Store.Kept spareView) (actions : List (Action π φ))
    (respects : ∀ event, .event event ∈ actions → event.Respects view spareView)
    (accounted : Accounted view spareView origin traffic) :
    Accounted view spareView origin (traffic.run actions) := by
  induction actions generalizing traffic with
  | nil => exact accounted
  | cons action rest ih =>
    refine ih (fun event member => respects event (List.mem_cons_of_mem action member)) ?_
    cases action with
    | start call => exact accounted.start call
    | advance number => exact accounted.advance kept spareKept number
    | event event => exact accounted.event (respects event (List.mem_cons_self ..))

/-- Whatever happens to a store and however its calls overlap, each acquire and each read is answered by the
primary store or by the fallback store, each reset reaches the fallback store, and both stores have answered
and are left as if each had been charged alone. A call that no other one interrupts does what the store does
as a whole. -/
theorem run_charges_one_store (kept : Store.Kept view) (spareKept : Store.Kept spareView)
    (origin : TieredStore π φ) (actions : List (Action π φ))
    (respects : ∀ event, .event event ∈ actions → event.Respects view spareView) :
    let last := Traffic.run { store := origin } actions
    (∀ number call stage, last.calls[number]? = some (call, stage) → Course call stage (deeds number last.trace)) ∧
      Store.Matches view (primaryRecord last.trace) origin.primary last.store.primary ∧
      Store.Matches spareView (fallbackRecord last.trace) origin.fallback last.store.fallback ∧
      ∀ call, let alone := last.run (.start call :: List.replicate 5 (.advance last.calls.length))
        let reply := call.on last.store
        alone.store = reply.store ∧ alone.calls = last.calls ++ [(call, .finished reply.result)] ∧
          alone.told = last.told ++ reply.events := by
  intro last
  have accounted : Accounted view spareView origin last :=
    (accounted_new origin).run kept spareKept actions respects
  exact ⟨accounted.courses, accounted.primary, accounted.fallback, run_alone last⟩

/-- An acquire that is let in before the primary store goes down, a reset in between, and another acquire
after the breaker was tripped. -/
theorem run_charges_one_store_in_outage :
    let limiter : Limiter :=
      { name := "api", algorithm := .tokenBucket, requests := 2, window := .ofSeconds 1,
        failStrategy := .failOpen, capacity := 2, refillRate := 2, throttle? := none }
    let settings : BreakerSettings :=
      { threshold := 1, minimumCalls := 1, window := .ofSeconds 60, recovery := .ofSeconds 30, jitter := .none
        maxProbes := 1 }
    let store : FaultyStore MemoryStore := { inner := { clock := 5 } }
    let origin : TieredStore (FaultyStore MemoryStore) (FaultyStore MemoryStore) :=
      ⟨store, store, .create "l1" settings (.ofList []) 5, 5⟩
    let fail (operation : StoreOperation) (store : FaultyStore MemoryStore) : FaultyStore MemoryStore :=
      store.setFault operation (some (.unavailable "down"))
    let actions : List (Action (FaultyStore MemoryStore) (FaultyStore MemoryStore)) :=
      [.start (.acquire "a" limiter 1 5), .start (.reset "a"), .advance 0, .advance 1,
        .event (.primary (fail .acquire)), .advance 1, .advance 0, .event .trip, .start (.acquire "b" limiter 1 5),
        .advance 2, .event (.fallback (fail .acquire)), .advance 0, .advance 1, .advance 2, .advance 1, .advance 0]
    (∀ event, .event event ∈ actions → event.Respects (FaultyStore.shown id) (FaultyStore.shown id)) ∧
      let last := Traffic.run { store := origin } actions
      (∀ number call stage, last.calls[number]? = some (call, stage) → Course call stage (deeds number last.trace)) ∧
        Store.Matches (FaultyStore.shown id) (primaryRecord last.trace) origin.primary last.store.primary ∧
        Store.Matches (FaultyStore.shown id) (fallbackRecord last.trace) origin.fallback last.store.fallback ∧
        ∀ call, let alone := last.run (.start call :: List.replicate 5 (.advance last.calls.length))
          let reply := call.on last.store
          alone.store = reply.store ∧ alone.calls = last.calls ++ [(call, .finished reply.result)] ∧
            alone.told = last.told ++ reply.events := by
  intro limiter settings store origin fail actions
  have kept : Store.Kept (FaultyStore.shown (id : MemoryStore → MemoryStore)) := FaultyStore.kept MemoryStore.kept
  have respects : ∀ event, .event event ∈ actions →
      event.Respects (FaultyStore.shown (id : MemoryStore → MemoryStore))
        (FaultyStore.shown (id : MemoryStore → MemoryStore)) := by
    intro event member
    have cases : event = .primary (fail .acquire) ∨ event = .trip ∨ event = .fallback (fail .acquire) := by
      simpa [actions] using member
    rcases cases with rfl | rfl | rfl
    · exact fun _ _ same => FaultyStore.shown_setFault same ..
    · trivial
    · exact fun _ _ same => FaultyStore.shown_setFault same ..
  exact ⟨respects, run_charges_one_store kept kept origin actions respects⟩

end Traffic
end
end TieredStore
end Admission
