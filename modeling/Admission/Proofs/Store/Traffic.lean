import Mathlib.Logic.Function.Iterate
import Admission.Proofs.Store.Call
import Admission.Proofs.Store.Tiered

/-! Calls of a tiered store that overlap: each goes on by steps of its own, and the steps of different
calls come in any order. Main statement: a call whose steps come one after the other does what the store
does as a whole. -/
namespace Admission

namespace TieredStore

open Store (Call Response)

variable {π φ : Type}

/-- How far a call has got. -/
inductive Stage
  | asking
  /-- The breaker let it in, and the primary store is called next. -/
  | admitted (permit : Permit)
  /-- The primary store has spoken, and the breaker is told next. -/
  | answered (permit : Permit) (result : Except StoreError Response)
  /-- The fallback store is called next. -/
  | passing (first : Except (CallError StoreError) Response)
  | finished (result : Except StoreError Response)

/-- What a call does in a step. -/
inductive Deed
  | refused (refusal : Refusal)
  /-- The primary store is called, and says and reports something. -/
  | primary (call : Call) (result : Except StoreError Response) (events : List MetricEvent)
  | fallback (call : Call) (result : Except StoreError Response) (events : List MetricEvent)
  /-- It is reported why the fallback store is called. -/
  | noted (operation : StoreOperation) (cause : String)
  /-- A transition of the breaker is reported. -/
  | switched (event : MetricEvent)

/-- What the collaborators are told of a deed. -/
def Deed.events : Deed → List MetricEvent
  | refused _ => []
  | primary _ _ events | fallback _ _ events => events
  | noted operation cause => [.fallback operation cause]
  | switched event => [event]

/-- A store and a call after a step, and what the call did. -/
structure Progress (π φ : Type) where
  store : TieredStore π φ
  stage : Stage
  deeds : List Deed

/-- The report of a call that the primary store did not answer; resets are not reported. -/
def note (call : Call) : Except (CallError StoreError) Response → List Deed
  | .error cause => if call.isReset then [] else [.noted call.operation (cause.message StoreError.message)]
  | .ok _ => []

section

variable [Store π] [Store φ]

/-- One step of a call. -/
def advance (call : Call) (store : TieredStore π φ) : Stage → Progress π φ
  | .asking =>
    match store.breaker.look store.clock with
    | .started permit breaker => ⟨{ store with breaker }, .admitted permit, []⟩
    | .refused refusal => ⟨store, .passing (.error (.refused refusal)), [.refused refusal]⟩
    | .moved breaker =>
      ⟨{ store with breaker }, .asking, [.switched (.circuit store.breaker.name ⟨.opened, .halfOpen⟩)]⟩
  | .admitted permit =>
    let reply := call.on store.primary
    ⟨{ store with primary := reply.store }, .answered permit reply.result,
      [.primary call reply.result reply.events]⟩
  | .answered permit result =>
    let (breaker, reported) := store.breaker.record permit result.isOk store.clock
    ⟨{ store with breaker := breaker.release permit },
      match result with
        | .ok value => if call.isReset then .passing (.ok value) else .finished (.ok value)
        | .error error => .passing (.error (.inner error)),
      (store.transitionEvents reported).map .switched⟩
  | .passing first =>
    let reply := call.on store.fallback
    ⟨{ store with fallback := reply.store },
      .finished (if first.isOk then .ok .forgotten else reply.result),
      note call first ++ [.fallback call reply.result reply.events]⟩
  | .finished result => ⟨store, .finished result, []⟩

end

/-- What happens to a store with its calls: a deed of a call, or an event. -/
inductive Happening (π φ : Type)
  | deed (number : Nat) (deed : Deed)
  | event (event : Event π φ)

/-- A store with its calls, numbered as they began, and all that has happened so far. -/
structure Traffic (π φ : Type) where
  store : TieredStore π φ
  calls : List (Call × Stage) := []
  trace : List (Happening π φ) := []

namespace Traffic

inductive Action (π φ : Type)
  | start (call : Call)
  /-- The call of a number goes on by a step. -/
  | advance (number : Nat)
  | event (event : Event π φ)

def told (traffic : Traffic π φ) : List MetricEvent :=
  traffic.trace.flatMap fun
    | .deed _ deed => deed.events
    | .event _ => []

/-- The calls so far and another one that has got as far as given. -/
def joined (traffic : Traffic π φ) (call : Call) (progress : Progress π φ) : Traffic π φ where
  store := progress.store
  calls := traffic.calls ++ [(call, progress.stage)]
  trace := traffic.trace ++ progress.deeds.map (.deed traffic.calls.length)

private theorem told_joined (traffic : Traffic π φ) (call : Call) (progress : Progress π φ) :
    (traffic.joined call progress).told = traffic.told ++ progress.deeds.flatMap Deed.events := by
  simp only [Traffic.told, joined, List.flatMap_append, List.flatMap_map]

section

variable [Store π] [Store φ]

def step (traffic : Traffic π φ) : Action π φ → Traffic π φ
  | .start call => { traffic with calls := traffic.calls ++ [(call, .asking)] }
  | .advance number =>
    match traffic.calls[number]? with
    | some (call, stage) =>
      let progress := traffic.store.advance call stage
      { store := progress.store
        calls := traffic.calls.set number (call, progress.stage)
        trace := traffic.trace ++ progress.deeds.map (.deed number) }
    | none => traffic
  | .event event =>
    { traffic with store := event.befall traffic.store, trace := traffic.trace ++ [.event event] }

def run (traffic : Traffic π φ) (actions : List (Action π φ)) : Traffic π φ :=
  actions.foldl step traffic

end
end Traffic

section

variable {α β : Type}

private theorem callPrimary_map (store : TieredStore π φ) (call : π → Reply α π) (read : α → β) :
    store.callPrimary (fun primary => (call primary).map read) =
      ⟨(store.callPrimary call).result.map read, (store.callPrimary call).events,
        (store.callPrimary call).store⟩ := by
  unfold callPrimary
  cases entered : (store.breaker.enter store.clock).result with
  | error refusal =>
    simp only [entered]
    rfl
  | ok permit =>
    simp only [entered]
    cases said : (call store.primary).result with
    | ok value => simp only [Reply.map, said]; rfl
    | error error => simp only [Reply.map, said]; rfl

private theorem answer_map (store : TieredStore π φ) (operation : StoreOperation) (call : π → Reply α π)
    (fallback : φ → Reply α φ) (read : α → β) :
    (store.answer operation call fallback).map read =
      store.answer operation (fun primary => (call primary).map read) fun spare => (fallback spare).map read := by
  unfold answer
  rw [callPrimary_map]
  cases said : (store.callPrimary call).result with
  | ok value => simp only [said, Except.map]; rfl
  | error cause => simp only [said, Except.map]; rfl

private theorem resetBoth_map (store : TieredStore π φ) (call : π → Reply Unit π)
    (fallback : φ → Reply Unit φ) :
    (store.resetBoth call fallback).map (fun _ => Response.forgotten) =
      let first := store.callPrimary fun primary => (call primary).map fun _ => Response.forgotten
      let second := (fallback first.store.fallback).map fun _ => Response.forgotten
      ⟨if first.result.isOk then .ok .forgotten else second.result, first.events ++ second.events,
        { first.store with fallback := second.store }⟩ := by
  unfold resetBoth
  rw [callPrimary_map]
  cases said : (store.callPrimary call).result with
  | ok value => simp only [said, Except.map]; rfl
  | error cause => simp only [said, Except.map]; rfl

end

section

variable [Store π] [Store φ]

/-- Where a call goes on when the primary store has spoken, or was not called. -/
def settled (call : Call) : Except (CallError StoreError) Response → Stage
  | .ok value => if call.isReset then .passing (.ok value) else .finished (.ok value)
  | .error cause => .passing (.error cause)

def Progress.next (call : Call) (progress : Progress π φ) : Progress π φ :=
  let later := progress.store.advance call progress.stage
  ⟨later.store, later.stage, progress.deeds ++ later.deeds⟩

private theorem next_asking (call : Call) (store : TieredStore π φ) (before : List Deed) :
    Progress.next call ⟨store, .asking, before⟩ =
      match store.breaker.look store.clock with
      | .started permit breaker => ⟨{ store with breaker }, .admitted permit, before⟩
      | .refused refusal => ⟨store, .passing (.error (.refused refusal)), before ++ [.refused refusal]⟩
      | .moved breaker => ⟨{ store with breaker }, .asking,
          before ++ [.switched (.circuit store.breaker.name ⟨.opened, .halfOpen⟩)]⟩ := by
  unfold Progress.next advance
  cases store.breaker.look store.clock with
  | started | refused | moved => simp

private theorem next_enter (call : Call) (store : TieredStore π φ) :
    let entry := store.breaker.enter store.clock
    ∃ steps ≤ 2, ∃ deeds : List Deed, deeds.flatMap Deed.events = store.transitionEvents entry.reported ∧
      (Progress.next call)^[steps] ⟨store, .asking, []⟩ =
        ⟨{ store with breaker := entry.breaker },
          match entry.result with
            | .ok permit => .admitted permit
            | .error refusal => .passing (.error (.refused refusal)), deeds⟩ := by
  have asked := next_asking call store []
  unfold Breaker.enter
  cases seen : store.breaker.look store.clock with
  | started permit breaker =>
    rw [seen] at asked
    exact ⟨1, by omega, [], rfl, asked⟩
  | refused refusal =>
    rw [seen] at asked
    exact ⟨1, by omega, [.refused refusal], rfl, asked⟩
  | moved breaker =>
    -- The circuit is half-open now, and nobody came in between: the second look takes a slot or finds none.
    rw [seen] at asked
    have again := next_asking call { store with breaker }
      [.switched (.circuit store.breaker.name ⟨.opened, .halfOpen⟩)]
    rw [Breaker.look_moved seen] at again
    cases taken : breaker.takeSlot with
    | ok after =>
      rw [taken] at again
      simp only [taken]
      exact ⟨2, by omega, _, rfl, (congrArg (Progress.next call) asked).trans again⟩
    | error refusal =>
      rw [taken] at again
      simp only [taken]
      exact ⟨2, by omega, _, rfl, (congrArg (Progress.next call) asked).trans again⟩

private theorem next_admitted (call : Call) (store : TieredStore π φ) (permit : Permit) (before : List Deed) :
    let reply := call.on store.primary
    let after := store.breaker.record permit reply.result.isOk store.clock
    (Progress.next call)^[2] ⟨store, .admitted permit, before⟩ =
      ⟨{ store with primary := reply.store, breaker := after.1.release permit },
        settled call (reply.result.mapError .inner),
        before ++ [.primary call reply.result reply.events] ++ (store.transitionEvents after.2).map .switched⟩ := by
  show Progress.next call (Progress.next call _) = _
  cases said : (call.on store.primary).result with
  | ok value =>
    simp only [Progress.next, advance, said]
    rfl
  | error error =>
    simp only [Progress.next, advance, said]
    rfl

private theorem events_switched (events : List MetricEvent) :
    (events.map .switched).flatMap Deed.events = events := by
  induction events with
  | nil => rfl
  | cons event events ih => exact congrArg (event :: ·) ih

private theorem next_settled (call : Call) (store : TieredStore π φ) :
    let first := store.callPrimary call.on
    ∃ steps ≤ 4, ∃ deeds : List Deed, deeds.flatMap Deed.events = first.events ∧
      (Progress.next call)^[steps] ⟨store, .asking, []⟩ = ⟨first.store, settled call first.result, deeds⟩ := by
  obtain ⟨steps, few, deeds, told, asked⟩ := next_enter call store
  have named := store.breaker.name_enter store.clock
  unfold callPrimary
  generalize store.breaker.enter store.clock = entry at *
  obtain ⟨entered, reported, after⟩ := entry
  cases entered with
  | error refusal => exact ⟨steps, by omega, deeds, told, asked⟩
  | ok permit =>
    have made := next_admitted call { store with breaker := after } permit deeds
    rw [← asked, ← Function.iterate_add_apply] at made
    have same : after.name = store.breaker.name := named
    refine ⟨2 + steps, by omega, _, ?_, made⟩
    rw [List.flatMap_append, List.flatMap_append, told, events_switched]
    simp [Deed.events, transitionEvents, same]

theorem on_charge {call : Call} (charge : call.isReset = false) (store : TieredStore π φ) :
    call.on store = store.answer call.operation call.on call.on := by
  cases call with
  | currentTime => exact answer_map store ..
  | acquire key limiter permits now => exact answer_map store ..
  | reset key => cases charge
  | state key => exact answer_map store ..

theorem on_reset {call : Call} (reset : call.isReset = true) (store : TieredStore π φ) :
    call.on store =
      let first := store.callPrimary call.on
      let second := call.on first.store.fallback
      ⟨if first.result.isOk then .ok .forgotten else second.result, first.events ++ second.events,
        { first.store with fallback := second.store }⟩ := by
  cases call with
  | reset key => exact resetBoth_map store ..
  | currentTime | acquire | state => cases reset

/-- A call of a tiered store is over when it has called the fallback store, unless it was over before. -/
private theorem advance_settled (call : Call) (store : TieredStore π φ) :
    let first := store.callPrimary call.on
    let last := first.store.advance call (settled call first.result)
    last.store = (call.on store).store ∧ last.stage = .finished (call.on store).result ∧
      first.events ++ last.deeds.flatMap Deed.events = (call.on store).events := by
  intro first last
  cases reset : call.isReset with
  | false =>
    rw [on_charge reset]
    unfold answer
    cases said : first.result with
    | ok value => simp [last, settled, reset, said, first, advance]
    | error cause => simp [last, settled, said, first, advance, note, reset, Deed.events, Except.isOk, Except.toBool]
  | true =>
    rw [on_reset reset]
    cases said : first.result with
    | ok value => simp [last, settled, reset, said, first, advance, note, Deed.events, Except.isOk, Except.toBool]
    | error cause => simp [last, settled, reset, said, first, advance, note, Deed.events, Except.isOk, Except.toBool]

/-- A call that is let go on is over after five steps at most, with nothing else to do. -/
theorem next_finished (call : Call) (store : TieredStore π φ) :
    ∃ deeds : List Deed, deeds.flatMap Deed.events = (call.on store).events ∧
      (Progress.next call)^[5] ⟨store, .asking, []⟩ =
        ⟨(call.on store).store, .finished (call.on store).result, deeds⟩ := by
  obtain ⟨steps, few, deeds, told, spoken⟩ := next_settled call store
  obtain ⟨kept, ended, rest⟩ := advance_settled call store
  have last : ∃ done : List Deed, done.flatMap Deed.events = (call.on store).events ∧
      (Progress.next call)^[1 + steps] ⟨store, .asking, []⟩ =
        ⟨(call.on store).store, .finished (call.on store).result, done⟩ := by
    rw [Function.iterate_add_apply, spoken, ← kept, ← ended, ← rest, ← told, ← List.flatMap_append]
    exact ⟨_, rfl, rfl⟩
  obtain ⟨done, heard, ended⟩ := last
  have idle : Progress.next call ⟨(call.on store).store, .finished (call.on store).result, done⟩ =
      ⟨(call.on store).store, .finished (call.on store).result, done⟩ := by
    simp [Progress.next, advance]
  refine ⟨done, heard, ?_⟩
  -- What is left of the five steps is idle.
  have five : 5 = (4 - steps) + (1 + steps) := by omega
  rw [five, Function.iterate_add_apply, ended]
  exact Function.iterate_fixed idle _

namespace Traffic

variable {traffic : Traffic π φ} {call : Call}

theorem step_advance_none {number : Nat} (unbegun : traffic.calls[number]? = none) :
    traffic.step (.advance number) = traffic := by
  simp only [step, unbegun]

theorem step_advance {number : Nat} {stage : Stage} (found : traffic.calls[number]? = some (call, stage)) :
    traffic.step (.advance number) =
      { store := (traffic.store.advance call stage).store
        calls := traffic.calls.set number (call, (traffic.store.advance call stage).stage)
        trace := traffic.trace ++ (traffic.store.advance call stage).deeds.map (.deed number) } := by
  simp only [step, found]

theorem step_joined (traffic : Traffic π φ) (call : Call) (progress : Progress π φ) :
    (traffic.joined call progress).step (.advance traffic.calls.length) =
      traffic.joined call (progress.next call) := by
  have found : (traffic.joined call progress).calls[traffic.calls.length]? = some (call, progress.stage) := by
    simp [joined]
  rw [step_advance found]
  simp [joined, Progress.next]

theorem run_joined (traffic : Traffic π φ) (call : Call) (progress : Progress π φ) (steps : Nat) :
    (traffic.joined call progress).run (List.replicate steps (.advance traffic.calls.length)) =
      traffic.joined call ((Progress.next call)^[steps] progress) := by
  induction steps generalizing progress with
  | zero => rfl
  | succ steps ih =>
    rw [List.replicate_succ, Function.iterate_succ_apply, ← ih, ← step_joined]
    rfl

/-- A call that goes on without a pause does what the store does as a whole. -/
theorem run_alone (traffic : Traffic π φ) (call : Call) :
    let alone := traffic.run (.start call :: List.replicate 5 (.advance traffic.calls.length))
    let reply := call.on traffic.store
    alone.store = reply.store ∧ alone.calls = traffic.calls ++ [(call, .finished reply.result)] ∧
      alone.told = traffic.told ++ reply.events := by
  intro alone reply
  have begun : traffic.step (.start call) = traffic.joined call ⟨traffic.store, .asking, []⟩ := by
    simp [step, joined]
  obtain ⟨deeds, told, ended⟩ := next_finished call traffic.store
  have whole : alone = traffic.joined call ⟨reply.store, .finished reply.result, deeds⟩ := by
    rw [← ended, ← run_joined, ← begun]
    rfl
  rw [whole]
  exact ⟨rfl, rfl, by rw [told_joined, told]⟩

end Traffic
end
end TieredStore
end Admission
