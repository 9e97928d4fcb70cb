import Admission.Proofs.Breaker.Effect
import Admission.Proofs.Breaker.Probes

namespace Admission

namespace Breaker

/-- Two breakers that show the same circuit, counts, window and deadlines. -/
structure Unmoved (before after : Breaker) : Prop where
  tally : after.tally = before.tally
  windowStart : after.windowStart = before.windowStart
  openedAt : after.openedAt = before.openedAt
  halfOpenAt : after.halfOpenAt = before.halfOpenAt

/-- A closed circuit to which one more such outcome is nothing new: it does not open on it, and the
count is full, or the window ends at once and holds just one such outcome of this very reading. -/
def Absorbs (breaker : Breaker) (success : Bool) (now : Timestamp) : Prop :=
  (success = false → ¬ breaker.settings.OpensAt (breaker.counted success now).failures
    (breaker.counted success now).successes) ∧
  if breaker.WindowOver now then
    breaker.windowStart = now ∧ breaker.tally = Tally.add ⟨.closed, 0, 0⟩ success
  else (if success then breaker.tally.successes else breaker.tally.failures) = maxCount

/-- The circuit is one that an outcome does not move. -/
def Ignores (breaker : Breaker) (permit : Permit) (success : Bool) (now : Timestamp) : Prop :=
  match breaker.circuit, permit with
  | .opened, _ => True
  | .halfOpen, .plain => True
  | .halfOpen, .probe => False
  | .closed, _ => breaker.Absorbs success now

section

variable {breaker before after : Breaker} {now : Timestamp}

theorem Unmoved.refl (breaker : Breaker) : Unmoved breaker breaker := ⟨rfl, rfl, rfl, rfl⟩

theorem SameCircuit.unmoved_iff {later : Breaker} (same : SameCircuit after later) :
    Unmoved before later ↔ Unmoved before after := by
  constructor
  · rintro ⟨tally, windowStart, openedAt, halfOpenAt⟩
    exact ⟨same.tally ▸ tally, same.windowStart ▸ windowStart, same.openedAt ▸ openedAt,
      same.halfOpenAt ▸ halfOpenAt⟩
  · rintro ⟨tally, windowStart, openedAt, halfOpenAt⟩
    exact ⟨same.tally.trans tally, same.windowStart.trans windowStart, same.openedAt.trans openedAt,
      same.halfOpenAt.trans halfOpenAt⟩

theorem Unmoved.circuit (unmoved : Unmoved before after) : after.circuit = before.circuit :=
  congrArg Tally.circuit unmoved.tally

private theorem countUp_eq_iff {count : Nat} (fits : count ≤ maxCount) :
    countUp count = count ↔ count = maxCount := by
  unfold countUp
  omega

/-- Only a full count is the same with one more. -/
private theorem add_eq_self_iff (breaker : Breaker) (success : Bool) :
    breaker.tally.add success = breaker.tally ↔
    (if success then breaker.tally.successes else breaker.tally.failures) = maxCount := by
  obtain ⟨failures, successes⟩ := breaker.tally_fits
  cases success with
  | true =>
    rw [if_pos rfl, ← countUp_eq_iff successes, Tally.add, if_pos rfl, Tally.mk.injEq]
    simp
  | false =>
    rw [if_neg Bool.false_ne_true, ← countUp_eq_iff failures, Tally.add, if_neg Bool.false_ne_true,
      Tally.mk.injEq]
    simp

/-- The window stays and one more outcome is nothing new in it. -/
private theorem counted_eq_iff (breaker : Breaker) (success : Bool) (now : Timestamp) :
    breaker.counted success now = breaker.tally ∧ (breaker.roll now).windowStart = breaker.windowStart ↔
      if breaker.WindowOver now then
        breaker.windowStart = now ∧ breaker.tally = Tally.add ⟨.closed, 0, 0⟩ success
      else (if success then breaker.tally.successes else breaker.tally.failures) = maxCount := by
  by_cases ended : breaker.WindowOver now
  · rw [if_pos ended, counted, roll_of_over ended, tally_closeAt]
    show Tally.add _ _ = breaker.tally ∧ now = breaker.windowStart ↔ _
    rw [eq_comm (a := now), eq_comm (b := breaker.tally)]
    exact And.comm
  · rw [if_neg ended, counted, roll_of_not_over ended, ← add_eq_self_iff]
    simp only [and_true]

private theorem count_unmoved_iff (closed : breaker.circuit = .closed) (success : Bool) (now : Timestamp) :
    Unmoved breaker (breaker.count success now).1 ↔ breaker.Absorbs success now := by
  rw [count_eq closed, Absorbs, ← counted_eq_iff]
  split
  · rename_i opens
    constructor
    · intro unmoved
      have kept := unmoved.circuit
      rw [circuit_openWith, closed] at kept
      cases kept
    · rintro ⟨stays, -⟩
      exact absurd opens.2 (stays opens.1)
  · rename_i stays
    constructor
    · rintro ⟨tally, windowStart, -, -⟩
      rw [tally_counted] at tally
      exact ⟨fun failed opens => stays ⟨failed, opens⟩, tally, windowStart⟩
    · rintro ⟨-, tally, windowStart⟩
      exact ⟨(tally_counted ..).trans tally, windowStart,
        roll_frame openedAt (fun _ _ _ => rfl) breaker now,
        roll_frame halfOpenAt (fun _ _ _ => rfl) breaker now⟩

/-- An outcome leaves a breaker unmoved exactly if the circuit ignores it. -/
theorem record_unmoved_iff (breaker : Breaker) (permit : Permit) (success : Bool) (now : Timestamp) :
    Unmoved breaker (breaker.record permit success now).1 ↔ breaker.Ignores permit success now := by
  unfold Ignores
  cases state : breaker.circuit with
  | closed =>
    rw [record_closed state]
    exact count_unmoved_iff state success now
  | opened =>
    rw [record_opened state]
    exact iff_of_true (.refl breaker) trivial
  | halfOpen =>
    cases permit with
    | plain =>
      rw [record_plain state]
      exact iff_of_true (.refl breaker) trivial
    | probe =>
      -- A probe closes the circuit or opens it again.
      rw [record_probe state]
      refine iff_of_false (fun unmoved => ?_) not_false
      have kept := unmoved.circuit
      rw [state] at kept
      cases success <;> simp at kept

end
end Breaker

namespace Session

open Breaker

/-- The outcome of a call that was let in before the circuit moved leaves the breaker unmoved exactly if
the circuit that it finds ignores it. Whatever it finds, it gives back the slot that it holds. -/
theorem finish_late_unmoved_iff (name : String) (settings : BreakerSettings) (draws : Random.Stream)
    (clock : Timestamp) (earlier later : List Action) (call : Nat) (permit : Permit) (success : Bool) :
    let admitted := ((create name settings draws clock).run earlier).1.step .start
    let waited := admitted.session.run later
    admitted.answer = .started call → waited.2.2 ≠ [] → waited.1.permit? call = some permit →
      let finished := (waited.1.step (.finish call success)).session.breaker
      (Unmoved waited.1.breaker finished ↔ waited.1.breaker.Ignores permit success waited.1.clock) ∧
        finished.probes + (if permit = .probe then 1 else 0) = waited.1.breaker.probes := by
  intro admitted waited _ _ found finished
  have accounted : Accounted settings waited.1 :=
    accounted_run (accounted_step (accounted_run (accounted_create ..) earlier) .start) later
  have same := sameSlots_record waited.1.breaker permit success waited.1.clock
  have released : finished =
      (waited.1.breaker.record permit success waited.1.clock).1.release permit := step_finish found success
  constructor
  · rw [released, (sameCircuit_release _ permit).unmoved_iff]
    exact record_unmoved_iff ..
  · have leaves := ((accounted.sameSlots same).probes_leave found).1
    rw [released]
    exact leaves.trans same.probes

/-- A call let in before a trip that ends when the circuit is half-open. -/
theorem finish_late_unmoved_half_open :
    let settings : BreakerSettings :=
      { threshold := 1 / 2, minimumCalls := 1, window := .ofSeconds 10, recovery := .ofSeconds 30,
        jitter := .none, maxProbes := 1 }
    let admitted := ((create "store" settings (.ofList []) 0).run []).1.step .start
    let waited := admitted.session.run [.trip, .setClock 30000, .start, .cancel 1]
    admitted.answer = .started 0 ∧ waited.2.2 = [⟨.closed, .opened⟩, ⟨.opened, .halfOpen⟩] ∧
      waited.1.permit? 0 = some .plain ∧ waited.1.breaker.circuit = .halfOpen ∧
      Unmoved waited.1.breaker (waited.1.step (.finish 0 false)).session.breaker := by
  intro settings admitted waited
  have started : admitted.answer = .started 0 := by decide +kernel
  have moved : waited.2.2 = [⟨.closed, .opened⟩, ⟨.opened, .halfOpen⟩] := by decide +kernel
  have found : waited.1.permit? 0 = some .plain := by decide +kernel
  have halfOpen : waited.1.breaker.circuit = .halfOpen := by decide +kernel
  refine ⟨started, moved, found, halfOpen, ?_⟩
  have late : waited.2.2 ≠ [] := by simp [moved]
  have iff := finish_late_unmoved_iff "store" settings (.ofList []) 0 [] _ 0 .plain false started late found
  refine iff.1.mpr ?_
  unfold Ignores
  rw [halfOpen]
  trivial

/-- A call from before a trip and a reset opens the circuit by its failure, and a probe from before
another trip closes it by its success. -/
theorem late_outcomes_move :
    let settings : BreakerSettings :=
      { threshold := 1 / 2, minimumCalls := 1, window := .ofSeconds 10, recovery := .ofMillis 1,
        jitter := .none, maxProbes := 2 }
    let draft : BreakerSettings.Draft :=
      { window := .ofSeconds 10, recovery := .ofMillis 1, jitterFactor := 0, maxProbes := 2 }
    let session := create "store" settings (.ofList []) 0
    let plain := session.step .start
    let restarted := plain.session.run [.trip, .reset]
    let probe := (session.run [.trip, .setClock 1]).1.step .start
    let retried := probe.session.run [.trip, .setClock 2, .start]
    draft.build = .ok settings ∧
      plain.answer = .started 0 ∧ restarted.2.2 = [⟨.closed, .opened⟩, ⟨.opened, .closed⟩] ∧
      restarted.1.breaker.tally = ⟨.closed, 0, 0⟩ ∧
      (restarted.1.step (.finish 0 false)).session.breaker.tally = ⟨.opened, 1, 0⟩ ∧
      probe.answer = .started 0 ∧ retried.2.2 = [⟨.halfOpen, .opened⟩, ⟨.opened, .halfOpen⟩] ∧
      retried.1.breaker.tally = ⟨.halfOpen, 0, 0⟩ ∧
      (retried.1.step (.finish 0 true)).session.breaker.tally = ⟨.closed, 0, 0⟩ := by
  decide +kernel

end Session
end Admission
