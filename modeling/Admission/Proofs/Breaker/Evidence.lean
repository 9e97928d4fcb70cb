import Admission.Proofs.Breaker.Effect
import Admission.Proofs.Breaker.Run

/-! The evidence on which a circuit opens. Main statement: a closed circuit counts exactly the outcomes
that it has recorded since its window was started, and it opens on a trip or on a failure with which
these reach the threshold, all of them younger than a window. -/
namespace Admission

/-- An outcome that a closed circuit recorded. -/
structure Outcome where
  success : Bool
  recorded : Timestamp

/-- When a window was started and what was recorded since, the latest outcome first. -/
structure Evidence where
  since : Timestamp
  outcomes : List Outcome

namespace Evidence

def fresh (now : Timestamp) : Evidence := ⟨now, []⟩

/-- Starts a window if the last one is over. -/
def rolled (evidence : Evidence) (window : Duration) (now : Timestamp) : Evidence :=
  if now.since evidence.since < window.toMillis.toNat then evidence else fresh now

def add (evidence : Evidence) (success : Bool) (now : Timestamp) : Evidence :=
  { evidence with outcomes := ⟨success, now⟩ :: evidence.outcomes }

def failures (evidence : Evidence) : Nat :=
  evidence.outcomes.countP (!·.success)

def successes (evidence : Evidence) : Nat :=
  evidence.outcomes.countP (·.success)

/-- The evidence after an action. A reset and the close of a circuit after a probe start a window, and
so does the first outcome that a closed circuit records when the last window is over. -/
def note (session : Session) (action : Session.Action) (evidence : Evidence) : Evidence :=
  match action with
  | .reset => fresh session.clock
  | .finish call success =>
    if session.breaker.circuit = .closed then
      if (session.permit? call).isSome then
        (evidence.rolled session.breaker.settings.window session.clock).add success session.clock
      else evidence
    else if (session.step (.finish call success)).session.breaker.circuit = .closed then
      fresh session.clock
    else evidence
  | _ => evidence

section

variable {evidence : Evidence}

private theorem failures_add (evidence : Evidence) (success : Bool) (now : Timestamp) :
    (evidence.add success now).failures = if success then evidence.failures else evidence.failures + 1 := by
  cases success <;> simp [failures, add]

private theorem successes_add (evidence : Evidence) (success : Bool) (now : Timestamp) :
    (evidence.add success now).successes =
      if success then evidence.successes + 1 else evidence.successes := by
  cases success <;> simp [successes, add]

private theorem countUp_min (count : Nat) : countUp (min count maxCount) = min (count + 1) maxCount := by
  simp only [countUp]
  omega

end
end Evidence

namespace Session

open Breaker

/-- What a breaker counts is the evidence, as far as a word can count. -/
structure Gathered (breaker : Breaker) (evidence : Evidence) : Prop where
  since : breaker.windowStart = evidence.since
  tally : breaker.circuit = .closed →
    breaker.tally = ⟨.closed, min evidence.failures maxCount, min evidence.successes maxCount⟩

/-- The evidence is not older than its window nor newer than the clock. -/
structure Dated (session : Session) (evidence : Evidence) : Prop where
  since : evidence.since ≤ session.clock
  outcomes : ∀ outcome ∈ evidence.outcomes,
    evidence.since ≤ outcome.recorded ∧ outcome.recorded ≤ session.clock

section

variable {session : Session} {breaker : Breaker} {evidence : Evidence} {now : Timestamp}

theorem gathered_create (name : String) (settings : BreakerSettings) (draws : Random.Stream)
    (clock : Timestamp) : Gathered (create name settings draws clock).breaker (.fresh clock) :=
  ⟨rfl, fun _ => tally_create ..⟩

/-- The window of the evidence rolls when that of the breaker does. -/
theorem Gathered.roll (gathered : Gathered breaker evidence) (now : Timestamp) :
    Gathered (breaker.roll now) (evidence.rolled breaker.settings.window now) := by
  unfold Evidence.rolled
  rw [← gathered.since]
  by_cases ended : breaker.WindowOver now
  · rw [roll_of_over ended, if_neg (Nat.not_lt.mpr ended)]
    exact ⟨rfl, fun _ => tally_closeAt ..⟩
  · rw [roll_of_not_over ended, if_pos (Nat.not_le.mp ended)]
    exact gathered

theorem Gathered.counted (gathered : Gathered breaker evidence) (closed : breaker.circuit = .closed)
    (success : Bool) (now : Timestamp) :
    let next := (evidence.rolled breaker.settings.window now).add success now
    breaker.counted success now =
      ⟨.closed, min next.failures maxCount, min next.successes maxCount⟩ := by
  intro next
  rw [Breaker.counted, (gathered.roll now).tally (circuit_roll closed), Evidence.failures_add,
    Evidence.successes_add]
  cases success with
  | true => simp [Tally.add, Evidence.countUp_min]
  | false => simp [Tally.add, Evidence.countUp_min]

private theorem note_counted {call : Nat} {permit : Permit} (found : session.permit? call = some permit)
    (closed : session.breaker.circuit = .closed) (success : Bool) :
    evidence.note session (.finish call success) =
      (evidence.rolled session.breaker.settings.window session.clock).add success session.clock := by
  simp [Evidence.note, closed, found]

/-- The end of a call that a circuit which is not closed takes in starts a window if it closes it. -/
private theorem note_finish (other : session.breaker.circuit ≠ .closed) (call : Nat) (success : Bool) :
    evidence.note session (.finish call success) =
      if (session.step (.finish call success)).session.breaker.circuit = .closed then
        .fresh session.clock
      else evidence :=
  if_neg other

private theorem note_kept {action : Action} (notReset : action ≠ .reset)
    (notCounted : ∀ call success, action = .finish call success → session.breaker.circuit = .closed →
      session.permit? call = none)
    (same : SameCircuit session.breaker (session.step action).session.breaker) :
    evidence.note session action = evidence := by
  cases action with
  | start => rfl
  | finish call success =>
    by_cases closed : session.breaker.circuit = .closed
    · simp [Evidence.note, closed, notCounted call success rfl closed]
    · rw [note_finish closed, same.circuit, if_neg closed]
  | cancel call => rfl
  | trip => rfl
  | reset => exact absurd rfl notReset
  | setClock now => rfl
  | look => rfl

/-- What a circuit that is not closed counts is no evidence. -/
private theorem gathered_of_not_closed (since : breaker.windowStart = evidence.since)
    (other : breaker.circuit ≠ .closed) : Gathered breaker evidence :=
  ⟨since, fun closed => absurd closed other⟩

/-- Every step keeps the counts and the evidence together. -/
theorem gathered_step (gathered : Gathered session.breaker evidence) (action : Action) :
    Gathered (session.step action).session.breaker (evidence.note session action) := by
  cases effect_step session action with
  | kept _ notReset notCounted same =>
    rw [note_kept notReset notCounted same]
    exact ⟨same.windowStart.trans gathered.since,
      fun closed => same.tally.trans (gathered.tally (same.circuit ▸ closed))⟩
  | halfOpened _ _ same =>
    refine gathered_of_not_closed (same.windowStart.trans gathered.since) ?_
    rw [same.circuit, circuit_pack]
    exact nofun
  | counted found closed _ same =>
    rw [note_counted found closed]
    refine ⟨same.windowStart.trans (gathered.roll session.clock).since, fun _ => ?_⟩
    exact (same.tally.trans (tally_counted ..)).trans (gathered.counted closed ..)
  | tipped found closed _ same =>
    rw [note_counted found closed]
    refine gathered_of_not_closed (same.windowStart.trans (gathered.roll session.clock).since) ?_
    rw [same.circuit, circuit_openWith]
    exact nofun
  | recovered _ halfOpen same =>
    have closes := same.circuit.trans (circuit_closeAt ..)
    rw [note_finish (by rw [halfOpen]; exact nofun), if_pos closes]
    exact ⟨same.windowStart, fun _ => same.tally.trans (tally_closeAt ..)⟩
  | reopened _ halfOpen same =>
    have opens := same.circuit.trans (circuit_openWith ..)
    rw [note_finish (by rw [halfOpen]; exact nofun), if_neg (by rw [opens]; exact nofun)]
    refine gathered_of_not_closed (same.windowStart.trans gathered.since) ?_
    rw [opens]
    exact nofun
  | tripped same =>
    refine gathered_of_not_closed (same.windowStart.trans gathered.since) ?_
    rw [same.circuit, circuit_openWith]
    exact nofun
  | reset same =>
    exact ⟨same.windowStart, fun _ => same.tally.trans (tally_closeAt session.breaker session.clock)⟩

theorem Dated.fresh (session : Session) : Dated session (.fresh session.clock) :=
  ⟨UInt64.le_refl _, nofun⟩

theorem Dated.rolled (dated : Dated session evidence) (window : Duration) :
    Dated session (evidence.rolled window session.clock) := by
  unfold Evidence.rolled
  split
  · exact dated
  · exact .fresh session

theorem Dated.add (dated : Dated session evidence) (success : Bool) :
    Dated session (evidence.add success session.clock) := by
  refine ⟨dated.since, fun outcome member => ?_⟩
  rcases List.mem_cons.mp member with rfl | earlier
  · exact ⟨dated.since, UInt64.le_refl _⟩
  · exact dated.outcomes outcome earlier

theorem Dated.note (dated : Dated session evidence) (action : Action) :
    Dated session (evidence.note session action) := by
  cases action with
  | reset => exact .fresh session
  | finish call success =>
    unfold Evidence.note
    dsimp only
    split
    · split
      · exact (dated.rolled _).add success
      · exact dated
    · split
      · exact .fresh session
      · exact dated
  | start => exact dated
  | cancel call => exact dated
  | trip => exact dated
  | setClock now => exact dated
  | look => exact dated

theorem dated_step (dated : Dated session evidence) {action : Action}
    (forward : session.clock ≤ clockAfter session.clock action) :
    Dated (session.step action).session (evidence.note session action) := by
  rw [← clock_step] at forward
  have noted := dated.note action
  exact ⟨UInt64.le_trans noted.since forward, fun outcome member =>
    ⟨(noted.outcomes outcome member).1, UInt64.le_trans (noted.outcomes outcome member).2 forward⟩⟩

theorem Dated.young (dated : Dated session evidence) (window : Duration) (success : Bool) :
    ∀ outcome ∈ ((evidence.rolled window session.clock).add success session.clock).outcomes,
      outcome.recorded ≤ session.clock ∧
        session.clock.toNat - outcome.recorded.toNat < max 1 window.toMillis.toNat := by
  intro outcome member
  rcases List.mem_cons.mp member with rfl | earlier
  · refine ⟨UInt64.le_refl _, ?_⟩
    show session.clock.toNat - session.clock.toNat < _
    omega
  · unfold Evidence.rolled at earlier
    split at earlier
    · rename_i within
      obtain ⟨since, recorded⟩ := dated.outcomes outcome earlier
      refine ⟨recorded, ?_⟩
      simp only [Timestamp.since] at within
      rw [UInt64.le_iff_toNat_le] at since
      omega
    · cases earlier

private theorem counted_note (gathered : Gathered session.breaker evidence) {call : Nat} {permit : Permit}
    (found : session.permit? call = some permit) (closed : session.breaker.circuit = .closed)
    (success : Bool) : session.breaker.counted success session.clock =
      ⟨.closed, min (evidence.note session (.finish call success)).failures maxCount,
        min (evidence.note session (.finish call success)).successes maxCount⟩ := by
  rw [note_counted found closed]
  exact gathered.counted closed success session.clock

/-- A closed circuit opens on a trip and on the failures with which it has enough evidence. -/
theorem opens_iff (gathered : Gathered session.breaker evidence) (closed : session.breaker.circuit = .closed)
    (action : Action) :
    (session.step action).session.breaker.circuit = .opened ↔
      action = .trip ∨ ∃ call, action = .finish call false ∧ (session.permit? call).isSome ∧
        session.breaker.settings.OpensAt (min (evidence.note session action).failures maxCount)
          (min (evidence.note session action).successes maxCount) := by
  cases effect_step session action with
  | kept notTripped _ notCounted same =>
    rw [same.circuit, closed]
    refine iff_of_false nofun ?_
    rintro (rfl | ⟨call, rfl, found, -⟩)
    · exact notTripped rfl
    · rw [notCounted call false rfl closed] at found
      cases found
  | halfOpened opened _ _ =>
    rw [closed] at opened
    cases opened
  | counted found _ stays same =>
    rw [circuit, same.tally, tally_counted, circuit_counted closed]
    refine iff_of_false nofun ?_
    rintro (tripped | ⟨call, ⟨⟩, -, opens⟩)
    · cases tripped
    · rw [counted_note gathered found closed] at stays
      exact stays rfl opens
  | tipped found _ opens same =>
    rw [same.circuit, circuit_openWith]
    rw [counted_note gathered found closed] at opens
    exact iff_of_true rfl (.inr ⟨_, rfl, by rw [found]; rfl, opens⟩)
  | recovered _ halfOpen _ =>
    rw [closed] at halfOpen
    cases halfOpen
  | reopened _ halfOpen _ =>
    rw [closed] at halfOpen
    cases halfOpen
  | tripped same =>
    rw [same.circuit, circuit_openWith]
    exact iff_of_true rfl (.inl rfl)
  | reset same =>
    rw [same.circuit.trans (circuit_closeAt session.breaker session.clock)]
    exact iff_of_false nofun nofun

/-- A closed circuit counts the outcomes that it has recorded since its window was started. It opens on
a trip or on a failure with which they are enough, and then none of them is older than a window. -/
theorem run_opens_on_evidence (name : String) (settings : BreakerSettings) (draws : Random.Stream)
    (clock : Timestamp) (actions : List Action) (forward : Forward clock actions) :
    let start := create name settings draws clock
    let session := (start.run actions).1
    let evidence := start.follow Evidence.note (.fresh clock) actions
    session.breaker.circuit = .closed →
      session.breaker.tally =
          ⟨.closed, min evidence.failures maxCount, min evidence.successes maxCount⟩ ∧
        ∀ action : Action,
          let next := evidence.note session action
          let opens := (session.step action).session.breaker.circuit = .opened
          (opens ↔ action = .trip ∨ ∃ call, action = .finish call false ∧ (session.permit? call).isSome ∧
            settings.OpensAt (min next.failures maxCount) (min next.successes maxCount)) ∧
          (opens → action ≠ .trip → ∀ outcome ∈ next.outcomes, outcome.recorded ≤ session.clock ∧
            session.clock.toNat - outcome.recorded.toNat < max 1 settings.window.toMillis.toNat) := by
  intro start session evidence closed
  obtain ⟨gathered, dated, same⟩ : Gathered session.breaker evidence ∧ Dated session evidence ∧
      session.breaker.settings = settings := by
    refine follow_invariant
      (fun session evidence => Gathered session.breaker evidence ∧ Dated session evidence ∧
        session.breaker.settings = settings) ?_
      ⟨gathered_create name settings draws clock, .fresh start, rfl⟩ actions forward
    rintro before action noted ahead ⟨gathered, dated, same⟩
    exact ⟨gathered_step gathered action, dated_step dated ahead,
      (effect_step before action).settings.trans same⟩
  refine ⟨gathered.tally closed, ?_⟩
  intro action next opens
  have enough := opens_iff gathered closed action
  rw [same] at enough
  refine ⟨enough, fun opened untripped => ?_⟩
  obtain ⟨call, rfl, found, -⟩ := (enough.mp opened).resolve_left untripped
  obtain ⟨permit, found⟩ := Option.isSome_iff_exists.mp found
  have young := dated.young session.breaker.settings.window false
  rw [← note_counted found closed, same] at young
  exact young

/-- Two failures of which the second opens the circuit. -/
theorem run_opens_on_two_failures :
    let settings : BreakerSettings :=
      { threshold := 1 / 2, minimumCalls := 2, window := .ofSeconds 10, recovery := .ofSeconds 30,
        jitter := .none, maxProbes := 1 }
    let actions : List Action := [.start, .finish 0 false, .setClock 5, .start]
    let start := create "store" settings (.ofList []) 0
    let session := (start.run actions).1
    let next := (start.follow Evidence.note (.fresh 0) actions).note session (.finish 1 false)
    Forward 0 actions ∧ session.breaker.tally = ⟨.closed, 1, 0⟩ ∧ next.failures = 2 ∧
      (session.step (.finish 1 false)).session.breaker.circuit = .opened ∧
      ∀ outcome ∈ next.outcomes, outcome.recorded ≤ session.clock ∧
        session.clock.toNat - outcome.recorded.toNat < max 1 settings.window.toMillis.toNat := by
  intro settings actions start session next
  have forward : Forward 0 actions := by
    refine ⟨?_, ?_, ?_, ?_, trivial⟩ <;> decide
  have closed : session.breaker.circuit = .closed := by decide +kernel
  have opened : (session.step (.finish 1 false)).session.breaker.circuit = .opened := by decide +kernel
  have young := ((run_opens_on_evidence "store" settings (.ofList []) 0 actions forward closed).2
    (.finish 1 false)).2 opened nofun
  exact ⟨forward, by decide +kernel, by decide +kernel, opened, young⟩

end
end Session
end Admission
