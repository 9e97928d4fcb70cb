import Admission.Breaker.Session

/-! What an action does to the circuit of a breaker. Main statement: every step of a session keeps the
circuit, counts an outcome in it, or moves it, and says which. -/
namespace Admission

/-- A failure after which a window has these counts opens the circuit. -/
def BreakerSettings.OpensAt (settings : BreakerSettings) (failures successes : Nat) : Prop :=
  settings.minimumCalls ≤ failures + successes ∧ settings.threshold ≤ failureRate failures successes

instance (settings : BreakerSettings) (failures successes : Nat) :
    Decidable (settings.OpensAt failures successes) :=
  inferInstanceAs (Decidable (_ ∧ _))

/-- The counts with one more outcome. -/
def Tally.add (tally : Tally) (success : Bool) : Tally :=
  if success then { tally with successes := countUp tally.successes }
  else { tally with failures := countUp tally.failures }

namespace Breaker

/-- Two breakers that differ in their slots at most. -/
structure SameCircuit (before after : Breaker) : Prop where
  settings : after.settings = before.settings
  word : after.word = before.word
  windowStart : after.windowStart = before.windowStart
  openedAt : after.openedAt = before.openedAt
  halfOpenAt : after.halfOpenAt = before.halfOpenAt
  draws : after.draws = before.draws

/-- The window has lasted as long as it may. -/
def WindowOver (breaker : Breaker) (now : Timestamp) : Prop :=
  breaker.settings.window.toMillis.toNat ≤ now.since breaker.windowStart

instance (breaker : Breaker) (now : Timestamp) : Decidable (breaker.WindowOver now) :=
  inferInstanceAs (Decidable (_ ≤ _))

/-- The counts with an outcome, without those of a window that is over. -/
def counted (breaker : Breaker) (success : Bool) (now : Timestamp) : Tally :=
  (breaker.roll now).tally.add success

section

variable {breaker before after : Breaker} {now : Timestamp}

theorem SameCircuit.refl (breaker : Breaker) : SameCircuit breaker breaker :=
  ⟨rfl, rfl, rfl, rfl, rfl, rfl⟩

theorem SameCircuit.tally (same : SameCircuit before after) : after.tally = before.tally :=
  congrArg BreakerWord.unpack same.word

theorem SameCircuit.circuit (same : SameCircuit before after) : after.circuit = before.circuit :=
  congrArg Tally.circuit same.tally

theorem SameCircuit.trans {later : Breaker} (first : SameCircuit before after)
    (second : SameCircuit after later) : SameCircuit before later :=
  ⟨second.settings.trans first.settings, second.word.trans first.word,
    second.windowStart.trans first.windowStart, second.openedAt.trans first.openedAt,
    second.halfOpenAt.trans first.halfOpenAt, second.draws.trans first.draws⟩

theorem sameCircuit_release (breaker : Breaker) (permit : Permit) :
    SameCircuit breaker (breaker.release permit) := by
  cases permit with
  | plain => exact .refl breaker
  | probe => exact ⟨rfl, rfl, rfl, rfl, rfl, rfl⟩

theorem sameCircuit_takeSlot (taken : breaker.takeSlot = .ok after) : SameCircuit breaker after := by
  unfold takeSlot at taken
  split at taken
  · cases taken
    exact ⟨rfl, rfl, rfl, rfl, rfl, rfl⟩
  · cases taken

theorem tally_fits (breaker : Breaker) :
    breaker.tally.failures ≤ maxCount ∧ breaker.tally.successes ≤ maxCount :=
  ⟨Nat.le_of_lt_succ (BitVec.isLt _), Nat.le_of_lt_succ (BitVec.isLt _)⟩

@[simp] theorem circuit_openWith (breaker : Breaker) (failures successes : Nat) (now : Timestamp) :
    (breaker.openWith failures successes now).circuit = .opened :=
  BreakerWord.circuit_unpack_pack _

@[simp] theorem tally_closeAt (breaker : Breaker) (now : Timestamp) :
    (breaker.closeAt now).tally = ⟨.closed, 0, 0⟩ :=
  BreakerWord.unpack_pack (Nat.zero_le _) (Nat.zero_le _)

@[simp] theorem circuit_closeAt (breaker : Breaker) (now : Timestamp) :
    (breaker.closeAt now).circuit = .closed :=
  BreakerWord.circuit_unpack_pack _

@[simp] theorem tally_create (name : String) (settings : BreakerSettings) (draws : Random.Stream)
    (now : Timestamp) : (create name settings draws now).tally = ⟨.closed, 0, 0⟩ :=
  BreakerWord.unpack_pack (Nat.zero_le _) (Nat.zero_le _)

@[simp] theorem circuit_create (name : String) (settings : BreakerSettings) (draws : Random.Stream)
    (now : Timestamp) : (create name settings draws now).circuit = .closed :=
  BreakerWord.circuit_unpack_pack _

theorem roll_of_over (ended : breaker.WindowOver now) : breaker.roll now = breaker.closeAt now :=
  if_neg (Nat.not_lt.mpr ended)

theorem roll_of_not_over (going : ¬ breaker.WindowOver now) : breaker.roll now = breaker :=
  if_pos (Nat.not_le.mp going)

theorem circuit_roll (closed : breaker.circuit = .closed) : (breaker.roll now).circuit = .closed := by
  by_cases ended : breaker.WindowOver now
  · rw [roll_of_over ended, circuit_closeAt]
  · rwa [roll_of_not_over ended]

/-- A roll touches the counts and the start of the window only. -/
theorem roll_frame {α : Type} (field : Breaker → α)
    (free : ∀ breaker word windowStart, field { breaker with word, windowStart } = field breaker)
    (breaker : Breaker) (now : Timestamp) : field (breaker.roll now) = field breaker := by
  unfold roll
  split
  · rfl
  · exact free breaker _ now

theorem settings_roll (breaker : Breaker) (now : Timestamp) :
    (breaker.roll now).settings = breaker.settings :=
  roll_frame settings (fun _ _ _ => rfl) breaker now

theorem draws_roll (breaker : Breaker) (now : Timestamp) : (breaker.roll now).draws = breaker.draws :=
  roll_frame draws (fun _ _ _ => rfl) breaker now

/-- The counts with an outcome are those of a new window or one more than before. -/
theorem counted_cases (breaker : Breaker) (success : Bool) (now : Timestamp) :
    breaker.counted success now = Tally.add ⟨.closed, 0, 0⟩ success ∨
      breaker.counted success now = breaker.tally.add success ∧ ¬ breaker.WindowOver now := by
  unfold counted
  by_cases ended : breaker.WindowOver now
  · left
    rw [roll_of_over ended, tally_closeAt]
  · right
    rw [roll_of_not_over ended]
    exact ⟨rfl, ended⟩

theorem circuit_counted (closed : breaker.circuit = .closed) (success : Bool) :
    (breaker.counted success now).circuit = .closed := by
  have rolled : (breaker.roll now).tally.circuit = .closed := circuit_roll closed
  cases success with
  | true => exact rolled
  | false => exact rolled

theorem counted_fits (breaker : Breaker) (success : Bool) (now : Timestamp) :
    (breaker.counted success now).failures ≤ maxCount ∧
      (breaker.counted success now).successes ≤ maxCount := by
  obtain ⟨failures, successes⟩ := (breaker.roll now).tally_fits
  cases success with
  | true => exact ⟨failures, BreakerWord.countUp_le _⟩
  | false => exact ⟨BreakerWord.countUp_le _, successes⟩

theorem tally_counted (other : Breaker) (success : Bool) :
    ({ other with word := .pack (breaker.counted success now) } : Breaker).tally =
      breaker.counted success now :=
  BreakerWord.unpack_pack (breaker.counted_fits success now).1 (breaker.counted_fits success now).2

/-- Counting an outcome opens a closed circuit if it is a failure that says so, and else leaves the
circuit closed. -/
theorem count_eq (closed : breaker.circuit = .closed) (success : Bool) (now : Timestamp) :
    (breaker.count success now).1 =
      if success = false ∧
          breaker.settings.OpensAt (breaker.counted success now).failures
            (breaker.counted success now).successes then
        (breaker.roll now).openWith (breaker.counted success now).failures
          (breaker.counted success now).successes now
      else { breaker.roll now with word := .pack (breaker.counted success now) } := by
  have rolled : (breaker.roll now).tally.circuit = .closed := circuit_roll closed
  rw [← settings_roll breaker now]
  cases success with
  | true =>
    simp only [Bool.true_eq_false, false_and, if_false]
    simp only [count, counted, Tally.add, if_true, rolled]
  | false =>
    simp only [true_and]
    simp only [count, counted, Tally.add, Bool.false_eq_true, if_false, rolled, BreakerSettings.OpensAt]
    split <;> rfl

theorem record_opened (opened : breaker.circuit = .opened) (permit : Permit) (success : Bool)
    (now : Timestamp) : breaker.record permit success now = (breaker, none) := by
  unfold record
  rw [opened]

theorem record_closed (closed : breaker.circuit = .closed) (permit : Permit) (success : Bool)
    (now : Timestamp) : breaker.record permit success now = breaker.count success now := by
  unfold record
  rw [closed]

theorem record_plain (halfOpen : breaker.circuit = .halfOpen) (success : Bool) (now : Timestamp) :
    breaker.record .plain success now = (breaker, none) := by
  unfold record
  rw [halfOpen]

theorem record_probe (halfOpen : breaker.circuit = .halfOpen) (success : Bool) (now : Timestamp) :
    (breaker.record .probe success now).1 =
      if success then breaker.closeAt now else breaker.openWith 1 0 now := by
  unfold record
  rw [halfOpen]
  cases success <;> rfl

theorem enter_closed (closed : breaker.circuit = .closed) (now : Timestamp) :
    breaker.enter now = ⟨.ok .plain, none, breaker⟩ := by
  unfold enter look
  rw [closed]

theorem enter_early (opened : breaker.circuit = .opened) (early : now < breaker.halfOpenAt) :
    breaker.enter now =
      ⟨.error (.opened breaker.tally.failures (.ofMillis (breaker.halfOpenAt - now))), none, breaker⟩ := by
  unfold enter look
  rw [opened]
  simp only [early, if_true]

theorem enter_late (opened : breaker.circuit = .opened) (late : ¬ now < breaker.halfOpenAt) :
    let moved : Breaker := { breaker with word := .pack ⟨.halfOpen, 0, 0⟩ }
    breaker.enter now = match moved.takeSlot with
      | .ok taken => ⟨.ok .probe, some ⟨.opened, .halfOpen⟩, taken⟩
      | .error refusal => ⟨.error refusal, some ⟨.opened, .halfOpen⟩, moved⟩ := by
  intro moved
  unfold enter look
  rw [opened]
  simp only [late, if_false]
  cases moved.takeSlot with
  | ok taken => rfl
  | error refusal => rfl

theorem enter_halfOpen (halfOpen : breaker.circuit = .halfOpen) (now : Timestamp) :
    breaker.enter now = match breaker.takeSlot with
      | .ok taken => ⟨.ok .probe, none, taken⟩
      | .error refusal => ⟨.error refusal, none, breaker⟩ := by
  unfold enter look
  rw [halfOpen]
  cases breaker.takeSlot with
  | ok taken => rfl
  | error refusal => rfl

private theorem enter_effect (breaker : Breaker) (now : Timestamp) :
    breaker.circuit = .opened ∧ ¬ now < breaker.halfOpenAt ∧
        SameCircuit { breaker with word := .pack ⟨.halfOpen, 0, 0⟩ } (breaker.enter now).breaker ∨
      SameCircuit breaker (breaker.enter now).breaker := by
  cases state : breaker.circuit with
  | closed =>
    right
    rw [enter_closed state]
    exact .refl breaker
  | opened =>
    by_cases early : now < breaker.halfOpenAt
    · right
      rw [enter_early state early]
      exact .refl breaker
    · left
      refine ⟨rfl, early, ?_⟩
      rw [enter_late state early]
      cases taken : ({ breaker with word := .pack ⟨.halfOpen, 0, 0⟩ } : Breaker).takeSlot with
      | ok after => exact sameCircuit_takeSlot taken
      | error refusal => exact .refl _
  | halfOpen =>
    right
    rw [enter_halfOpen state]
    cases taken : breaker.takeSlot with
    | ok after => exact sameCircuit_takeSlot taken
    | error refusal => exact .refl breaker

private theorem name_takeSlot {after : Breaker} (taken : breaker.takeSlot = .ok after) :
    after.name = breaker.name := by
  unfold takeSlot at taken
  split at taken <;> cases taken
  rfl

theorem name_enter (breaker : Breaker) (now : Timestamp) : (breaker.enter now).breaker.name = breaker.name := by
  cases state : breaker.circuit with
  | closed => rw [enter_closed state]
  | opened =>
    by_cases early : now < breaker.halfOpenAt
    · rw [enter_early state early]
    · rw [enter_late state early]
      cases taken : ({ breaker with word := .pack ⟨.halfOpen, 0, 0⟩ } : Breaker).takeSlot with
      | ok after =>
        have kept := name_takeSlot taken
        exact kept
      | error refusal => rfl
  | halfOpen =>
    rw [enter_halfOpen state]
    cases taken : breaker.takeSlot with
    | ok after => exact name_takeSlot taken
    | error refusal => rfl

end
end Breaker

namespace Session

open Breaker

/-- What an action does to the circuit, apart from the slots. -/
inductive Effect (session : Session) : Action → Breaker → Prop
  /-- No circuit is kept by a trip, a reset or the end of a call that it counts. -/
  | kept {action : Action} {after : Breaker} (notTripped : action ≠ .trip) (notReset : action ≠ .reset)
      (notCounted : ∀ call success, action = .finish call success → session.breaker.circuit = .closed →
        session.permit? call = none)
      (same : SameCircuit session.breaker after) : Effect session action after
  | halfOpened {after : Breaker} (opened : session.breaker.circuit = .opened)
      (late : ¬ session.clock < session.breaker.halfOpenAt)
      (same : SameCircuit { session.breaker with word := .pack ⟨.halfOpen, 0, 0⟩ } after) :
      Effect session .start after
  | counted {call : Nat} {permit : Permit} {success : Bool} {after : Breaker}
      (found : session.permit? call = some permit) (closed : session.breaker.circuit = .closed)
      (stays : success = false →
        ¬ session.breaker.settings.OpensAt (session.breaker.counted success session.clock).failures
          (session.breaker.counted success session.clock).successes)
      (same : SameCircuit { session.breaker.roll session.clock with
        word := .pack (session.breaker.counted success session.clock) } after) :
      Effect session (.finish call success) after
  | tipped {call : Nat} {permit : Permit} {after : Breaker}
      (found : session.permit? call = some permit) (closed : session.breaker.circuit = .closed)
      (opens : session.breaker.settings.OpensAt (session.breaker.counted false session.clock).failures
        (session.breaker.counted false session.clock).successes)
      (same : SameCircuit ((session.breaker.roll session.clock).openWith
        (session.breaker.counted false session.clock).failures
        (session.breaker.counted false session.clock).successes session.clock) after) :
      Effect session (.finish call false) after
  | recovered {call : Nat} {after : Breaker} (found : session.permit? call = some .probe)
      (halfOpen : session.breaker.circuit = .halfOpen)
      (same : SameCircuit (session.breaker.closeAt session.clock) after) :
      Effect session (.finish call true) after
  | reopened {call : Nat} {after : Breaker} (found : session.permit? call = some .probe)
      (halfOpen : session.breaker.circuit = .halfOpen)
      (same : SameCircuit (session.breaker.openWith 1 0 session.clock) after) :
      Effect session (.finish call false) after
  | tripped {after : Breaker} (same : SameCircuit (session.breaker.openWith
      session.breaker.tally.failures session.breaker.tally.successes session.clock) after) :
      Effect session .trip after
  | reset {after : Breaker} (same : SameCircuit { session.breaker.closeAt session.clock with
      openedAt := Timestamp.last, halfOpenAt := Timestamp.last } after) : Effect session .reset after

variable {session : Session} {call : Nat} {permit : Permit}

theorem step_finish (found : session.permit? call = some permit) (success : Bool) :
    (session.step (.finish call success)).session.breaker =
      (session.breaker.record permit success session.clock).1.release permit := by
  unfold step
  simp only [found]
  rfl

theorem Effect.of_not_closed {action : Action} {after : Breaker} (notTripped : action ≠ .trip)
    (notReset : action ≠ .reset) (other : session.breaker.circuit ≠ .closed)
    (same : SameCircuit session.breaker after) : Effect session action after :=
  .kept notTripped notReset (fun _ _ _ closed => absurd closed other) same

private theorem effect_finish (found : session.permit? call = some permit) (success : Bool) :
    Effect session (.finish call success) (session.step (.finish call success)).session.breaker := by
  rw [step_finish found]
  have released := sameCircuit_release (session.breaker.record permit success session.clock).1 permit
  cases state : session.breaker.circuit with
  | closed =>
    rw [record_closed state, count_eq state] at released ⊢
    split at released
    · rename_i opens
      obtain ⟨rfl, opens⟩ := opens
      rw [if_pos ⟨rfl, opens⟩]
      exact .tipped found state opens released
    · rename_i stays
      rw [if_neg stays]
      exact .counted found state (fun failed opens => stays ⟨failed, opens⟩) released
  | opened =>
    rw [record_opened state] at released ⊢
    refine .of_not_closed nofun nofun ?_ released
    rw [state]
    exact nofun
  | halfOpen =>
    cases permit with
    | plain =>
      rw [record_plain state] at released ⊢
      refine .of_not_closed nofun nofun ?_ released
      rw [state]
      exact nofun
    | probe =>
      rw [record_probe state] at released ⊢
      cases success with
      | true => exact .recovered found state released
      | false => exact .reopened found state released

/-- Every step has one of the effects on the circuit. -/
theorem effect_step (session : Session) (action : Action) :
    Effect session action (session.step action).session.breaker := by
  cases action with
  | start =>
    have entered : (session.step .start).session.breaker = (session.breaker.enter session.clock).breaker := by
      unfold step
      dsimp only
      split <;> rfl
    rw [entered]
    rcases session.breaker.enter_effect session.clock with ⟨opened, late, same⟩ | same
    · exact .halfOpened opened late same
    · exact .kept nofun nofun nofun same
  | finish call success =>
    cases found : session.permit? call with
    | none =>
      have unknown : (session.step (.finish call success)).session = session := by
        unfold step
        simp only [found]
      rw [unknown]
      refine .kept nofun nofun ?_ (.refl _)
      rintro _ _ ⟨⟩ _
      exact found
    | some permit => exact effect_finish found success
  | cancel call =>
    refine .kept nofun nofun nofun ?_
    unfold step
    cases found : session.permit? call with
    | none =>
      simp only [found]
      exact .refl session.breaker
    | some permit =>
      simp only [found]
      exact sameCircuit_release session.breaker permit
  | trip => exact .tripped (.refl _)
  | reset => exact .reset (.refl _)
  | setClock now => exact .kept nofun nofun nofun (.refl _)
  | look => exact .kept nofun nofun nofun (.refl _)

theorem Effect.settings {action : Action} {after : Breaker} (effect : Effect session action after) :
    after.settings = session.breaker.settings := by
  cases effect with
  | kept _ _ _ same => exact same.settings
  | halfOpened _ _ same => exact same.settings
  | counted _ _ _ same => exact same.settings.trans (settings_roll ..)
  | tipped _ _ _ same => exact same.settings.trans (settings_roll ..)
  | recovered _ _ same => exact same.settings
  | reopened _ _ same => exact same.settings
  | tripped same => exact same.settings
  | reset same => exact same.settings

/-- A circuit that is closed after an action was kept, has counted an outcome, or starts a window. -/
theorem Effect.closed_cases {action : Action} {after : Breaker} (effect : Effect session action after)
    (closed : after.circuit = .closed) :
    after.tally = session.breaker.tally ∨
      (session.breaker.circuit = .closed ∧ ∃ success,
        after.tally = session.breaker.counted success session.clock ∧
        (success = false → ¬ session.breaker.settings.OpensAt
          (session.breaker.counted success session.clock).failures
          (session.breaker.counted success session.clock).successes)) ∨
      after.tally = ⟨.closed, 0, 0⟩ := by
  cases effect with
  | kept _ _ _ same => exact .inl same.tally
  | halfOpened _ _ same =>
    rw [same.circuit, circuit_pack] at closed
    cases closed
  | counted _ before stays same =>
    exact .inr (.inl ⟨before, _, same.tally.trans (tally_counted ..), stays⟩)
  | tipped _ _ _ same =>
    rw [same.circuit, circuit_openWith] at closed
    cases closed
  | recovered _ _ same => exact .inr (.inr (same.tally.trans (tally_closeAt ..)))
  | reopened _ _ same =>
    rw [same.circuit, circuit_openWith] at closed
    cases closed
  | tripped same =>
    rw [same.circuit, circuit_openWith] at closed
    cases closed
  | reset same => exact .inr (.inr (same.tally.trans (tally_closeAt session.breaker session.clock)))

end Session
end Admission
