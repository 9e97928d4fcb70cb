import Admission.Proofs.Breaker.Effect
import Admission.Proofs.Breaker.Probes
import Admission.Proofs.Breaker.Run
import Admission.Proofs.Jitter

/-! The deadline of an open circuit. Main statement: an open circuit refuses every call until the
recovery drawn for its latest opening has passed, and lets in the first probe from then on. -/
namespace Admission

/-- The recovery that an opening draws after so many earlier ones. -/
def BreakerSettings.recoveryAt (settings : BreakerSettings) (draws : Random.Stream) (earlier : Nat) :
    Duration :=
  settings.jitter.apply settings.recovery (Random.symmetricUnit (draws.word (draws.drawn + earlier)))

namespace Breaker

/-- The breaker has drawn a recovery for each opening, and an open circuit has the time of the latest
one and the deadline drawn for it. -/
structure Armed (settings : BreakerSettings) (draws : Random.Stream) (breaker : Breaker)
    (openings : List Timestamp) : Prop where
  deadline : breaker.circuit = .opened → ∃ time earlier, openings = time :: earlier ∧
    breaker.openedAt = time ∧ breaker.halfOpenAt = time.after (settings.recoveryAt draws earlier.length)
  word : breaker.draws.word = draws.word
  drawn : settings.jitter = .none ∨ breaker.draws.drawn = draws.drawn + openings.length
  settings : breaker.settings = settings

section

variable {settings : BreakerSettings} {draws : Random.Stream} {before after : Breaker}
  {openings : List Timestamp}

theorem Armed.of_not_opened (armed : Armed settings draws before openings)
    (sameSettings : after.settings = before.settings) (sameDraws : after.draws = before.draws)
    (other : after.circuit ≠ .opened) : Armed settings draws after openings := by
  refine ⟨fun opened => absurd opened other, ?_, ?_, sameSettings.trans armed.settings⟩
  · rw [sameDraws]
    exact armed.word
  · rw [sameDraws]
    exact armed.drawn

theorem Armed.sameCircuit (armed : Armed settings draws before openings) (same : SameCircuit before after) :
    Armed settings draws after openings := by
  refine ⟨?_, ?_, ?_, same.settings.trans armed.settings⟩
  · rw [same.circuit, same.openedAt, same.halfOpenAt]
    exact armed.deadline
  · rw [same.draws]
    exact armed.word
  · rw [same.draws]
    exact armed.drawn

theorem Armed.openWith (armed : Armed settings draws before openings) (failures successes : Nat)
    (now : Timestamp) : Armed settings draws (before.openWith failures successes now) (now :: openings) := by
  obtain ⟨sampled, word, drawn⟩ :=
    before.settings.jitter.sample_spec before.settings.recovery before.draws
  rw [armed.settings] at sampled word drawn
  have deadline : (before.openWith failures successes now).halfOpenAt =
      now.after (settings.jitter.sample settings.recovery before.draws).1 := by
    rw [← armed.settings]
    rfl
  have stream : (before.openWith failures successes now).draws =
      (settings.jitter.sample settings.recovery before.draws).2 := by
    rw [← armed.settings]
    rfl
  refine ⟨fun _ => ⟨now, openings, rfl, rfl, ?_⟩, ?_, ?_, armed.settings⟩
  · rw [deadline, sampled, BreakerSettings.recoveryAt]
    rcases armed.drawn with undrawn | count
    · rw [undrawn]
      rfl
    · rw [armed.word, count]
  · rw [stream]
    exact word.trans armed.word
  · rw [stream]
    rcases armed.drawn with undrawn | count
    · exact .inl undrawn
    · refine drawn.imp_right fun next => ?_
      rw [next, count, List.length_cons, Nat.add_assoc]

end
end Breaker

namespace Session

open Breaker

/-- The readings at which the circuit was opened or tripped, the latest first. -/
def noteOpening (session : Session) (action : Action) (openings : List Timestamp) : List Timestamp :=
  if action = .trip ∨ session.breaker.circuit ≠ .opened ∧
      (session.step action).session.breaker.circuit = .opened then
    session.clock :: openings
  else openings

/-- No trip, no reset, and no call that asks to start at the deadline or after it. -/
def Early (deadline : Timestamp) : Timestamp → List Action → Prop :=
  Throughout fun clock action =>
    action ≠ .trip ∧ action ≠ .reset ∧ (action = .start → clock < deadline)

section

variable {settings : BreakerSettings} {draws : Random.Stream} {session : Session} {openings : List Timestamp}

theorem armed_create (name : String) (settings : BreakerSettings) (draws : Random.Stream)
    (clock : Timestamp) : Armed settings draws (create name settings draws clock).breaker [] := by
  refine ⟨fun opened => ?_, rfl, .inr rfl, rfl⟩
  have closed : (create name settings draws clock).breaker.circuit = .closed := circuit_create ..
  rw [closed] at opened
  cases opened

/-- A step that opens the circuit arms the deadline drawn for it. -/
theorem armed_step_of_opened {before : Breaker} {action : Action} {failures successes : Nat}
    (armed : Armed settings draws before openings)
    (opens : action = .trip ∨ session.breaker.circuit ≠ .opened)
    (same : SameCircuit (before.openWith failures successes session.clock)
      (session.step action).session.breaker) :
    Armed settings draws (session.step action).session.breaker (session.noteOpening action openings) := by
  have opened : (session.step action).session.breaker.circuit = .opened := by
    rw [same.circuit, circuit_openWith]
  rw [noteOpening, if_pos (opens.imp_right fun other => ⟨other, opened⟩)]
  exact (armed.openWith ..).sameCircuit same

theorem armed_step_of_not_opened {action : Action} (armed : Armed settings draws session.breaker openings)
    (notTripped : action ≠ .trip)
    (sameDraws : (session.step action).session.breaker.draws = session.breaker.draws)
    (other : (session.step action).session.breaker.circuit ≠ .opened) :
    Armed settings draws (session.step action).session.breaker (session.noteOpening action openings) := by
  rw [noteOpening, if_neg]
  · exact armed.of_not_opened (effect_step session action).settings sameDraws other
  · rintro (tripped | ⟨-, opened⟩)
    · exact notTripped tripped
    · exact other opened

/-- Every step keeps the deadline of the latest opening. -/
theorem armed_step (armed : Armed settings draws session.breaker openings) (action : Action) :
    Armed settings draws (session.step action).session.breaker (session.noteOpening action openings) := by
  cases effect_step session action with
  | kept notTripped _ _ same =>
    rw [noteOpening, if_neg]
    · exact armed.sameCircuit same
    · rw [same.circuit]
      rintro (tripped | ⟨other, opened⟩)
      · exact notTripped tripped
      · exact other opened
  | halfOpened _ _ same =>
    refine armed_step_of_not_opened armed nofun same.draws ?_
    rw [same.circuit, circuit_pack]
    exact nofun
  | counted _ closed _ same =>
    refine armed_step_of_not_opened armed nofun (same.draws.trans (draws_roll ..)) ?_
    rw [circuit, same.tally, tally_counted, circuit_counted closed]
    exact nofun
  | tipped _ closed _ same =>
    have rolled : Armed settings draws (session.breaker.roll session.clock) openings := by
      refine armed.of_not_opened (settings_roll ..) (draws_roll ..) ?_
      rw [circuit_roll closed]
      exact nofun
    refine armed_step_of_opened rolled (.inr ?_) same
    rw [closed]
    exact nofun
  | recovered _ _ same =>
    refine armed_step_of_not_opened armed nofun same.draws ?_
    rw [same.circuit, circuit_closeAt]
    exact nofun
  | reopened _ halfOpen same =>
    refine armed_step_of_opened armed (.inr ?_) same
    rw [halfOpen]
    exact nofun
  | tripped same => exact armed_step_of_opened armed (.inl rfl) same
  | reset same =>
    refine armed_step_of_not_opened armed nofun same.draws ?_
    rw [same.circuit.trans (circuit_closeAt session.breaker session.clock)]
    exact nofun

theorem step_start_early (opened : session.breaker.circuit = .opened)
    (early : session.clock < session.breaker.halfOpenAt) :
    session.step .start = ⟨session, .refused (.opened session.breaker.tally.failures
      (.ofMillis (session.breaker.halfOpenAt - session.clock))), none⟩ := by
  unfold step
  rw [enter_early opened early]

/-- The first call that asks to start from the deadline on makes the circuit half-open and takes a slot
of it. -/
theorem step_start_late (opened : session.breaker.circuit = .opened)
    (late : ¬ session.clock < session.breaker.halfOpenAt) :
    let moved : Breaker := { session.breaker with word := .pack ⟨.halfOpen, 0, 0⟩ }
    session.step .start =
      if session.breaker.probes < session.breaker.settings.maxProbes then
        ⟨session.join .probe { moved with probes := session.breaker.probes + 1 }, .started session.begun,
          some ⟨.opened, .halfOpen⟩⟩
      else
        ⟨{ session with breaker := moved },
          .refused (.probeLimit session.breaker.probes session.breaker.settings.maxProbes),
          some ⟨.opened, .halfOpen⟩⟩ := by
  intro moved
  unfold step
  rw [enter_late opened late]
  unfold takeSlot
  split_ifs <;> rfl

/-- The end of a call does not move an open circuit, nor does anything else but a trip, a reset and a
call that asks to start from the deadline on. -/
theorem sameCircuit_step {action : Action} (opened : session.breaker.circuit = .opened)
    (notTripped : action ≠ .trip) (notReset : action ≠ .reset)
    (early : action = .start → session.clock < session.breaker.halfOpenAt) :
    SameCircuit session.breaker (session.step action).session.breaker := by
  cases effect_step session action with
  | kept _ _ _ same => exact same
  | halfOpened _ late _ => exact absurd (early rfl) late
  | counted _ closed _ _ =>
    rw [opened] at closed
    cases closed
  | tipped _ closed _ _ =>
    rw [opened] at closed
    cases closed
  | recovered _ halfOpen _ =>
    rw [opened] at halfOpen
    cases halfOpen
  | reopened _ halfOpen _ =>
    rw [opened] at halfOpen
    cases halfOpen
  | tripped _ => exact absurd rfl notTripped
  | reset _ => exact absurd rfl notReset

theorem begun_step {action : Action} (notStart : action ≠ .start) :
    (session.step action).session.begun = session.begun ∧
      ∀ call, (session.step action).answer ≠ .started call := by
  unfold step
  cases action with
  | start => exact absurd rfl notStart
  | finish call success =>
    dsimp only
    split
    · exact ⟨rfl, nofun⟩
    · exact ⟨rfl, nofun⟩
  | cancel call =>
    dsimp only
    split
    · exact ⟨rfl, nofun⟩
    · exact ⟨rfl, nofun⟩
  | trip => exact ⟨rfl, nofun⟩
  | reset => exact ⟨rfl, nofun⟩
  | setClock now => exact ⟨rfl, nofun⟩
  | look => exact ⟨rfl, nofun⟩

/-- Before the deadline an open circuit stays as it is and nothing starts. -/
theorem run_early (opened : session.breaker.circuit = .opened) (actions : List Action)
    (early : Early session.breaker.halfOpenAt session.clock actions) :
    SameCircuit session.breaker (session.run actions).1.breaker ∧
      (session.run actions).1.begun = session.begun ∧
      ∀ answer ∈ (session.run actions).2.1, ∀ call, answer ≠ .started call := by
  induction actions generalizing session with
  | nil => exact ⟨.refl _, rfl, nofun⟩
  | cons action rest ih =>
    obtain ⟨⟨notTripped, notReset, before⟩, later⟩ := early
    have same := sameCircuit_step opened notTripped notReset before
    have quiet : (session.step action).session.begun = session.begun ∧
        ∀ call, (session.step action).answer ≠ .started call := by
      by_cases start : action = .start
      · subst start
        rw [step_start_early opened (before rfl)]
        exact ⟨rfl, nofun⟩
      · exact begun_step start
    rw [← clock_step, ← same.halfOpenAt] at later
    obtain ⟨kept, begun, answers⟩ := ih (same.circuit.trans opened) later
    refine ⟨same.trans kept, begun.trans quiet.1, fun answer member => ?_⟩
    rcases List.mem_cons.mp member with rfl | member
    · exact quiet.2
    · exact answers answer member

private theorem nanos_ofMillis_sub {later earlier : Timestamp} (less : earlier < later) :
    (Duration.ofMillis (later - earlier)).nanos = 1000000 * (later.toNat - earlier.toNat) ∧
      0 < Duration.ofMillis (later - earlier) := by
  have exactly : (later - earlier).toNat = later.toNat - earlier.toNat :=
    UInt64.toNat_sub_of_le _ _ (UInt64.le_of_lt less)
  rw [UInt64.lt_iff_toNat_lt] at less
  refine ⟨congrArg (1000000 * ·) exactly, ?_⟩
  show 0 < 1000000 * (later - earlier).toNat
  omega

/-- An open circuit holds the time of its latest opening or trip and the deadline drawn for it. Before
the deadline a call is refused with the time that is left and nothing changes; from then on the first
one makes the circuit half-open and is a probe of it if a slot is free. The ends of calls in flight do
not move the circuit, so nothing starts before the deadline unless the circuit is tripped or reset. -/
theorem run_holds_back_while_open (name : String) (settings : BreakerSettings) (draws : Random.Stream)
    (clock : Timestamp) (actions : List Action) :
    let start := create name settings draws clock
    let session := (start.run actions).1
    let breaker := session.breaker
    breaker.circuit = .opened →
      (∃ time earlier, start.follow noteOpening [] actions = time :: earlier ∧ breaker.openedAt = time ∧
        breaker.halfOpenAt.toNat =
          min (time.toNat + (settings.recoveryAt draws earlier.length).toMillis.toNat) (UInt64.size - 1)) ∧
      (session.clock < breaker.halfOpenAt →
        let wait := Duration.ofMillis (breaker.halfOpenAt - session.clock)
        session.step .start = ⟨session, .refused (.opened breaker.tally.failures wait), none⟩ ∧
          wait.nanos = 1000000 * (breaker.halfOpenAt.toNat - session.clock.toNat) ∧ 0 < wait) ∧
      (¬ session.clock < breaker.halfOpenAt →
        let moved : Breaker := { breaker with word := .pack ⟨.halfOpen, 0, 0⟩ }
        moved.tally = ⟨.halfOpen, 0, 0⟩ ∧
          session.step .start =
            if session.probesInFlight < settings.maxProbes then
              ⟨session.join .probe { moved with probes := session.probesInFlight + 1 },
                .started session.begun, some ⟨.opened, .halfOpen⟩⟩
            else
              ⟨{ session with breaker := moved },
                .refused (.probeLimit session.probesInFlight settings.maxProbes),
                some ⟨.opened, .halfOpen⟩⟩) ∧
      (∀ call success, SameCircuit breaker (session.step (.finish call success)).session.breaker) ∧
      ∀ rest : List Action, Early breaker.halfOpenAt session.clock rest →
        SameCircuit breaker (session.run rest).1.breaker ∧ (session.run rest).1.begun = session.begun ∧
          ∀ answer ∈ (session.run rest).2.1, ∀ call, answer ≠ .started call := by
  intro start session breaker opened
  have armed : Armed settings draws breaker (start.follow noteOpening [] actions) :=
    follow_invariant (fun session openings => Armed settings draws session.breaker openings)
      (fun _ action _ _ armed => armed_step armed action) (armed_create name settings draws clock) actions
      (throughout_of_forall (fun _ _ => trivial) _ _)
  have accounted : Accounted settings session :=
    accounted_run (accounted_create name settings draws clock) actions
  refine ⟨?_, fun early => ⟨step_start_early opened early, nanos_ofMillis_sub early⟩, ?_,
    fun call success => sameCircuit_step opened nofun nofun nofun, fun rest => run_early opened rest⟩
  · obtain ⟨time, earlier, openings, openedAt, halfOpenAt⟩ := armed.deadline opened
    refine ⟨time, earlier, openings, openedAt, ?_⟩
    rw [halfOpenAt, Timestamp.after, Timestamp.toNat_plus]
  · intro late moved
    refine ⟨BreakerWord.unpack_pack (Nat.zero_le _) (Nat.zero_le _), ?_⟩
    rw [step_start_late opened late, ← accounted.probes, accounted.settings]

/-- A trip whose recovery is the shortest that the jitter draws. -/
theorem run_holds_back_after_trip :
    let settings : BreakerSettings :=
      { threshold := 1 / 2, minimumCalls := 1, window := .ofSeconds 10, recovery := .ofSeconds 30,
        jitter := .proportional (3 / 10), maxProbes := 1 }
    let session := ((create "store" settings (.ofList [0]) 5).run [.start, .trip, .setClock 6]).1
    let rest : List Action := [.finish 0 false, .start, .setClock 21004, .start]
    session.breaker.circuit = .opened ∧ session.breaker.openedAt = 5 ∧ session.breaker.halfOpenAt = 21005 ∧
      session.step .start = ⟨session, .refused (.opened 0 (.ofMillis 20999)), none⟩ ∧
      Early session.breaker.halfOpenAt session.clock rest ∧
      ∀ answer ∈ (session.run rest).2.1, ∀ call, answer ≠ .started call := by
  intro settings session rest
  have opened : session.breaker.circuit = .opened := by decide +kernel
  have deadline : session.breaker.halfOpenAt = 21005 := by decide +kernel
  have reading : session.clock = 6 := by decide +kernel
  have unfailed : session.breaker.tally.failures = 0 := by decide +kernel
  obtain ⟨-, refuses, -, -, holds⟩ := run_holds_back_while_open "store" settings (.ofList [0]) 5
    [.start, .trip, .setClock 6] opened
  have early : Early session.breaker.halfOpenAt session.clock rest := by
    rw [deadline, reading]
    refine ⟨⟨nofun, nofun, nofun⟩, ⟨nofun, nofun, fun _ => by decide⟩, ⟨nofun, nofun, nofun⟩,
      ⟨nofun, nofun, fun _ => by decide⟩, trivial⟩
  refine ⟨opened, by decide +kernel, deadline, ?_, early, (holds rest early).2.2⟩
  have refused := (refuses (by decide +kernel)).1
  rwa [unfailed, deadline, reading] at refused

end
end Session
end Admission
