import Admission.Proofs.Breaker.Effect
import Admission.Proofs.Breaker.Probes

/-! Deadlines that a circuit has left behind. Main statement: a closed breaker without counts and without
calls in flight answers every further run as a new breaker does, whatever times of earlier openings it
still holds. -/
namespace Admission

/-- Two streams that have the same words left. -/
def Random.Stream.SameRest (first second : Stream) : Prop :=
  ∀ i, second.word (second.drawn + i) = first.word (first.drawn + i)

theorem Jitter.sample_sameRest {first second : Random.Stream} (same : first.SameRest second)
    (jitter : Jitter) (base : Duration) :
    (jitter.sample base second).1 = (jitter.sample base first).1 ∧
      (jitter.sample base first).2.SameRest (jitter.sample base second).2 := by
  cases jitter with
  | none => exact ⟨rfl, same⟩
  | proportional factor =>
    constructor
    · have next : second.word second.drawn = first.word first.drawn := same 0
      simp only [sample, Random.Stream.next, next]
    · intro i
      have later := same (1 + i)
      rw [← Nat.add_assoc, ← Nat.add_assoc] at later
      exact later

namespace Breaker

/-- Two breakers that show the same and will draw the same. Unless the circuit is open they need not
agree on its deadline. -/
structure Alike (first second : Breaker) : Prop where
  settings : second.settings = first.settings
  tally : second.tally = first.tally
  windowStart : second.windowStart = first.windowStart
  probes : second.probes = first.probes
  draws : first.draws.SameRest second.draws
  openedAt : first.circuit = .opened → second.openedAt = first.openedAt
  halfOpenAt : first.circuit = .opened → second.halfOpenAt = first.halfOpenAt

section

variable {first second : Breaker}

theorem Alike.circuit (alike : Alike first second) : second.circuit = first.circuit :=
  congrArg Tally.circuit alike.tally

theorem Alike.of_not_opened (settings : second.settings = first.settings)
    (tally : second.tally = first.tally) (windowStart : second.windowStart = first.windowStart)
    (probes : second.probes = first.probes) (draws : first.draws.SameRest second.draws)
    (other : first.circuit ≠ .opened) : Alike first second :=
  ⟨settings, tally, windowStart, probes, draws, fun opened => absurd opened other,
    fun opened => absurd opened other⟩

theorem Alike.snapshot (alike : Alike first second) : second.snapshot = first.snapshot := by
  unfold Breaker.snapshot rate
  rw [alike.circuit, alike.tally, alike.probes]
  by_cases opened : first.circuit = .opened
  · rw [alike.openedAt opened, alike.halfOpenAt opened]
  · simp only [opened, if_false]

/-- An opening writes both times, so nothing of earlier ones is left. -/
theorem Alike.openWith (alike : Alike first second) (failures successes : Nat) (now : Timestamp) :
    Alike (first.openWith failures successes now) (second.openWith failures successes now) := by
  obtain ⟨recovery, rest⟩ :=
    Jitter.sample_sameRest alike.draws first.settings.jitter first.settings.recovery
  refine ⟨alike.settings, rfl, alike.windowStart, alike.probes, ?_, fun _ => rfl, fun _ => ?_⟩
  · simp only [Breaker.openWith, drawRecovery, alike.settings]
    exact rest
  · simp only [Breaker.openWith, drawRecovery, alike.settings, recovery]

theorem Alike.pack (alike : Alike first second) (tally : Tally) (other : tally.circuit ≠ .opened) :
    Alike { first with word := .pack tally } { second with word := .pack tally } := by
  refine .of_not_opened alike.settings rfl alike.windowStart alike.probes alike.draws ?_
  rw [circuit_pack]
  exact other

theorem Alike.closeAt (alike : Alike first second) (now : Timestamp) :
    Alike (first.closeAt now) (second.closeAt now) := by
  refine .of_not_opened alike.settings ?_ rfl alike.probes alike.draws ?_
  · rw [tally_closeAt, tally_closeAt]
  · rw [circuit_closeAt]
    exact nofun

theorem Alike.roll (alike : Alike first second) (now : Timestamp) :
    Alike (first.roll now) (second.roll now) := by
  unfold Breaker.roll
  rw [alike.settings, alike.windowStart]
  split
  · exact alike
  · exact alike.closeAt now

theorem Alike.count (alike : Alike first second) (success : Bool) (now : Timestamp) :
    Alike (first.count success now).1 (second.count success now).1 ∧
      (second.count success now).2 = (first.count success now).2 := by
  have rolled := alike.roll now
  have calls : (second.roll now).settings.minimumCalls = (first.roll now).settings.minimumCalls :=
    congrArg BreakerSettings.minimumCalls rolled.settings
  have share : (second.roll now).settings.threshold = (first.roll now).settings.threshold :=
    congrArg BreakerSettings.threshold rolled.settings
  unfold Breaker.count
  simp only [rolled.tally, calls, share]
  cases success with
  | true => exact ⟨rolled.pack ⟨.closed, _, _⟩ nofun, rfl⟩
  | false =>
    have counted := rolled.pack ⟨.closed, countUp (first.roll now).tally.failures,
      (first.roll now).tally.successes⟩ nofun
    simp only [Bool.false_eq_true, if_false]
    split
    · exact ⟨counted.openWith _ _ now, rfl⟩
    · exact ⟨counted, rfl⟩

theorem Alike.record (alike : Alike first second) (permit : Permit) (success : Bool) (now : Timestamp) :
    Alike (first.record permit success now).1 (second.record permit success now).1 ∧
      (second.record permit success now).2 = (first.record permit success now).2 := by
  unfold Breaker.record
  rw [alike.circuit]
  split
  · exact alike.count success now
  · cases success with
    | true => exact ⟨alike.closeAt now, rfl⟩
    | false => exact ⟨alike.openWith 1 0 now, rfl⟩
  · exact ⟨alike, rfl⟩
  · exact ⟨alike, rfl⟩

theorem Alike.trip (alike : Alike first second) (now : Timestamp) :
    Alike (first.trip now).1 (second.trip now).1 ∧ (second.trip now).2 = (first.trip now).2 := by
  unfold Breaker.trip
  rw [alike.circuit, alike.tally]
  exact ⟨alike.openWith _ _ now, rfl⟩

theorem Alike.reset (alike : Alike first second) (now : Timestamp) :
    Alike (first.reset now).1 (second.reset now).1 ∧ (second.reset now).2 = (first.reset now).2 := by
  unfold Breaker.reset
  rw [alike.circuit]
  exact ⟨⟨alike.settings, rfl, rfl, alike.probes, alike.draws, fun _ => rfl, fun _ => rfl⟩, rfl⟩

theorem Alike.release (alike : Alike first second) (permit : Permit) :
    Alike (first.release permit) (second.release permit) := by
  cases permit with
  | plain => exact alike
  | probe =>
    exact ⟨alike.settings, alike.tally, alike.windowStart, congrArg (· - 1) alike.probes, alike.draws,
      alike.openedAt, alike.halfOpenAt⟩

/-- Both take a slot, or both find none free. -/
theorem Alike.takeSlot (alike : Alike first second) :
    (∃ one other, first.takeSlot = .ok one ∧ second.takeSlot = .ok other ∧ Alike one other) ∨
      ∃ refusal, first.takeSlot = .error refusal ∧ second.takeSlot = .error refusal := by
  have limit : second.settings.maxProbes = first.settings.maxProbes :=
    congrArg BreakerSettings.maxProbes alike.settings
  unfold Breaker.takeSlot
  rw [limit, alike.probes]
  split
  · left
    refine ⟨_, _, rfl, rfl, ?_⟩
    exact ⟨alike.settings, alike.tally, alike.windowStart, rfl, alike.draws, alike.openedAt,
      alike.halfOpenAt⟩
  · right
    exact ⟨_, rfl, rfl⟩

theorem Alike.enter (alike : Alike first second) (now : Timestamp) :
    Alike (first.enter now).breaker (second.enter now).breaker ∧
      (second.enter now).result = (first.enter now).result ∧
      (second.enter now).reported = (first.enter now).reported := by
  have same := alike.circuit
  cases state : first.circuit with
  | closed =>
    rw [enter_closed state, enter_closed (same.trans state)]
    exact ⟨alike, rfl, rfl⟩
  | opened =>
    have deadline := alike.halfOpenAt state
    by_cases early : now < first.halfOpenAt
    · rw [enter_early state early, enter_early (same.trans state) (deadline ▸ early), deadline, alike.tally]
      exact ⟨alike, rfl, rfl⟩
    · have moved := alike.pack ⟨.halfOpen, 0, 0⟩ nofun
      rw [enter_late state early, enter_late (same.trans state) (deadline ▸ early)]
      rcases moved.takeSlot with ⟨one, other, taken, too, next⟩ | ⟨refusal, refused, too⟩
      · simp only [taken, too]
        exact ⟨next, trivial, trivial⟩
      · simp only [refused, too]
        exact ⟨moved, trivial, trivial⟩
  | halfOpen =>
    rw [enter_halfOpen state, enter_halfOpen (same.trans state)]
    rcases alike.takeSlot with ⟨one, other, taken, too, next⟩ | ⟨refusal, refused, too⟩
    · simp only [taken, too]
      exact ⟨next, trivial, trivial⟩
    · simp only [refused, too]
      exact ⟨alike, trivial, trivial⟩

end
end Breaker

namespace Session

open Breaker

section

variable {session : Session} {other : Breaker}

/-- Every action leaves the breakers of two sessions alike, with the same answer and the same report. -/
theorem step_alike (alike : Alike session.breaker other) (action : Action) :
    ∃ next, Alike (session.step action).session.breaker next ∧
      ({ session with breaker := other } : Session).step action =
        ⟨{ (session.step action).session with breaker := next }, (session.step action).answer,
          (session.step action).reported⟩ := by
  cases action with
  | start =>
    obtain ⟨breakers, result, reported⟩ := alike.enter session.clock
    unfold step
    simp only [result, reported]
    split
    · exact ⟨_, breakers, rfl⟩
    · exact ⟨_, breakers, rfl⟩
  | finish call success =>
    have same : ({ session with breaker := other } : Session).permit? call = session.permit? call := rfl
    unfold step settle
    simp only [same]
    cases session.permit? call with
    | none => exact ⟨other, alike, rfl⟩
    | some permit =>
      obtain ⟨breakers, reported⟩ := alike.record permit success session.clock
      simp only [reported]
      exact ⟨_, breakers.release permit, rfl⟩
  | cancel call =>
    have same : ({ session with breaker := other } : Session).permit? call = session.permit? call := rfl
    unfold step
    simp only [same]
    cases session.permit? call with
    | none => exact ⟨other, alike, rfl⟩
    | some permit => exact ⟨_, alike.release permit, rfl⟩
  | trip =>
    obtain ⟨breakers, reported⟩ := alike.trip session.clock
    refine ⟨_, breakers, ?_⟩
    unfold step
    simp only [reported]
  | reset =>
    obtain ⟨breakers, reported⟩ := alike.reset session.clock
    refine ⟨_, breakers, ?_⟩
    unfold step
    simp only [reported]
  | setClock now => exact ⟨other, alike, rfl⟩
  | look =>
    refine ⟨other, alike, ?_⟩
    unfold step
    simp only [alike.snapshot]

/-- Breakers that are alike answer every run alike. -/
theorem run_alike (alike : Alike session.breaker other) (actions : List Action) :
    (({ session with breaker := other } : Session).run actions).2 = (session.run actions).2 := by
  induction actions generalizing session other with
  | nil => rfl
  | cons action rest ih =>
    obtain ⟨next, still, stepped⟩ := step_alike alike action
    have later := ih still
    simp only [run, stepped, later]

theorem Accounted.alike_create {settings : BreakerSettings} (accounted : Accounted settings session)
    (empty : session.breaker.tally = ⟨.closed, 0, 0⟩) (idle : session.inFlight = []) (name : String)
    {stream : Random.Stream} (same : session.breaker.draws.SameRest stream) :
    Alike session.breaker (.create name settings stream session.breaker.windowStart) := by
  have free : session.breaker.probes = 0 := by
    rw [accounted.probes, probesInFlight, idle]
    rfl
  refine .of_not_opened accounted.settings.symm ?_ rfl free.symm same ?_
  · rw [empty, tally_create]
  · rw [circuit, empty]
    decide

/-- After any actions, a breaker that is closed without counts and without calls in flight answers every
further run as a new breaker of the same settings with the same window start: the same results,
snapshots and transitions. The new one draws the same words, and calls are numbered on. -/
theorem run_forgets_deadlines (name : String) (settings : BreakerSettings) (draws : Random.Stream)
    (clock : Timestamp) (actions : List Action) :
    let session := ((create name settings draws clock).run actions).1
    session.breaker.tally = ⟨.closed, 0, 0⟩ → session.inFlight = [] →
      ∀ stream : Random.Stream, session.breaker.draws.SameRest stream →
        let fresh : Session :=
          { breaker := .create name settings stream session.breaker.windowStart
            clock := session.clock, begun := session.begun }
        ∀ rest : List Action, (session.run rest).2 = (fresh.run rest).2 := by
  intro session empty idle stream same fresh rest
  have accounted : Accounted settings session :=
    accounted_run (accounted_create name settings draws clock) actions
  have alike := run_alike (accounted.alike_create empty idle name same) rest
  rw [idle] at alike
  exact alike.symm

/-- A circuit that was tripped and closed by a probe holds the times of the trip, and no run shows them. -/
theorem run_forgets_deadline_of_trip :
    let settings : BreakerSettings :=
      { threshold := 1 / 2, minimumCalls := 1, window := .ofSeconds 10, recovery := .ofSeconds 30,
        jitter := .proportional (3 / 10), maxProbes := 1 }
    let session := ((create "store" settings (.ofList [0]) 5).run
      [.trip, .setClock 21005, .start, .finish 0 true]).1
    let fresh : Session :=
      { breaker := .create "store" settings session.breaker.draws session.breaker.windowStart
        clock := session.clock, begun := session.begun }
    session.breaker.tally = ⟨.closed, 0, 0⟩ ∧ session.inFlight = [] ∧
      session.breaker.openedAt = 5 ∧ session.breaker.halfOpenAt = 21005 ∧
      fresh.breaker.halfOpenAt = Timestamp.last ∧
      ∀ rest : List Action, (session.run rest).2 = (fresh.run rest).2 := by
  intro settings session fresh
  have empty : session.breaker.tally = ⟨.closed, 0, 0⟩ := by decide +kernel
  have idle : session.inFlight = [] := by decide +kernel
  refine ⟨empty, idle, by decide +kernel, by decide +kernel, rfl, ?_⟩
  exact run_forgets_deadlines "store" settings (.ofList [0]) 5 _ empty idle _ (fun _ => rfl)

end
end Session
end Admission
