import Admission.Proofs.Breaker.Threshold

namespace Admission

/-- The most failures that a window counts while the clock stands still. A window of less than a whole
millisecond is over whenever an outcome is counted. -/
def BreakerSettings.room (settings : BreakerSettings) : Nat :=
  if settings.window.toMillis = 0 then 1 else maxCount

namespace BreakerSettings

open Binary64

variable {settings : BreakerSettings} {draft : Draft} {failures : Nat}

private theorem room_le (settings : BreakerSettings) : settings.room ≤ maxCount := by
  unfold room
  split
  · decide
  · exact Nat.le_refl _

private theorem room_pos (settings : BreakerSettings) : 0 < settings.room := by
  unfold room
  split <;> decide

/-- Failures alone reach every threshold, so only their number counts. -/
theorem opensAt_failures_iff (built : draft.build = .ok settings) (failed : failures ≠ 0)
    (fits : failures ≤ maxCount) : settings.OpensAt failures 0 ↔ settings.minimumCalls ≤ failures := by
  obtain ⟨finite, -, atMost, -⟩ := build_spec built
  constructor
  · rintro ⟨enough, -⟩
    exact enough
  · intro enough
    refine ⟨enough, threshold_le_failureRate finite fits (Nat.zero_le _) failed ?_⟩
    rw [Nat.add_zero, div_self (Nat.cast_ne_zero.mpr failed)]
    exact atMost

end BreakerSettings

namespace Session

open Breaker

/-- A closed circuit without calls in flight after so many failures at the reading at which its window
was started. -/
structure Failing (settings : BreakerSettings) (failures : Nat) (session : Session) : Prop where
  tally : session.breaker.tally = ⟨.closed, min failures settings.room, 0⟩
  windowStart : session.breaker.windowStart = session.clock
  idle : session.inFlight = []
  settings : session.breaker.settings = settings

section

variable {settings : BreakerSettings} {draft : BreakerSettings.Draft} {session : Session} {failures : Nat}

theorem failing_create (name : String) (settings : BreakerSettings) (draws : Random.Stream)
    (clock : Timestamp) : Failing settings 0 (create name settings draws clock) := by
  refine ⟨?_, rfl, rfl, rfl⟩
  rw [Nat.zero_min]
  exact tally_create ..

theorem Failing.closed (failing : Failing settings failures session) :
    session.breaker.circuit = .closed := by
  rw [circuit, failing.tally]

theorem Failing.counted (failing : Failing settings failures session) :
    session.breaker.counted false session.clock = ⟨.closed, min (failures + 1) settings.room, 0⟩ := by
  have still : session.clock.since session.breaker.windowStart = 0 := by
    rw [failing.windowStart]
    exact Nat.sub_self _
  have tally := failing.tally
  unfold BreakerSettings.room at tally ⊢
  by_cases brief : settings.window.toMillis = 0
  · have ended : session.breaker.WindowOver session.clock := by
      rw [WindowOver, failing.settings, brief]
      exact Nat.zero_le _
    rw [Breaker.counted, roll_of_over ended, tally_closeAt, if_pos brief, Nat.min_eq_right (by omega)]
    rfl
  · have going : ¬ session.breaker.WindowOver session.clock := by
      rw [WindowOver, failing.settings, still, Nat.le_zero]
      exact fun zero => brief (UInt64.toNat_inj.mp zero)
    rw [if_neg brief] at tally ⊢
    rw [Breaker.counted, roll_of_not_over going, tally]
    simp only [Tally.add, Bool.false_eq_true, if_false, countUp, Tally.mk.injEq, and_true, true_and]
    omega

/-- The failure is counted, and the circuit opens if there is room for the minimum of calls and they
have been made. -/
theorem Failing.count (failing : Failing settings failures session) (built : draft.build = .ok settings) :
    (session.breaker.count false session.clock).1 =
      if settings.minimumCalls ≤ min (failures + 1) settings.room then
        (session.breaker.roll session.clock).openWith (min (failures + 1) settings.room) 0 session.clock
      else { session.breaker.roll session.clock with
        word := .pack ⟨.closed, min (failures + 1) settings.room, 0⟩ } := by
  have room := settings.room_pos
  have fits := settings.room_le
  rw [count_eq failing.closed, failing.counted, failing.settings]
  simp only [true_and, BreakerSettings.opensAt_failures_iff built
    (show min (failures + 1) settings.room ≠ 0 by omega) (Nat.le_trans (Nat.min_le_right ..) fits)]

theorem Failing.opens_iff (failing : Failing settings failures session)
    (built : draft.build = .ok settings) : (session.breaker.count false session.clock).1.circuit = .opened ↔
      settings.minimumCalls ≤ min (failures + 1) settings.room := by
  rw [failing.count built]
  split
  · rename_i opens
    exact iff_of_true (circuit_openWith ..) opens
  · rename_i stays
    refine iff_of_false ?_ stays
    rw [circuit_pack]
    exact nofun

theorem Failing.next (failing : Failing settings failures session) (built : draft.build = .ok settings)
    (few : failures + 1 < settings.minimumCalls) :
    Failing settings (failures + 1)
      { session with
        breaker := (session.breaker.count false session.clock).1, begun := session.begun + 1 } := by
  have stays : ¬ settings.minimumCalls ≤ min (failures + 1) settings.room := by omega
  rw [failing.count built, if_neg stays]
  refine ⟨?_, ?_, failing.idle, (settings_roll ..).trans failing.settings⟩
  · rw [← failing.counted]
    exact tally_counted ..
  · show (session.breaker.roll session.clock).windowStart = session.clock
    by_cases ended : session.breaker.WindowOver session.clock
    · rw [roll_of_over ended]
      rfl
    · rw [roll_of_not_over ended]
      exact failing.windowStart

/-- The failures that are missing to the minimum of calls are let in and end, and they open the circuit
if the window has room for all. -/
theorem Failing.calls (failing : Failing settings failures session) (built : draft.build = .ok settings)
    (missing : Nat) (last : failures + missing + 1 = settings.minimumCalls) :
    let run := session.run (calls false session.begun (missing + 1))
    (∀ answer ∈ run.2.1, (∃ call, answer = .started call) ∨ answer = .done) ∧
      (run.1.breaker.circuit = .opened ↔ settings.minimumCalls ≤ settings.room) := by
  induction missing generalizing session failures with
  | zero =>
    intro run
    have called : run = _ := run_call failing.closed failing.idle false []
    rw [called]
    refine ⟨fun answer member => ?_, ?_⟩
    · simp only [Session.run, List.mem_cons, List.not_mem_nil, or_false] at member
      exact member.imp_left fun started => ⟨_, started⟩
    · apply (failing.opens_iff built).trans
      omega
  | succ missing ih =>
    intro run
    have called : run = _ :=
      run_call failing.closed failing.idle false (Session.calls false (session.begun + 1) (missing + 1))
    obtain ⟨answers, opens⟩ := ih (failing.next built (by omega)) (by omega)
    rw [called]
    refine ⟨fun answer member => ?_, opens⟩
    rcases List.mem_cons.mp member with rfl | member
    · exact .inl ⟨_, rfl⟩
    · rcases List.mem_cons.mp member with rfl | member
      · exact .inr rfl
      · exact answers answer member

/-- As many failures as the minimum of calls, one after another at one reading, are all let in by a new
breaker. They open it exactly if the minimum is one call, or the window lasts a whole millisecond and can
count so many. -/
theorem failures_open_iff {draft : BreakerSettings.Draft} {settings : BreakerSettings}
    (built : draft.build = .ok settings) (name : String) (draws : Random.Stream) (clock : Timestamp) :
    let run := (create name settings draws clock).run (calls false 0 settings.minimumCalls)
    (∀ answer ∈ run.2.1, (∃ call, answer = .started call) ∨ answer = .done) ∧
      (run.1.breaker.circuit = .opened ↔
        settings.minimumCalls = 1 ∨ settings.window.toMillis ≠ 0 ∧ settings.minimumCalls ≤ maxCount) := by
  obtain ⟨-, -, -, needed⟩ := BreakerSettings.build_spec built
  obtain ⟨missing, minimum⟩ := Nat.exists_eq_succ_of_ne_zero (Nat.ne_of_gt needed)
  intro run
  obtain ⟨answers, opens⟩ := (failing_create name settings draws clock).calls built missing (by omega)
  rw [← Nat.succ_eq_add_one, ← minimum] at answers opens
  refine ⟨answers, opens.trans ?_⟩
  unfold BreakerSettings.room
  by_cases brief : settings.window.toMillis = 0
  · simp only [brief, if_true, ne_eq, not_true_eq_false, false_and, or_false]
    exact ⟨fun atMost => Nat.le_antisymm atMost needed, Nat.le_of_eq⟩
  · simp only [brief, if_false, ne_eq, not_false_eq_true, true_and]
    constructor
    · exact .inr
    · rintro (one | counted)
      · rw [one]
        decide
      · exact counted

/-- Two failures open a breaker whose window lasts one millisecond. -/
theorem failures_open_within_millisecond :
    let settings : BreakerSettings :=
      { threshold := 1, minimumCalls := 2, window := .ofMillis 1, recovery := .ofSeconds 30,
        jitter := .none, maxProbes := 1 }
    let draft : BreakerSettings.Draft :=
      { threshold := 1, minimumCalls := 2, window := .ofMillis 1, jitterFactor := 0 }
    draft.build = .ok settings ∧
      ((create "store" settings (.ofList []) 7).run (calls false 0 2)).1.breaker.circuit = .opened := by
  intro settings draft
  have built : draft.build = .ok settings := by decide +kernel
  have long : settings.window.toMillis ≠ 0 := by decide +kernel
  exact ⟨built, (failures_open_iff built "store" (.ofList []) 7).2.mpr (.inr ⟨long, by decide⟩)⟩

/-- Two failures do not open a breaker whose window is a nanosecond shorter. -/
theorem failures_below_millisecond_stay_closed :
    let settings : BreakerSettings :=
      { threshold := 1 / 2, minimumCalls := 2, window := .ofNanosClamp 999999, recovery := .ofSeconds 30,
        jitter := .none, maxProbes := 1 }
    let draft : BreakerSettings.Draft :=
      { minimumCalls := 2, window := .ofNanosClamp 999999, jitterFactor := 0 }
    draft.build = .ok settings ∧
      ((create "store" settings (.ofList []) 0).run (calls false 0 2)).1.breaker.tally =
        ⟨.closed, 1, 0⟩ := by
  decide +kernel

end
end Session
end Admission
