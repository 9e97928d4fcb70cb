import Admission.Proofs.Binary64.Error
import Admission.Proofs.Breaker.Effect
import Admission.Proofs.Breaker.Run

namespace Admission

/-- The window has counted too few calls to be judged, or too small a share of them failed. -/
def BreakerSettings.Below (settings : BreakerSettings) (tally : Tally) : Prop :=
  tally.failures + tally.successes < settings.minimumCalls ∨
    (tally.failures : ℚ) / (tally.failures + tally.successes : Nat) < settings.threshold.toRat

/-- The most failures that a window can count before it is judged. -/
def BreakerSettings.unjudged (settings : BreakerSettings) : Nat :=
  min (settings.minimumCalls - 1) maxCount

/-- No success can complete the minimum of calls while the share of failures reaches the threshold: the
window ends at once, it cannot count so many calls, or the failures before are too few. -/
def BreakerSettings.StaysBelow (settings : BreakerSettings) : Prop :=
  settings.window.toMillis = 0 ∨ 2 * maxCount < settings.minimumCalls ∨
    (settings.unjudged : ℚ) / settings.minimumCalls < settings.threshold.toRat

namespace BreakerSettings

open Binary64

variable {settings : BreakerSettings} {draft : Draft} {failures successes : Nat}

/-- A threshold is a positive share and at least one call is counted. -/
theorem build_spec (built : draft.build = .ok settings) : settings.threshold.isFinite ∧
    0 < settings.threshold.toRat ∧ settings.threshold.toRat ≤ 1 ∧ 0 < settings.minimumCalls := by
  unfold Draft.build at built
  split_ifs at built with share calls window recovery probes
  · cases jitter : Jitter.ofFactor draft.jitterFactor <;> simp [jitter] at built
  · cases jitter : Jitter.ofFactor draft.jitterFactor with
    | error fault => simp [jitter] at built
    | ok factor =>
      simp only [jitter, Except.ok.injEq] at built
      subst built
      obtain ⟨positive, atMost⟩ := share
      obtain ⟨oneFinite, one⟩ := ofNat_exact (n := 1) (by decide)
      have finite : draft.threshold.isFinite :=
        isFinite_of_between isFinite_zero oneFinite (Binary64.le_of_lt positive) atMost
      refine ⟨finite, ?_, ?_, Nat.pos_of_ne_zero calls⟩
      · simpa using (lt_iff_toRat isFinite_zero finite).mp positive
      · simpa [one] using (le_iff_toRat finite oneFinite).mp atMost

/-- The share of failures is rounded once, so a share that reaches the threshold still does. -/
theorem threshold_le_failureRate (finite : settings.threshold.isFinite) (failuresFit : failures ≤ maxCount)
    (successesFit : successes ≤ maxCount) (recorded : failures + successes ≠ 0)
    (reached : settings.threshold.toRat ≤ (failures : ℚ) / (failures + successes : Nat)) :
    settings.threshold ≤ failureRate failures successes := by
  simp only [maxCount] at failuresFit successesFit
  obtain ⟨failuresFinite, failuresExact⟩ := ofNat_exact (n := failures) (by simp only [binade]; omega)
  obtain ⟨callsFinite, callsExact⟩ := ofNat_exact (n := failures + successes) (by simp only [binade]; omega)
  have rounds := rounds_div failuresFinite callsFinite (by
    rw [callsExact]
    exact Nat.cast_ne_zero.mpr recorded)
  rw [failuresExact, callsExact] at rounds
  rw [failureRate, if_neg recorded]
  exact (rounds_toRat finite).le rounds reached

private theorem below_of_not_opensAt (finite : settings.threshold.isFinite)
    (positive : 0 < settings.threshold.toRat)
    (failuresFit : failures ≤ maxCount) (successesFit : successes ≤ maxCount)
    (stays : ¬ settings.OpensAt failures successes) (circuit : Circuit) :
    settings.Below ⟨circuit, failures, successes⟩ := by
  by_cases few : failures + successes < settings.minimumCalls
  · exact .inl few
  · right
    by_contra reached
    have reached := not_lt.mp reached
    have recorded : failures + successes ≠ 0 := by
      intro unrecorded
      simp only [unrecorded, Nat.cast_zero, div_zero] at reached
      exact absurd positive (not_lt.mpr reached)
    exact stays ⟨Nat.not_lt.mp few, threshold_le_failureRate finite failuresFit successesFit recorded reached⟩

private theorem share_le (failures : Nat) {fewer more : Nat} (le : fewer ≤ more) :
    (failures : ℚ) / (failures + more : Nat) ≤ (failures : ℚ) / (failures + fewer : Nat) := by
  by_cases unfailed : failures = 0
  · simp [unfailed]
  · have positive : (0 : ℚ) < (failures + fewer : Nat) := Nat.cast_pos.mpr (by omega)
    have calls : ((failures + fewer : Nat) : ℚ) ≤ (failures + more : Nat) := Nat.cast_le.mpr (by omega)
    exact div_le_div_of_nonneg_left (Nat.cast_nonneg _) positive calls

end BreakerSettings

namespace Session

open Breaker

/-- The last failure of a closed circuit did not open it, and a window that ends at once counts one
outcome. -/
structure Judged (settings : BreakerSettings) (session : Session) : Prop where
  last : session.breaker.circuit = .closed → session.breaker.tally.failures = 0 ∨
    ∃ successes ≤ session.breaker.tally.successes,
      ¬ settings.OpensAt session.breaker.tally.failures successes
  single : settings.window.toMillis = 0 → session.breaker.circuit = .closed →
    session.breaker.tally.failures + session.breaker.tally.successes ≤ 1
  settings : session.breaker.settings = settings

section

variable {settings : BreakerSettings} {session : Session}

theorem judged_create (name : String) (settings : BreakerSettings) (draws : Random.Stream)
    (clock : Timestamp) : Judged settings (create name settings draws clock) := by
  have fresh : (create name settings draws clock).breaker.tally = ⟨.closed, 0, 0⟩ := tally_create ..
  exact ⟨fun _ => .inl (by rw [fresh]), fun _ _ => by rw [fresh]; exact Nat.zero_le 1, rfl⟩

private theorem last_counted (judged : Judged settings session) (closed : session.breaker.circuit = .closed) :
    (session.breaker.counted true session.clock).failures = 0 ∨
      ∃ successes ≤ (session.breaker.counted true session.clock).successes,
        ¬ settings.OpensAt (session.breaker.counted true session.clock).failures successes := by
  rcases session.breaker.counted_cases true session.clock with fresh | ⟨more, -⟩
  · left
    rw [fresh]
    rfl
  · rw [more]
    rcases judged.last closed with unfailed | ⟨successes, le, stays⟩
    · exact .inl unfailed
    · refine .inr ⟨successes, Nat.le_trans le ?_, stays⟩
      have fits := session.breaker.tally_fits.2
      show _ ≤ min _ _
      omega

/-- A window that ends at once is over whenever an outcome is counted. -/
private theorem single_counted (judged : Judged settings session) (brief : settings.window.toMillis = 0)
    (success : Bool) : (session.breaker.counted success session.clock).failures +
      (session.breaker.counted success session.clock).successes ≤ 1 := by
  have ended : session.breaker.WindowOver session.clock := by
    rw [WindowOver, judged.settings, brief]
    exact Nat.zero_le _
  rcases session.breaker.counted_cases success session.clock with one | ⟨-, going⟩
  · rw [one]
    cases success <;> decide
  · exact absurd ended going

theorem judged_step (judged : Judged settings session) (action : Action) :
    Judged settings (session.step action).session := by
  have effect := effect_step session action
  refine ⟨fun closed => ?_, fun brief closed => ?_, effect.settings.trans judged.settings⟩
  · rcases effect.closed_cases closed with kept | ⟨before, success, counted, stays⟩ | fresh
    · have before : session.breaker.circuit = .closed := by rwa [circuit, ← kept]
      rw [kept]
      exact judged.last before
    · rw [counted]
      cases success with
      | true => exact last_counted judged before
      | false =>
        rw [judged.settings] at stays
        exact .inr ⟨_, Nat.le_refl _, stays rfl⟩
    · exact .inl (by rw [fresh])
  · rcases effect.closed_cases closed with kept | ⟨-, success, counted, -⟩ | fresh
    · rw [kept]
      exact judged.single brief (by rwa [circuit, ← kept])
    · rw [counted]
      exact single_counted judged brief success
    · rw [fresh]
      exact Nat.zero_le 1

theorem Judged.below {draft : BreakerSettings.Draft} (built : draft.build = .ok settings)
    (judged : Judged settings session) (closed : session.breaker.circuit = .closed)
    (stays : settings.StaysBelow) : settings.Below session.breaker.tally := by
  obtain ⟨finite, positive, -, calls⟩ := BreakerSettings.build_spec built
  obtain ⟨failuresFit, successesFit⟩ := session.breaker.tally_fits
  have single := judged.single
  have last := judged.last closed
  generalize session.breaker.tally = tally at *
  by_cases unfailed : tally.failures = 0
  · right
    rw [unfailed, Nat.cast_zero, zero_div]
    exact positive
  · obtain ⟨successes, le, unopened⟩ := last.resolve_left unfailed
    have below := BreakerSettings.below_of_not_opensAt finite positive failuresFit
      (Nat.le_trans le successesFit) unopened .closed
    by_cases few : tally.failures + tally.successes < settings.minimumCalls
    · exact .inl few
    · right
      refine below.elim (fun earlier => ?_) (lt_of_le_of_lt (BreakerSettings.share_le _ le))
      -- The last failure came before the minimum, so a success completed it.
      simp only [maxCount] at failuresFit successesFit earlier
      rcases stays with brief | many | share
      · have one := single brief closed
        omega
      · simp only [maxCount] at many
        omega
      · refine lt_of_le_of_lt ?_ share
        have most : tally.failures ≤ settings.unjudged := by
          simp only [BreakerSettings.unjudged, maxCount]
          omega
        exact div_le_div₀ (Nat.cast_nonneg _) (Nat.cast_le.mpr most) (Nat.cast_pos.mpr calls)
          (Nat.cast_le.mpr (Nat.not_lt.mp few))

end

section

/-- Calls that begin and end one after another with the same outcome. -/
def calls (success : Bool) : Nat → Nat → List Action
  | _, 0 => []
  | first, n + 1 => [.start, .finish first success] ++ calls success (first + 1) n

/-- A closed circuit with no call in flight, whose window goes on with these counts. -/
structure Counting (settings : BreakerSettings) (failures successes : Nat) (session : Session) : Prop where
  tally : session.breaker.tally = ⟨.closed, failures, successes⟩
  going : ¬ session.breaker.WindowOver session.clock
  idle : session.inFlight = []
  settings : session.breaker.settings = settings

variable {settings : BreakerSettings} {session : Session} {failures successes : Nat}

/-- A call that begins and ends in a closed circuit without other calls is counted, and then the rest
of the run follows. -/
theorem run_call (closed : session.breaker.circuit = .closed) (idle : session.inFlight = [])
    (success : Bool) (rest : List Action) :
    let counted := session.breaker.count success session.clock
    let later := ({ session with breaker := counted.1, begun := session.begun + 1 } : Session).run rest
    session.run ([.start, .finish session.begun success] ++ rest) =
      (later.1, .started session.begun :: .done :: later.2.1, counted.2.toList ++ later.2.2) := by
  intro counted later
  have started : session.step .start =
      ⟨session.join .plain session.breaker, .started session.begun, none⟩ := by
    unfold step
    rw [enter_closed closed]
  have found : (session.join .plain session.breaker).permit? session.begun = some .plain :=
    List.lookup_cons_self
  have finished : (session.join .plain session.breaker).step (.finish session.begun success) =
      ⟨{ session with breaker := counted.1, begun := session.begun + 1 }, .done, counted.2⟩ := by
    unfold step
    simp only [found]
    simp [settle, leave, join, record_closed closed, release, idle, counted]
  show (session.run (.start :: .finish session.begun success :: rest)) = _
  simp only [run, started, finished]
  rfl

theorem Counting.call (counting : Counting settings failures successes session) (success : Bool)
    (stays : success = false → ¬ settings.OpensAt (countUp failures) successes) :
    Counting settings (if success then failures else countUp failures)
        (if success then countUp successes else successes)
        (session.run [.start, .finish session.begun success]).1 ∧
      (session.run [.start, .finish session.begun success]).1.begun = session.begun + 1 := by
  obtain ⟨tally, going, idle, same⟩ := counting
  have closed : session.breaker.circuit = .closed := by rw [circuit, tally]
  have counted : session.breaker.counted success session.clock =
      ⟨.closed, if success then failures else countUp failures,
        if success then countUp successes else successes⟩ := by
    rw [Breaker.counted, roll_of_not_over going, tally]
    cases success <;> rfl
  have recorded : (session.breaker.count success session.clock).1 =
      { session.breaker with word := .pack (session.breaker.counted success session.clock) } := by
    rw [count_eq closed, if_neg, roll_of_not_over going]
    rintro ⟨rfl, opens⟩
    rw [counted, same] at opens
    exact stays rfl opens
  have outcome : (session.run [.start, .finish session.begun success]).1 =
      { session with
        breaker := { session.breaker with word := .pack (session.breaker.counted success session.clock) }
        begun := session.begun + 1 } := by
    have called := congrArg Prod.fst (run_call closed idle success [])
    rw [recorded] at called
    exact called
  rw [outcome]
  exact ⟨⟨(tally_counted ..).trans counted, going, idle, same⟩, rfl⟩

/-- So many calls are counted one by one. -/
theorem Counting.calls (counting : Counting settings failures successes session) (success : Bool) (n : Nat)
    (fits : (if success then successes else failures) + n ≤ maxCount)
    (few : success = false → failures + n + successes < settings.minimumCalls) :
    Counting settings (if success then failures else failures + n)
      (if success then successes + n else successes)
      (session.run (calls success session.begun n)).1 := by
  induction n generalizing session failures successes with
  | zero => cases success <;> exact counting
  | succ n ih =>
    have stays : success = false → ¬ settings.OpensAt (countUp failures) successes := by
      intro failed opens
      have minimum := opens.1
      have less := few failed
      simp only [countUp] at minimum
      omega
    obtain ⟨counted, begun⟩ := counting.call success stays
    rw [Session.calls, run_append, ← begun]
    cases success with
    | true =>
      simp only [if_true] at fits counted ⊢
      have up : countUp successes = successes + 1 := by
        simp only [countUp]
        omega
      rw [up] at counted
      have rest := ih counted (by simp only [if_true]; omega) nofun
      simp only [if_true] at rest
      rwa [Nat.add_right_comm] at rest
    | false =>
      simp only [Bool.false_eq_true, if_false] at fits counted ⊢
      have up : countUp failures = failures + 1 := by
        simp only [countUp]
        omega
      rw [up] at counted
      have rest := ih counted (by simp only [Bool.false_eq_true, if_false]; omega)
        (fun failed => by have less := few failed; omega)
      simp only [Bool.false_eq_true, if_false] at rest
      rwa [Nat.add_right_comm] at rest

/-- As many failures as a window may count before it is judged, and then successes up to the minimum. -/
theorem exists_not_below {draft : BreakerSettings.Draft} (built : draft.build = .ok settings)
    (stays : ¬ settings.StaysBelow) : ∃ actions : List Action,
      let breaker := ((create "store" settings (.ofList []) 0).run actions).1.breaker
      breaker.circuit = .closed ∧ ¬ settings.Below breaker.tally := by
  obtain ⟨-, -, -, calls⟩ := BreakerSettings.build_spec built
  simp only [BreakerSettings.StaysBelow, not_or, not_lt] at stays
  obtain ⟨window, few, share⟩ := stays
  have fewer : settings.unjudged < settings.minimumCalls := by
    simp only [BreakerSettings.unjudged]
    omega
  have fits : settings.unjudged ≤ maxCount := Nat.min_le_right ..
  have rest : settings.minimumCalls - settings.unjudged ≤ maxCount := by
    simp only [BreakerSettings.unjudged, maxCount] at few ⊢
    omega
  have start : Counting settings 0 0 (create "store" settings (.ofList []) 0) := by
    refine ⟨tally_create .., ?_, rfl, rfl⟩
    have long : settings.window.toMillis.toNat ≠ 0 := fun zero => window (UInt64.toNat_inj.mp zero)
    show ¬ settings.window.toMillis.toNat ≤ 0
    omega
  have failed := start.calls false settings.unjudged
    (by simp only [Bool.false_eq_true, if_false]; omega) (fun _ => by omega)
  simp only [Bool.false_eq_true, if_false, Nat.zero_add] at failed
  have full := failed.calls true (settings.minimumCalls - settings.unjudged)
    (by simp only [if_true]; omega) nofun
  simp only [if_true, Nat.zero_add] at full
  rw [← run_append] at full
  refine ⟨_, by rw [circuit, full.tally], ?_⟩
  rw [full.tally, BreakerSettings.Below]
  have all : settings.unjudged + (settings.minimumCalls - settings.unjudged) = settings.minimumCalls := by
    omega
  simp only [all, not_or, not_lt]
  exact ⟨Nat.le_refl _, share⟩

/-- A closed circuit is below its threshold in every run exactly under the settings that say so: the
window ends at once, the minimum is more than a window counts, or the failures that a window may count
before the minimum are too small a share of it. -/
theorem stays_below_threshold_iff {draft : BreakerSettings.Draft} (built : draft.build = .ok settings) :
    (∀ (name : String) (draws : Random.Stream) (clock : Timestamp) (actions : List Action),
      let breaker := ((create name settings draws clock).run actions).1.breaker
      breaker.circuit = .closed → settings.Below breaker.tally) ↔ settings.StaysBelow := by
  constructor
  · intro always
    by_contra stays
    obtain ⟨actions, closed, above⟩ := exists_not_below built stays
    exact above (always "store" (.ofList []) 0 actions closed)
  · intro stays name draws clock actions breaker closed
    have judged : Judged settings ((create name settings draws clock).run actions).1 :=
      run_invariant (Judged settings) (fun _ action kept => judged_step kept action)
        (judged_create name settings draws clock) actions
    exact judged.below built closed stays

/-- With a minimum of one call there is nothing to complete. -/
theorem stays_below_threshold_one :
    let settings : BreakerSettings :=
      { threshold := 1 / 2, minimumCalls := 1, window := .ofSeconds 10, recovery := .ofSeconds 30,
        jitter := .none, maxProbes := 1 }
    let draft : BreakerSettings.Draft := { window := .ofSeconds 10, jitterFactor := 0 }
    draft.build = .ok settings ∧
      ∀ (name : String) (draws : Random.Stream) (clock : Timestamp) (actions : List Action),
        let breaker := ((create name settings draws clock).run actions).1.breaker
        breaker.circuit = .closed → settings.Below breaker.tally := by
  intro settings draft
  have built : draft.build = .ok settings := by decide +kernel
  have positive := (BreakerSettings.build_spec built).2.1
  refine ⟨built, (stays_below_threshold_iff built).mpr (.inr (.inr ?_))⟩
  show ((0 : Nat) : ℚ) / _ < _
  rwa [Nat.cast_zero, zero_div]

/-- A success completes a minimum of two calls after a failure, and the circuit stays closed. -/
theorem half_failed_stays_closed :
    let settings : BreakerSettings :=
      { threshold := 1 / 2, minimumCalls := 2, window := .ofSeconds 10, recovery := .ofSeconds 30,
        jitter := .none, maxProbes := 1 }
    let draft : BreakerSettings.Draft := { minimumCalls := 2, window := .ofSeconds 10, jitterFactor := 0 }
    let actions : List Action := [.start, .finish 0 false, .start, .finish 1 true]
    let breaker := ((create "store" settings (.ofList []) 0).run actions).1.breaker
    draft.build = .ok settings ∧ breaker.tally = ⟨.closed, 1, 1⟩ ∧ ¬ settings.Below breaker.tally := by
  intro settings draft actions breaker
  have tally : breaker.tally = ⟨.closed, 1, 1⟩ := by decide +kernel
  refine ⟨by decide +kernel, tally, ?_⟩
  have half : settings.threshold.toRat = 1 / 2 := by decide +kernel
  rw [tally, BreakerSettings.Below, half]
  norm_num [settings]

end
end Session
end Admission
