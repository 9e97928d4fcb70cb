import Mathlib.Data.List.Nodup
import Admission.Breaker.Session

namespace Admission

namespace Breaker

/-- Two breakers with the same settings and as many slots taken. -/
structure SameSlots (before after : Breaker) : Prop where
  probes : after.probes = before.probes
  settings : after.settings = before.settings

variable {breaker : Breaker}

theorem SameSlots.refl (breaker : Breaker) : SameSlots breaker breaker := ⟨rfl, rfl⟩

private theorem sameSlots_openWith (breaker : Breaker) (failures successes : Nat) (now : Timestamp) :
    SameSlots breaker (breaker.openWith failures successes now) := ⟨rfl, rfl⟩

private theorem sameSlots_closeAt (breaker : Breaker) (now : Timestamp) :
    SameSlots breaker (breaker.closeAt now) :=
  ⟨rfl, rfl⟩

private theorem sameSlots_roll (breaker : Breaker) (now : Timestamp) :
    SameSlots breaker (breaker.roll now) := by
  unfold roll
  split
  · exact .refl breaker
  · exact sameSlots_closeAt breaker now

private theorem sameSlots_count (breaker : Breaker) (success : Bool) (now : Timestamp) :
    SameSlots breaker (breaker.count success now).1 := by
  obtain ⟨probes, settings⟩ := sameSlots_roll breaker now
  unfold count
  cases success with
  | true => exact ⟨probes, settings⟩
  | false =>
    simp only [Bool.false_eq_true, if_false]
    split
    · exact ⟨probes, settings⟩
    · exact ⟨probes, settings⟩

theorem sameSlots_record (breaker : Breaker) (permit : Permit) (success : Bool) (now : Timestamp) :
    SameSlots breaker (breaker.record permit success now).1 := by
  unfold record
  split
  · exact sameSlots_count breaker success now
  · cases success with
    | true => exact sameSlots_closeAt breaker now
    | false => exact sameSlots_openWith breaker 1 0 now
  · exact .refl breaker
  · exact .refl breaker

private theorem sameSlots_trip (breaker : Breaker) (now : Timestamp) : SameSlots breaker (breaker.trip now).1 :=
  sameSlots_openWith ..

private theorem sameSlots_reset (breaker : Breaker) (now : Timestamp) :
    SameSlots breaker (breaker.reset now).1 :=
  ⟨rfl, rfl⟩

/-- Two breakers of which the later has one more slot taken, within the limit. -/
structure OneMoreSlot (before after : Breaker) : Prop where
  probes : after.probes = before.probes + 1
  settings : after.settings = before.settings
  within : after.probes ≤ after.settings.maxProbes

private theorem takeSlot_cases (breaker : Breaker) :
    (∃ after, breaker.takeSlot = .ok after ∧ OneMoreSlot breaker after) ∨
      ∃ refusal, breaker.takeSlot = .error refusal := by
  unfold takeSlot
  by_cases free : breaker.probes < breaker.settings.maxProbes
  · left
    exact ⟨_, if_pos free, rfl, rfl, free⟩
  · right
    exact ⟨_, if_neg free⟩

/-- A call is let in without a slot, as a probe with one, or refused. -/
theorem enter_cases (breaker : Breaker) (now : Timestamp) :
    (breaker.enter now).result = .ok .plain ∧ SameSlots breaker (breaker.enter now).breaker ∨
      (breaker.enter now).result = .ok .probe ∧ OneMoreSlot breaker (breaker.enter now).breaker ∨
      (∃ refusal, (breaker.enter now).result = .error refusal) ∧
        SameSlots breaker (breaker.enter now).breaker := by
  unfold enter look
  cases breaker.circuit with
  | closed => exact .inl ⟨rfl, .refl breaker⟩
  | opened =>
    right
    by_cases early : now < breaker.halfOpenAt
    · right
      simp only [early, if_true]
      exact ⟨⟨_, rfl⟩, .refl breaker⟩
    · -- The slot is taken of the breaker that has just become half-open.
      simp only [early, if_false]
      rcases takeSlot_cases { breaker with word := .pack ⟨.halfOpen, 0, 0⟩ } with
        ⟨after, taken, more⟩ | ⟨refusal, refused⟩
      · left
        simp only [taken]
        exact ⟨trivial, more.probes, more.settings, more.within⟩
      · right
        simp only [refused]
        exact ⟨⟨refusal, rfl⟩, rfl, rfl⟩
  | halfOpen =>
    right
    rcases takeSlot_cases breaker with ⟨after, taken, more⟩ | ⟨refusal, refused⟩
    · left
      simp only [taken]
      exact ⟨trivial, more⟩
    · right
      simp only [refused]
      exact ⟨⟨refusal, rfl⟩, .refl breaker⟩

end Breaker

namespace Session

/-- A slot is held by exactly the probes in flight, and every call in flight has its own number. -/
structure Accounted (settings : BreakerSettings) (session : Session) : Prop where
  probes : session.breaker.probes = session.probesInFlight
  within : session.breaker.probes ≤ settings.maxProbes
  settings : session.breaker.settings = settings
  begun : ∀ call ∈ session.inFlight.map Prod.fst, call < session.begun
  distinct : (session.inFlight.map Prod.fst).Nodup

section

variable {settings : BreakerSettings} {session : Session} {call : Nat} {permit : Permit}

private theorem countP_leave (held : Permit) :
    (inFlight : List (Nat × Permit)) → (inFlight.map Prod.fst).Nodup →
    inFlight.lookup call = some permit →
    inFlight.countP (·.2 = held) =
      (inFlight.filter (·.1 ≠ call)).countP (·.2 = held) + if permit = held then 1 else 0
  | [], _, found => by cases found
  | (other, kept) :: rest, distinct, found => by
    obtain ⟨fresh, distinctRest⟩ := List.nodup_cons.mp distinct
    by_cases same : call = other
    · subst same
      have gone : rest.filter (·.1 ≠ call) = rest := by
        refine List.filter_eq_self.mpr fun entry member => ?_
        rw [decide_eq_true_eq]
        intro named
        have here : entry.1 ∈ rest.map Prod.fst := List.mem_map_of_mem member
        rw [named] at here
        exact fresh here
      rw [List.lookup_cons_self] at found
      cases found
      rw [List.countP_cons, List.filter_cons_of_neg (by simp), gone]
      simp only [decide_eq_true_eq]
    · rw [List.lookup_cons, beq_false_of_ne same] at found
      have later := countP_leave held rest distinctRest found
      rw [List.countP_cons, List.filter_cons_of_pos (by simpa using Ne.symm same), List.countP_cons]
      omega

theorem accounted_create (name : String) (settings : BreakerSettings) (draws : Random.Stream)
    (clock : Timestamp) : Accounted settings (create name settings draws clock) :=
  ⟨rfl, Nat.zero_le _, rfl, by simp [create], .nil⟩

theorem Accounted.sameSlots (accounted : Accounted settings session) {breaker : Breaker}
    (same : Breaker.SameSlots session.breaker breaker) : Accounted settings { session with breaker } := by
  obtain ⟨probes, within, kept, begun, distinct⟩ := accounted
  have unchanged : breaker.probes ≤ settings.maxProbes := Nat.le_trans (Nat.le_of_eq same.probes) within
  exact ⟨same.probes.trans probes, unchanged, same.settings.trans kept, begun, distinct⟩

theorem Accounted.join (accounted : Accounted settings session) {breaker : Breaker}
    (kept : breaker.settings = session.breaker.settings) (within : breaker.probes ≤ settings.maxProbes)
    (held : breaker.probes = session.breaker.probes + if permit = .probe then 1 else 0) :
    Accounted settings (session.join permit breaker) := by
  refine ⟨?_, within, kept.trans accounted.settings, ?_, ?_⟩
  · show breaker.probes = List.countP _ (_ :: session.inFlight)
    rw [List.countP_cons, held, accounted.probes]
    simp only [decide_eq_true_eq]
    rfl
  · intro call member
    show call < session.begun + 1
    rcases List.mem_cons.mp member with rfl | member
    · exact Nat.lt_succ_self _
    · exact Nat.lt_succ_of_lt (accounted.begun call member)
  · refine List.nodup_cons.mpr ⟨fun member => ?_, accounted.distinct⟩
    exact Nat.lt_irrefl _ (accounted.begun _ member)

/-- A call that leaves finds the slot that it gives back. -/
theorem Accounted.probes_leave (accounted : Accounted settings session)
    (found : session.permit? call = some permit) :
    (session.leave call permit).breaker.probes + (if permit = .probe then 1 else 0) =
        session.breaker.probes ∧
      (session.leave call permit).breaker.probes = (session.leave call permit).probesInFlight := by
  have counted := countP_leave .probe session.inFlight accounted.distinct found
  have probes := accounted.probes
  show (session.breaker.release permit).probes + _ = _ ∧
    (session.breaker.release permit).probes = List.countP _ (session.inFlight.filter _)
  unfold probesInFlight at probes
  cases permit with
  | plain =>
    simp only [Breaker.release, reduceCtorEq, if_false, Nat.add_zero] at counted ⊢
    exact ⟨trivial, probes.trans counted⟩
  | probe =>
    simp only [Breaker.release, if_true] at counted ⊢
    omega

theorem Accounted.leave (accounted : Accounted settings session)
    (found : session.permit? call = some permit) : Accounted settings (session.leave call permit) := by
  obtain ⟨fewer, probes⟩ := accounted.probes_leave found
  have within := accounted.within
  refine ⟨probes, by omega, ?_, ?_, ?_⟩
  · rw [← accounted.settings]
    cases permit <;> rfl
  · intro other member
    obtain ⟨entry, kept, rfl⟩ := List.mem_map.mp member
    exact accounted.begun _ (List.mem_map_of_mem (List.mem_filter.mp kept).1)
  · exact (List.filter_sublist.map Prod.fst).nodup accounted.distinct

/-- Every step keeps the account. -/
theorem accounted_step (accounted : Accounted settings session) (action : Action) :
    Accounted settings (session.step action).session := by
  cases action with
  | start =>
    unfold step
    rcases session.breaker.enter_cases session.clock with
      ⟨result, same⟩ | ⟨result, more⟩ | ⟨⟨refusal, result⟩, same⟩
    · simp only [result]
      refine accounted.join same.settings ?_ same.probes
      rw [same.probes]
      exact accounted.within
    · simp only [result]
      refine accounted.join more.settings ?_ more.probes
      rw [← accounted.settings, ← more.settings]
      exact more.within
    · simp only [result]
      exact accounted.sameSlots same
  | finish call success =>
    unfold step
    cases found : session.permit? call with
    | none => simpa [found] using accounted
    | some permit =>
      have settled := accounted.sameSlots (Breaker.sameSlots_record session.breaker permit success session.clock)
      simp only [found]
      exact settled.leave found
  | cancel call =>
    unfold step
    cases found : session.permit? call with
    | none => simpa [found] using accounted
    | some permit =>
      simp only [found]
      exact accounted.leave found
  | trip => exact accounted.sameSlots (Breaker.sameSlots_trip session.breaker session.clock)
  | reset => exact accounted.sameSlots (Breaker.sameSlots_reset session.breaker session.clock)
  | setClock now =>
    exact ⟨accounted.probes, accounted.within, accounted.settings, accounted.begun, accounted.distinct⟩
  | look => exact accounted

theorem accounted_run (accounted : Accounted settings session) (actions : List Action) :
    Accounted settings (session.run actions).1 := by
  induction actions generalizing session with
  | nil => exact accounted
  | cons action rest ih => exact ih (accounted_step accounted action)

theorem Accounted.probes_step (accounted : Accounted settings session)
    (found : session.permit? call = some .probe) :
    (∀ success, (session.step (.finish call success)).session.breaker.probes + 1 = session.breaker.probes) ∧
      (session.step (.cancel call)).session.breaker.probes + 1 = session.breaker.probes := by
  constructor
  · intro success
    have same := Breaker.sameSlots_record session.breaker .probe success session.clock
    have leaves := ((accounted.sameSlots same).probes_leave found).1
    unfold step
    simp only [found]
    exact leaves.trans same.probes
  · unfold step
    simp only [found]
    exact (accounted.probes_leave found).1

/-- After any actions a slot is held by exactly the probes in flight. There are never more than the
limit, each that ends gives back a slot that was taken, and none is taken with no call in flight. -/
theorem run_accounts_probes (name : String) (settings : BreakerSettings) (draws : Random.Stream)
    (clock : Timestamp) (actions : List Action) :
    let session := ((create name settings draws clock).run actions).1
    session.breaker.probes = session.probesInFlight ∧
      session.breaker.probes ≤ settings.maxProbes ∧
      (∀ call, session.permit? call = some .probe →
        (∀ success, (session.step (.finish call success)).session.breaker.probes + 1 =
          session.breaker.probes) ∧
        (session.step (.cancel call)).session.breaker.probes + 1 = session.breaker.probes) ∧
      (session.inFlight = [] → session.breaker.probes = 0) := by
  intro session
  have accounted : Accounted settings session :=
    accounted_run (accounted_create name settings draws clock) actions
  refine ⟨accounted.probes, accounted.within, fun call found => accounted.probes_step found, ?_⟩
  intro idle
  rw [accounted.probes, probesInFlight, idle]
  rfl

end
end Session
end Admission
