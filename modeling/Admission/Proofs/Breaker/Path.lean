import Admission.Proofs.Breaker.Effect

namespace Admission

namespace Circuit

def change (earlier entered : Circuit) : Option Transition :=
  if earlier = entered then none else some ⟨earlier, entered⟩

/-- Transitions that lead from one state to another. Each leaves the state that the one before has
entered, and enters another one. -/
def Path (first : Circuit) : List Transition → Circuit → Prop
  | [], last => last = first
  | next :: rest, last => next.left = first ∧ next.entered ≠ next.left ∧ Path next.entered rest last

@[simp] theorem change_self (circuit : Circuit) : change circuit circuit = none :=
  if_pos rfl

theorem Path.change {next last : Circuit} {rest : List Transition} (path : Path next rest last)
    (first : Circuit) : Path first ((Circuit.change first next).toList ++ rest) last := by
  by_cases same : first = next
  · subst same
    rw [change_self]
    exact path
  · rw [Circuit.change, if_neg same]
    exact ⟨rfl, Ne.symm same, path⟩

end Circuit

namespace Breaker

section

variable {breaker : Breaker} {now : Timestamp}

private theorem circuit_takeSlot {after : Breaker} (halfOpen : breaker.circuit = .halfOpen)
    (taken : breaker.takeSlot = .ok after) : after.circuit = .halfOpen :=
  (sameCircuit_takeSlot taken).circuit.trans halfOpen

private theorem reported_enter (breaker : Breaker) (now : Timestamp) :
    (breaker.enter now).reported = breaker.circuit.change (breaker.enter now).breaker.circuit := by
  cases state : breaker.circuit with
  | closed =>
    rw [enter_closed state]
    simp only [state, Circuit.change_self]
  | opened =>
    by_cases early : now < breaker.halfOpenAt
    · rw [enter_early state early]
      simp only [state, Circuit.change_self]
    · have moved : ({ breaker with word := .pack ⟨.halfOpen, 0, 0⟩ } : Breaker).circuit = .halfOpen :=
        circuit_pack ..
      rw [enter_late state early]
      cases taken : ({ breaker with word := .pack ⟨.halfOpen, 0, 0⟩ } : Breaker).takeSlot with
      | ok after =>
        simp only [circuit_takeSlot moved taken]
        rfl
      | error refusal =>
        simp only [moved]
        rfl
  | halfOpen =>
    rw [enter_halfOpen state]
    cases taken : breaker.takeSlot with
    | ok after => simp only [circuit_takeSlot state taken, Circuit.change_self]
    | error refusal => simp only [state, Circuit.change_self]

private theorem reported_count (success : Bool) :
    (breaker.count success now).2 = Circuit.closed.change (breaker.count success now).1.circuit := by
  unfold count
  cases success with
  | true => simp only [if_true, circuit_pack, Circuit.change_self]
  | false =>
    simp only [Bool.false_eq_true, if_false]
    split
    · simp only [circuit_openWith]
      rfl
    · simp only [circuit_pack, Circuit.change_self]

private theorem reported_record (breaker : Breaker) (permit : Permit) (success : Bool) (now : Timestamp) :
    (breaker.record permit success now).2 =
      breaker.circuit.change (breaker.record permit success now).1.circuit := by
  cases state : breaker.circuit with
  | closed =>
    rw [record_closed state]
    exact reported_count success
  | opened =>
    rw [record_opened state, state]
    rfl
  | halfOpen =>
    cases permit with
    | plain =>
      rw [record_plain state, state]
      rfl
    | probe =>
      unfold record
      rw [state]
      cases success with
      | true => simp only [if_true, circuit_closeAt]; rfl
      | false => simp only [Bool.false_eq_true, if_false, circuit_openWith]; rfl

private theorem reported_trip (breaker : Breaker) (now : Timestamp) :
    (breaker.trip now).2 = breaker.circuit.change (breaker.trip now).1.circuit := by
  unfold trip
  rw [circuit_openWith]
  rfl

private theorem reported_reset (breaker : Breaker) (now : Timestamp) :
    (breaker.reset now).2 = breaker.circuit.change (breaker.reset now).1.circuit := by
  have closes : (breaker.reset now).1.circuit = .closed := circuit_closeAt breaker now
  rw [closes]
  rfl

end
end Breaker

namespace Session

open Breaker

/-- What moves a circuit, and where to. -/
inductive Moves (session : Session) : Action → Transition → Prop
  | halfOpened (opened : session.breaker.circuit = .opened)
      (late : ¬ session.clock < session.breaker.halfOpenAt) :
      Moves session .start ⟨.opened, .halfOpen⟩
  | tipped {call : Nat} {permit : Permit} (found : session.permit? call = some permit)
      (closed : session.breaker.circuit = .closed) :
      Moves session (.finish call false) ⟨.closed, .opened⟩
  | recovered {call : Nat} (found : session.permit? call = some .probe)
      (halfOpen : session.breaker.circuit = .halfOpen) :
      Moves session (.finish call true) ⟨.halfOpen, .closed⟩
  | reopened {call : Nat} (found : session.permit? call = some .probe)
      (halfOpen : session.breaker.circuit = .halfOpen) :
      Moves session (.finish call false) ⟨.halfOpen, .opened⟩
  | tripped (other : session.breaker.circuit ≠ .opened) :
      Moves session .trip ⟨session.breaker.circuit, .opened⟩
  | reset (other : session.breaker.circuit ≠ .closed) :
      Moves session .reset ⟨session.breaker.circuit, .closed⟩

section

variable {session : Session}

theorem Effect.moves {action : Action} {after : Breaker} (effect : Effect session action after)
    (other : after.circuit ≠ session.breaker.circuit) :
    Moves session action ⟨session.breaker.circuit, after.circuit⟩ := by
  cases effect with
  | kept _ _ _ same => exact absurd same.circuit other
  | halfOpened opened late same =>
    rw [same.circuit, circuit_pack, opened]
    exact .halfOpened opened late
  | counted _ closed _ same =>
    have kept : after.circuit = .closed := by
      rw [circuit, same.tally, tally_counted, circuit_counted closed]
    exact absurd (kept.trans closed.symm) other
  | tipped found closed _ same =>
    rw [same.circuit, circuit_openWith, closed]
    exact .tipped found closed
  | recovered found halfOpen same =>
    rw [same.circuit, circuit_closeAt, halfOpen]
    exact .recovered found halfOpen
  | reopened found halfOpen same =>
    rw [same.circuit, circuit_openWith, halfOpen]
    exact .reopened found halfOpen
  | tripped same =>
    have opens : after.circuit = .opened := same.circuit.trans (circuit_openWith ..)
    rw [opens] at other ⊢
    exact .tripped (Ne.symm other)
  | reset same =>
    have closes : after.circuit = .closed :=
      same.circuit.trans (circuit_closeAt session.breaker session.clock)
    rw [closes] at other ⊢
    exact .reset (Ne.symm other)

/-- A step reports the change of the circuit, and nothing else. -/
theorem reported_step (session : Session) (action : Action) :
    (session.step action).reported =
      session.breaker.circuit.change (session.step action).session.breaker.circuit := by
  cases action with
  | start =>
    have entered := reported_enter session.breaker session.clock
    unfold step
    dsimp only
    split
    · exact entered
    · exact entered
  | finish call success =>
    cases found : session.permit? call with
    | none =>
      unfold step
      simp only [found, Circuit.change_self]
    | some permit =>
      -- The slot is given back after the outcome is recorded, which does not move the circuit.
      have recorded := reported_record session.breaker permit success session.clock
      rw [step_finish found, (sameCircuit_release _ permit).circuit, ← recorded]
      unfold step
      simp only [found]
      rfl
  | cancel call =>
    unfold step
    cases found : session.permit? call with
    | none => simp only [found, Circuit.change_self]
    | some permit =>
      have kept : (session.leave call permit).breaker.circuit = session.breaker.circuit :=
        (sameCircuit_release session.breaker permit).circuit
      simp only [found, kept, Circuit.change_self]
  | trip => exact reported_trip session.breaker session.clock
  | reset => exact reported_reset session.breaker session.clock
  | setClock now => exact (Circuit.change_self _).symm
  | look => exact (Circuit.change_self _).symm

private theorem moves_of_reported {action : Action} {transition : Transition}
    (reported : (session.step action).reported = some transition) : Moves session action transition := by
  rw [reported_step, Circuit.change] at reported
  split at reported
  · cases reported
  · rename_i other
    cases reported
    exact (effect_step session action).moves (Ne.symm other)

theorem path_run (session : Session) (actions : List Action) :
    Circuit.Path session.breaker.circuit (session.run actions).2.2
      (session.run actions).1.breaker.circuit := by
  induction actions generalizing session with
  | nil => rfl
  | cons action rest ih =>
    have later := (ih (session.step action).session).change session.breaker.circuit
    rw [← reported_step] at later
    exact later

/-- A transition that a run reports was made by one of its actions. -/
theorem moves_of_mem_run {actions : List Action} {transition : Transition}
    (member : transition ∈ (session.run actions).2.2) :
    ∃ earlier action later, actions = earlier ++ action :: later ∧
      Moves (session.run earlier).1 action transition := by
  induction actions generalizing session with
  | nil => cases member
  | cons action rest ih =>
    rcases List.mem_append.mp member with here | there
    · exact ⟨[], action, rest, rfl, moves_of_reported (Option.mem_toList.mp here)⟩
    · obtain ⟨earlier, next, later, rfl, moves⟩ := ih there
      exact ⟨action :: earlier, next, later, rfl, moves⟩

/-- The end of a call that holds no slot moves a closed circuit only. -/
theorem sameCircuit_finish_plain {call : Nat} (found : session.permit? call = some .plain)
    (other : session.breaker.circuit ≠ .closed) (success : Bool) :
    SameCircuit session.breaker (session.step (.finish call success)).session.breaker := by
  rw [step_finish found]
  cases state : session.breaker.circuit with
  | closed => exact absurd state other
  | opened =>
    rw [record_opened state]
    exact .refl _
  | halfOpen =>
    rw [record_plain state]
    exact .refl _

/-- The transitions that a run reports lead from a closed circuit to the present one. Each was made by
an action of the run that may make it, each action reports just the change it makes, and the end of a
call that holds no slot changes nothing of a circuit that is not closed. -/
theorem run_reports_path (name : String) (settings : BreakerSettings) (draws : Random.Stream)
    (clock : Timestamp) (actions : List Action) :
    let start := create name settings draws clock
    let session := (start.run actions).1
    let reported := (start.run actions).2.2
    Circuit.Path .closed reported session.breaker.circuit ∧
      (∀ transition ∈ reported, ∃ earlier action later, actions = earlier ++ action :: later ∧
        Moves (start.run earlier).1 action transition) ∧
      (∀ action, (session.step action).reported =
        session.breaker.circuit.change (session.step action).session.breaker.circuit) ∧
      ∀ call success, session.permit? call = some .plain → session.breaker.circuit ≠ .closed →
        SameCircuit session.breaker (session.step (.finish call success)).session.breaker := by
  intro start session reported
  have closed : start.breaker.circuit = .closed := circuit_create ..
  have path := path_run start actions
  rw [closed] at path
  refine ⟨path, fun transition member => moves_of_mem_run member, reported_step session, ?_⟩
  intro call success found other
  exact sameCircuit_finish_plain found other success

end
end Session
end Admission
