import Admission.Breaker.Session

namespace Admission.Session

def clockAfter (clock : Timestamp) : Action → Timestamp
  | .setClock now => now
  | _ => clock

/-- Every action is allowed at the clock reading at which it is taken. -/
def Throughout (allowed : Timestamp → Action → Prop) : Timestamp → List Action → Prop
  | _, [] => True
  | clock, action :: rest => allowed clock action ∧ Throughout allowed (clockAfter clock action) rest

def Forward : Timestamp → List Action → Prop :=
  Throughout fun clock action => clock ≤ clockAfter clock action

section

variable {α : Type}

/-- The notes of one who sees the session before each action and the action. -/
def follow (note : Session → Action → α → α) (session : Session) (noted : α) : List Action → α
  | [] => noted
  | action :: rest => follow note (session.step action).session (note session action noted) rest

theorem clock_step (session : Session) (action : Action) :
    (session.step action).session.clock = clockAfter session.clock action := by
  unfold step
  cases action with
  | start =>
    dsimp only
    split <;> rfl
  | finish call success =>
    dsimp only
    split <;> rfl
  | cancel call =>
    dsimp only
    split <;> rfl
  | trip => rfl
  | reset => rfl
  | setClock now => rfl
  | look => rfl

theorem throughout_of_forall {allowed : Timestamp → Action → Prop}
    (always : ∀ clock action, allowed clock action) (clock : Timestamp) (actions : List Action) :
    Throughout allowed clock actions := by
  induction actions generalizing clock with
  | nil => trivial
  | cons action rest ih => exact ⟨always clock action, ih _⟩

/-- What every allowed step keeps of a session and the notes holds after every run of such steps. -/
theorem follow_invariant (Holds : Session → α → Prop) {allowed : Timestamp → Action → Prop}
    {note : Session → Action → α → α}
    (kept : ∀ session action noted, allowed session.clock action → Holds session noted →
      Holds (session.step action).session (note session action noted))
    {session : Session} {noted : α} (start : Holds session noted) (actions : List Action)
    (throughout : Throughout allowed session.clock actions) :
    Holds (session.run actions).1 (session.follow note noted actions) := by
  induction actions generalizing session noted with
  | nil => exact start
  | cons action rest ih =>
    obtain ⟨first, later⟩ := throughout
    rw [← clock_step] at later
    exact ih (kept session action noted first start) later

theorem run_invariant (Holds : Session → Prop)
    (kept : ∀ session action, Holds session → Holds (session.step action).session)
    {session : Session} (start : Holds session) (actions : List Action) : Holds (session.run actions).1 := by
  induction actions generalizing session with
  | nil => exact start
  | cons action rest ih => exact ih (kept session action start)

theorem run_append (session : Session) (first second : List Action) :
    (session.run (first ++ second)).1 = ((session.run first).1.run second).1 := by
  induction first generalizing session with
  | nil => rfl
  | cons action rest ih => exact ih _

end
end Admission.Session
