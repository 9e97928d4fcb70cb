import Admission.Breaker.Basic

namespace Admission

/-- Calls are numbered in the order in which they begin. -/
structure Session where
  breaker : Breaker
  clock : Timestamp
  begun : Nat := 0
  inFlight : List (Nat × Permit) := []

namespace Session

inductive Action
  /-- A call asks to start. -/
  | start
  | finish (call : Nat) (success : Bool)
  /-- A call is given up and its outcome is not recorded. -/
  | cancel (call : Nat)
  | trip
  | reset
  | setClock (now : Timestamp)
  | look
  deriving DecidableEq

inductive Answer
  | started (call : Nat)
  | refused (refusal : Refusal)
  | done
  /-- No call of that number is in flight. -/
  | unknown
  | shown (snapshot : Breaker.Snapshot)
  deriving DecidableEq

/-- The session after an action, its answer and the transition it reports. -/
structure Step where
  session : Session
  answer : Answer
  reported : Option Transition

def create (name : String) (settings : BreakerSettings) (draws : Random.Stream)
    (clock : Timestamp) : Session :=
  { breaker := .create name settings draws clock, clock }

def permit? (session : Session) (call : Nat) : Option Permit :=
  session.inFlight.lookup call

/-- A call that was let in is in flight under the next number. -/
def join (session : Session) (permit : Permit) (breaker : Breaker) : Session :=
  { session with
    breaker
    begun := session.begun + 1
    inFlight := (session.begun, permit) :: session.inFlight }

def leave (session : Session) (call : Nat) (permit : Permit) : Session :=
  { session with
    breaker := session.breaker.release permit
    inFlight := session.inFlight.filter (·.1 ≠ call) }

/-- Records the outcome of a call, which still holds what it held. -/
def settle (session : Session) (permit : Permit) (success : Bool) : Session × Option Transition :=
  let (breaker, reported) := session.breaker.record permit success session.clock
  ({ session with breaker }, reported)

/-- What one look at the circuit does for a call that asks to start. -/
inductive Attempt
  | started (call : Nat) (session : Session)
  | refused (refusal : Refusal)
  | moved (session : Session) (reported : Transition)

/-- Looks once. After a move others may act before the call looks again. -/
def attempt (session : Session) : Attempt :=
  match session.breaker.look session.clock with
  | .started permit breaker => .started session.begun (session.join permit breaker)
  | .refused refusal => .refused refusal
  | .moved breaker => .moved { session with breaker } ⟨.opened, .halfOpen⟩

def step (session : Session) : Action → Step
  | .start =>
    let entry := session.breaker.enter session.clock
    match entry.result with
    | .ok permit =>
      ⟨session.join permit entry.breaker, .started session.begun, entry.reported⟩
    | .error refusal =>
      ⟨{ session with breaker := entry.breaker }, .refused refusal, entry.reported⟩
  | .finish call success =>
    match session.permit? call with
    | some permit =>
      let (session, reported) := session.settle permit success
      ⟨session.leave call permit, .done, reported⟩
    | none => ⟨session, .unknown, none⟩
  | .cancel call =>
    match session.permit? call with
    | some permit => ⟨session.leave call permit, .done, none⟩
    | none => ⟨session, .unknown, none⟩
  | .trip =>
    let (breaker, reported) := session.breaker.trip session.clock
    ⟨{ session with breaker }, .done, reported⟩
  | .reset =>
    let (breaker, reported) := session.breaker.reset session.clock
    ⟨{ session with breaker }, .done, reported⟩
  | .setClock now => ⟨{ session with clock := now }, .done, none⟩
  | .look => ⟨session, .shown session.breaker.snapshot, none⟩

/-- The session after some actions, with the answers and the transitions reported. -/
def run (session : Session) : List Action → Session × List Answer × List Transition
  | [] => (session, [], [])
  | action :: rest =>
    let step := session.step action
    let (last, answers, reported) := step.session.run rest
    (last, step.answer :: answers, step.reported.toList ++ reported)

/-- The calls in flight that hold a probe slot. -/
def probesInFlight (session : Session) : Nat :=
  session.inFlight.countP (·.2 = .probe)

end Session
end Admission
