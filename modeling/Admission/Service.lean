import Admission.Engine

/-! Services behind an engine. A request that is denied never reaches the service, and one
that is allowed reaches it once, after the delay that the engine asks for. -/
namespace Admission

/-- A service as a machine: it gets ready, then answers one request. -/
structure Service (ι Req Res ε : Type) where
  ready : ι → Except ε Unit × ι
  call : ι → Req → Except ε Res × ι

/-- Why a request was not answered: it was denied, or the service failed. -/
inductive ServiceError (ε : Type)
  | rejected (decision : Decision)
  | inner (error : ε)
  deriving DecidableEq

namespace ServiceError

variable {ε : Type}

def message (innerMessage : ε → String) : ServiceError ε → String
  | rejected decision => "request rejected by limiter `" ++ decision.limiter ++ "`"
  | inner error => innerMessage error

def kind : ServiceError ε → String
  | rejected _ => "Rejected"
  | inner _ => "Inner"

/-- The decision of a denied request. -/
def decision? : ServiceError ε → Option Decision
  | rejected decision => some decision
  | inner _ => none

end ServiceError

/-- How requests are charged before they reach a service. -/
structure Gate (Req : Type) where
  limiter : Limiter
  cost : Req → UInt64 := fun _ => 1

namespace Gate

variable {σ ι Req Res ε : Type}

/-- What is done for a request on its way: it waits, or it reaches the service. -/
inductive Event (Req : Type)
  | waited (delay : Duration)
  | called (request : Req)
  deriving DecidableEq

/-- What happened to one request: the result, what was done for it in order, the decision if there was
one, and the engine and the service afterwards. -/
structure Passage (σ ι Req Res ε : Type) where
  result : Except (ServiceError ε) Res
  events : List (Event Req)
  outcome? : Option (Engine.Outcome σ Req)
  engine : Engine σ Req
  inner : ι

def Passage.waits (passage : Passage σ ι Req Res ε) : List Duration :=
  passage.events.filterMap fun
    | .waited delay => some delay
    | .called _ => none

def Passage.reached (passage : Passage σ ι Req Res ε) : List Req :=
  passage.events.filterMap fun
    | .waited _ => none
    | .called request => some request

def waits (decision : Decision) : List (Event Req) :=
  if decision.delayMillis = 0 then [] else [.waited decision.delay]

/-- Lets one request through the gate to the service. -/
def pass [Store σ] (gate : Gate Req) (service : Service ι Req Res ε) (engine : Engine σ Req)
    (inner : ι) (request : Req) : Passage σ ι Req Res ε :=
  let (ready, inner) := service.ready inner
  match ready with
  | .error error => { result := .error (.inner error), events := [], outcome? := none, engine, inner }
  | .ok () =>
    let outcome := engine.acquire request gate.limiter (gate.cost request)
    if outcome.decision.allowed then
      let (answer, inner) := service.call inner request
      { result := answer.mapError .inner, events := waits outcome.decision ++ [.called request]
        outcome? := some outcome, engine := outcome.engine, inner }
    else
      { result := .error (.rejected outcome.decision), events := [], outcome? := some outcome
        engine := outcome.engine, inner }

def passAll [Store σ] (gate : Gate Req) (service : Service ι Req Res ε) (engine : Engine σ Req)
    (inner : ι) : List Req → List (Passage σ ι Req Res ε)
  | [] => []
  | request :: rest =>
    let passage := gate.pass service engine inner request
    passage :: gate.passAll service passage.engine passage.inner rest

end Gate
end Admission
