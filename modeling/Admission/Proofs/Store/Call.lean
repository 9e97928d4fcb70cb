import Admission.Store.Basic

namespace Admission

/-- The same reply with the answer read in another way. -/
def Reply.map {α β σ : Type} (read : α → β) (reply : Reply α σ) : Reply β σ :=
  ⟨reply.result.map read, reply.events, reply.store⟩

namespace Store

inductive Call
  | currentTime
  | acquire (key : String) (limiter : Limiter) (permits : UInt64) (now : Timestamp)
  | reset (key : String)
  | state (key : String)
  deriving DecidableEq

/-- What a store answers, unless it fails. -/
inductive Response
  | time (now : Timestamp)
  | verdict (allowed : Bool)
  | forgotten
  | meter (meter? : Option Meter)
  deriving DecidableEq

namespace Call

def operation : Call → StoreOperation
  | currentTime => .currentTime
  | acquire .. => .acquire
  | reset _ => .reset
  | state _ => .state

def key? : Call → Option String
  | currentTime => none
  | acquire key .. | reset key | state key => some key

def isReset : Call → Bool
  | reset _ => true
  | _ => false

/-- Whether the call only looks. -/
def isRead : Call → Bool
  | currentTime | state _ => true
  | _ => false

def on {σ : Type} [Store σ] : Call → σ → Reply Response σ
  | currentTime, store => (Store.currentTime store).map .time
  | acquire key limiter permits now, store =>
    (Store.acquire store key limiter permits now).map .verdict
  | reset key, store => (Store.reset store key).map fun _ => .forgotten
  | state key, store => (Store.state store key).map .meter

end Call
end Store
end Admission
