import Admission.Engine

namespace Admission

namespace MetricEvent

def isVerdict : MetricEvent → Bool
  | allow _ | deny _ => true
  | _ => false

def isLatency : MetricEvent → Bool
  | latency _ => true
  | _ => false

def isError : MetricEvent → Bool
  | error .. => true
  | _ => false

def isUsage : MetricEvent → Bool
  | usage .. => true
  | _ => false

end MetricEvent

namespace AuditEvent

def isEnforcement : AuditEvent → Bool
  | enforcement .. => true
  | _ => false

def isFailure : AuditEvent → Bool
  | failure .. => true
  | _ => false

def isUnresolved : AuditEvent → Bool
  | keyResolutionFailed .. => true
  | _ => false

end AuditEvent

namespace Engine

/-- What a store answers to a request: its verdict, or why it has none, and the meter that it shows
after a verdict. -/
structure Answer where
  verdict : Except StoreError Bool
  meter? : Option Meter

/-- The name of the meter that a request is charged to, with the key that was found for it. -/
def chargedKey (limiter : Limiter) (resolved : Except KeyError String) : String :=
  storageKey limiter (resolved.toOption.getD anonymousKey)

variable {σ C : Type}

/-- What the caller and the collaborators are told of a request, given its key and the answer of the
store. -/
structure Books (limiter : Limiter) (resolved : Except KeyError String) (answer : Answer)
    (outcome : Outcome σ C) : Prop where
  unresolved : outcome.audit.filter AuditEvent.isUnresolved = match resolved with
    | .ok _ => []
    | .error error => [.keyResolutionFailed limiter.name error.message]
  allowed : outcome.decision.allowed = match answer.verdict with
    | .ok allowed => allowed
    | .error _ => limiter.failStrategy.allows
  reason : outcome.decision.reason? = match answer.verdict with
    | .ok allowed => if allowed then none else some "rate_limit_exceeded"
    | .error _ => some (if limiter.failStrategy.allows then "storage_unavailable_fail_open"
      else "storage_unavailable_fail_closed")
  verdicts : outcome.metrics.filter MetricEvent.isVerdict =
    [if outcome.decision.allowed then .allow limiter.name else .deny limiter.name]
  latencies : outcome.metrics.filter MetricEvent.isLatency = [.latency limiter.name]
  usages : outcome.metrics.countP MetricEvent.isUsage =
    if answer.verdict.isOk ∧ answer.meter?.any (·.algorithm = limiter.algorithm) then 1 else 0
  errors : outcome.metrics.filter MetricEvent.isError = match answer.verdict with
    | .ok _ => []
    | .error error => [.error limiter.name error.message]
  failures : outcome.audit.filter AuditEvent.isFailure = match answer.verdict with
    | .ok _ => []
    | .error error => [.failure limiter.name (chargedKey limiter resolved) error.message
        limiter.failStrategy outcome.decision.allowed]
  enforcements : outcome.audit.filter AuditEvent.isEnforcement = match answer.verdict with
    | .ok false => [.enforcement limiter.name (chargedKey limiter resolved) "rate_limit_exceeded"]
    | _ => []

/-- A store is asked for the time, then to charge the request, then for the meter. -/
def ask [Store σ] (store : σ) (key : String) (limiter : Limiter) (permits : UInt64) : Answer :=
  let time := Store.currentTime store
  match time.result with
  | .error error => ⟨.error error, none⟩
  | .ok now =>
    let charged := Store.acquire time.store key limiter permits now
    ⟨charged.result, (Store.state charged.store key).result.toOption.join⟩

/-- What the store of an engine answers to a request. -/
def answer [Store σ] (engine : Engine σ C) (context : C) (limiter : Limiter) (permits : UInt64) : Answer :=
  ask engine.store (chargedKey limiter (engine.resolve context)) limiter permits

private theorem usageRead_isSome (limiter : Limiter) (now : Timestamp)
    (read : Except StoreError (Option Meter)) :
    (usageRead limiter now read).isSome = read.toOption.join.any (·.algorithm = limiter.algorithm) := by
  match read with
  | .ok (some meter) => exact Meter.usage?_isSome limiter now meter
  | .ok none => rfl
  | .error _ => rfl

/-- The decision about a charged request is that of the store, and gives a reason if it is a denial. -/
theorem verdict_spec (limiter : Limiter) (permits : UInt64) (now : Timestamp) (allowed : Bool)
    (usage? : Option Usage) :
    let decision := verdict limiter permits now allowed usage?
    decision.allowed = allowed ∧ decision.limiter = limiter.name ∧
      decision.reason? = if allowed then none else some "rate_limit_exceeded" := by
  unfold verdict
  cases allowed with
  | false => exact ⟨rfl, rfl, rfl⟩
  | true =>
    cases usage? with
    | none => exact ⟨rfl, rfl, rfl⟩
    | some usage =>
      cases limiter.throttle? with
      | none => exact ⟨rfl, rfl, rfl⟩
      | some throttle => exact ⟨rfl, rfl, rfl⟩

theorem failDecision_spec (limiter : Limiter) :
    (failDecision limiter).allowed = limiter.failStrategy.allows ∧
      (failDecision limiter).limiter = limiter.name ∧
      (failDecision limiter).reason? = some (if limiter.failStrategy.allows then
        "storage_unavailable_fail_open" else "storage_unavailable_fail_closed") := by
  have opens : Decision.storageUnavailable .failOpen = "storage_unavailable_fail_open" := by decide
  have closes : Decision.storageUnavailable .failClosed = "storage_unavailable_fail_closed" := by decide
  unfold failDecision
  cases limiter.failStrategy with
  | failOpen => exact ⟨rfl, rfl, congrArg some opens⟩
  | failClosed => exact ⟨rfl, rfl, congrArg some closes⟩

/-- The events that every decision ends with tell which it is, and that it took time. -/
private theorem closing_spec {decision : Decision} {name : String} (named : decision.limiter = name) :
    (closing decision).filter MetricEvent.isVerdict =
        [if decision.allowed then .allow name else .deny name] ∧
      (closing decision).filter MetricEvent.isLatency = [.latency name] ∧
      (closing decision).filter MetricEvent.isError = [] ∧
      (closing decision).countP MetricEvent.isUsage = 0 := by
  subst named
  unfold closing
  cases decision.allowed with
  | true => exact ⟨rfl, rfl, rfl, rfl⟩
  | false => exact ⟨rfl, rfl, rfl, rfl⟩

/-- The key of a request is told of if it could not be found. -/
theorem meterName_eq (engine : Engine σ C) (context : C) (limiter : Limiter) :
    engine.meterName context limiter = (chargedKey limiter (engine.resolve context),
      match engine.resolve context with
      | .ok _ => []
      | .error error => [.keyResolutionFailed limiter.name error.message]) := by
  unfold meterName
  cases engine.resolve context with
  | ok key => rfl
  | error error => rfl

section

variable [Store σ] {store : σ} {key : String} {engine : Engine σ C} {context : C} {limiter : Limiter}
  {permits : UInt64}

theorem check_of_error {error : StoreError} (said : (ask store key limiter permits).verdict = .error error) :
    (check store key limiter permits).result = .error error := by
  unfold ask at said
  unfold check
  cases time : (Store.currentTime store).result with
  | error fault =>
    simp only [time] at said ⊢
    exact congrArg _ (Except.error.inj said)
  | ok now =>
    simp only [time] at said ⊢
    rw [said]

/-- With a verdict a check decides as it says, at the time that the store tells and with what it reads. -/
theorem check_of_read {allowed : Bool} (said : (ask store key limiter permits).verdict = .ok allowed) :
    ∃ now read, (Store.currentTime store).result = .ok now ∧
      (ask store key limiter permits).meter? = read.toOption.join ∧
      (check store key limiter permits).result =
        .ok (verdict limiter permits now allowed (usageRead limiter now read), usageRead limiter now read) := by
  unfold ask at said ⊢
  unfold check
  cases time : (Store.currentTime store).result with
  | error fault =>
    simp only [time] at said
    cases said
  | ok now =>
    simp only [time] at said ⊢
    rw [said]
    exact ⟨now, _, rfl, rfl, rfl⟩

theorem check_of_ok {allowed : Bool} (said : (ask store key limiter permits).verdict = .ok allowed) :
    ∃ now usage?,
      (check store key limiter permits).result = .ok (verdict limiter permits now allowed usage?, usage?) ∧
        usage?.isSome = (ask store key limiter permits).meter?.any (·.algorithm = limiter.algorithm) := by
  obtain ⟨now, read, -, shown, checked⟩ := check_of_read said
  exact ⟨now, _, checked, shown ▸ usageRead_isSome limiter now read⟩

private theorem books_of_error {error : StoreError}
    (said : (engine.answer context limiter permits).verdict = .error error) :
    Books limiter (engine.resolve context) (engine.answer context limiter permits)
      (engine.acquire context limiter permits) := by
  obtain ⟨allowed, named, reason⟩ := failDecision_spec limiter
  obtain ⟨verdicts, latencies, errors, usages⟩ := closing_spec named
  unfold acquire
  simp only [meterName_eq, check_of_error said]
  constructor
  case unresolved => cases engine.resolve context <;> rfl
  case allowed => rw [said]; exact allowed
  case reason => rw [said]; exact reason
  case verdicts => exact verdicts
  case latencies => exact latencies
  case usages => rw [said]; exact usages
  case errors => rw [said]; exact congrArg (_ :: ·) errors
  case failures => rw [said]; cases engine.resolve context <;> rfl
  case enforcements => rw [said]; cases engine.resolve context <;> rfl

private theorem books_of_ok {allowed : Bool}
    (said : (engine.answer context limiter permits).verdict = .ok allowed) :
    Books limiter (engine.resolve context) (engine.answer context limiter permits)
      (engine.acquire context limiter permits) := by
  obtain ⟨now, usage?, checked, shown⟩ := check_of_ok said
  obtain ⟨same, named, reason⟩ := verdict_spec limiter permits now allowed usage?
  unfold acquire
  simp only [meterName_eq, checked]
  generalize verdict limiter permits now allowed usage? = decision at same named reason ⊢
  subst same
  obtain ⟨verdicts, latencies, errors, usages⟩ := closing_spec named
  constructor
  case unresolved => cases engine.resolve context <;> cases decision.allowed <;> rfl
  case allowed => rw [said]
  case reason => rw [said]; exact reason
  case verdicts => cases usage? <;> exact verdicts
  case latencies => cases usage? <;> exact latencies
  case usages =>
    have read : (engine.answer context limiter permits).meter?.any (·.algorithm = limiter.algorithm) =
      usage?.isSome := shown.symm
    rw [said, read]
    cases usage? with
    | none => exact usages
    | some usage => exact (List.countP_cons_of_pos rfl).trans (congrArg (· + 1) usages)
  case errors => rw [said]; cases usage? <;> exact errors
  case failures => rw [said]; cases engine.resolve context <;> cases decision.allowed <;> rfl
  case enforcements => rw [said]; cases engine.resolve context <;> cases decision.allowed <;> rfl

/-- Whatever the store answers, the books of a request agree with the decision about it. -/
theorem acquire_books (engine : Engine σ C) (context : C) (limiter : Limiter) (permits : UInt64) :
    Books limiter (engine.resolve context) (engine.answer context limiter permits)
      (engine.acquire context limiter permits) := by
  cases said : (engine.answer context limiter permits).verdict with
  | error error => exact books_of_error said
  | ok allowed => exact books_of_ok said

end
end Engine
end Admission
