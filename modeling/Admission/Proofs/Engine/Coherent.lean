import Admission.Proofs.Engine.Books
import Admission.Proofs.Meter.Upkeep

namespace Admission

open Binary64

/-- A usage that a decision may show at a reading. -/
structure Usage.Sound (limiter : Limiter) (now : Timestamp) (usage : Usage) : Prop where
  remaining_le : usage.remaining ≤ limiter.capacity
  now_le : now ≤ usage.resetAt

/-- The greatest delay of a limiter in whole milliseconds. -/
def Limiter.maxDelayMillis (limiter : Limiter) : Nat :=
  limiter.throttle?.elim 0 fun throttle => throttle.maxDelay.nanos / 1000000

/-- A decision whose parts agree with each other and with the limiter. -/
structure Decision.Coherent (limiter : Limiter) (decision : Decision) : Prop where
  limit_eq : decision.limit = limiter.capacity
  remaining_le : decision.remaining ≤ decision.limit
  denied : decision.allowed = false →
    decision.remaining = 0 ∧ decision.delayMillis = 0 ∧ decision.reason?.isSome
  delay_le : decision.delayMillis.toNat ≤ limiter.maxDelayMillis

namespace Bucket

variable {limiter : Limiter}

theorem usage_sound (fills : Fills limiter) (small : limiter.capacity.toNat ≤ 2 * binade) (now : Timestamp)
    (bucket : Bucket) : (usage limiter now bucket).Sound limiter now where
  remaining_le := by
    rw [UInt64.le_iff_toNat_le, toNat_remaining_of_le fills small]
    exact floor_available_le fills small bucket now
  now_le := le_resetAt limiter now bucket

end Bucket

namespace Window

variable {limiter : Limiter}

theorem le_resetAt (limiter : Limiter) (now : Timestamp) (window : Window) :
    now ≤ (usage limiter now window).resetAt := by
  have young := since_rotate_start_lt (lengthOf_pos limiter) window now
  have word := now.toNat_lt
  show now ≤ (window.rotate (lengthOf limiter) now).start.plus (lengthOf limiter)
  rw [Timestamp.since] at young
  rw [UInt64.le_iff_toNat_le, Timestamp.toNat_plus, UInt64.size]
  omega

theorem usage_sound (same : limiter.requests = limiter.capacity) (small : limiter.requests.toNat ≤ 2 * binade)
    (now : Timestamp) (window : Window) : (usage limiter now window).Sound limiter now where
  remaining_le := by
    rw [← same, UInt64.le_iff_toNat_le, toNat_remaining small]
    exact Nat.floor_le_of_le (left_spec small now _).2
  now_le := le_resetAt limiter now window

end Window

section Usage

variable {draft : Limiter.Draft} {limiter : Limiter}

theorem Meter.usage?_sound (built : draft.build = .ok limiter) (small : limiter.capacity.toNat ≤ 2 ^ 53)
    (now : Timestamp) (meter : Meter) : ∀ usage ∈ meter.usage? limiter now, usage.Sound limiter now := by
  intro usage shown
  cases algorithm : limiter.algorithm with
  | tokenBucket =>
    simp only [Meter.usage?, algorithm, Option.mem_def, Option.map_eq_some_iff] at shown
    obtain ⟨bucket, -, rfl⟩ := shown
    exact Bucket.usage_sound (Bucket.fills_of_build built algorithm) small now bucket
  | slidingWindow =>
    simp only [Meter.usage?, algorithm, Option.mem_def, Option.map_eq_some_iff] at shown
    obtain ⟨window, -, rfl⟩ := shown
    obtain ⟨same, -⟩ := Limiter.Draft.build_slidingWindow built algorithm
    exact Window.usage_sound same (same ▸ small) now window

/-- Whatever is read, a usage is only shown if it is sound. -/
theorem Engine.usageRead_sound (built : draft.build = .ok limiter) (small : limiter.capacity.toNat ≤ 2 ^ 53)
    (now : Timestamp) (read : Except StoreError (Option Meter)) :
    ∀ usage ∈ usageRead limiter now read, usage.Sound limiter now := by
  match read with
  | .ok (some meter) => exact Meter.usage?_sound built small now meter
  | .ok none => exact nofun
  | .error _ => exact nofun

end Usage

namespace Decision

variable {limiter : Limiter}

private theorem coherent_allow {remaining : UInt64} (le : remaining ≤ limiter.capacity)
    (resetTime : Timestamp) :
    (allow limiter remaining resetTime).Coherent limiter where
  limit_eq := rfl
  remaining_le := le
  denied := nofun
  delay_le := Nat.zero_le _

private theorem coherent_deny (limiter : Limiter) (resetTime : Timestamp) (reason : String) :
    (deny limiter resetTime reason).Coherent limiter where
  limit_eq := rfl
  remaining_le := UInt64.le_iff_toNat_le.mpr (Nat.zero_le _)
  denied _ := ⟨rfl, rfl, rfl⟩
  delay_le := Nat.zero_le _

theorem Coherent.withReason {decision : Decision} (coherent : decision.Coherent limiter)
    (allowed : decision.allowed = true) (reason : String) : (decision.withReason reason).Coherent limiter where
  limit_eq := coherent.limit_eq
  remaining_le := coherent.remaining_le
  denied refused := absurd (allowed.symm.trans refused) (by decide)
  delay_le := coherent.delay_le

theorem Coherent.withDelay {decision : Decision} {throttle : Throttle} (coherent : decision.Coherent limiter)
    (allowed : decision.allowed = true) (throttled : limiter.throttle? = some throttle) (usage limit : UInt64) :
    (decision.withDelay (throttle.delayFor usage limit)).Coherent limiter := by
  rw [Decision.withDelay, if_pos allowed]
  refine ⟨coherent.limit_eq, coherent.remaining_le, ?_, ?_⟩
  · exact fun refused => absurd (allowed.symm.trans refused) (by decide)
  · have most : (throttle.delayFor usage limit).nanos ≤ throttle.maxDelay.nanos := throttleDelay_le ..
    rw [Limiter.maxDelayMillis, throttled]
    show (throttle.delayFor usage limit).toMillis.toNat ≤ throttle.maxDelay.nanos / 1000000
    rw [Duration.toNat_toMillis]
    exact (Nat.min_le_left ..).trans (Nat.div_le_div_right most)

private theorem withDelay_resetTime (decision : Decision) (delay : Duration) :
    (decision.withDelay delay).resetTime = decision.resetTime := by
  unfold withDelay
  split <;> rfl

end Decision

/-- A store that tells the same whatever is asked of it. -/
structure ScriptedStore where
  now : Timestamp
  allowed : Bool
  meter? : Option Meter

instance : Store ScriptedStore where
  currentTime store := { result := .ok store.now, store }
  acquire store _ _ _ _ := { result := .ok store.allowed, store }
  reset store _ := { result := .ok (), store }
  state store _ := { result := .ok store.meter?, store }
  isHealthy _ := true
  diagnostics _ := []

namespace Engine

variable {limiter : Limiter} {σ C : Type}

/-- A verdict of the store makes a coherent decision, given a sound usage or none. -/
theorem verdict_coherent {usage? : Option Usage} {now : Timestamp}
    (sound : ∀ usage ∈ usage?, usage.Sound limiter now) (permits : UInt64) (allowed : Bool) :
    (verdict limiter permits now allowed usage?).Coherent limiter ∧
      now ≤ (verdict limiter permits now allowed usage?).resetTime := by
  cases allowed with
  | false =>
    refine ⟨Decision.coherent_deny .., ?_⟩
    cases usage? with
    | none => exact UInt64.le_refl now
    | some usage => exact (sound usage rfl).now_le
  | true =>
    cases usage? with
    | none =>
      refine ⟨Decision.coherent_allow ?_ now, UInt64.le_refl now⟩
      have word := limiter.capacity.toNat_lt
      rw [UInt64.le_iff_toNat_le, Timestamp.toNat_ofNatClamp]
      omega
    | some usage =>
      obtain ⟨le, later⟩ := sound usage rfl
      have told := Decision.coherent_allow le usage.resetAt
      cases throttled : limiter.throttle? with
      | none =>
        simp only [verdict, throttled, if_true]
        exact ⟨told, later⟩
      | some throttle =>
        simp only [verdict, throttled, if_true]
        refine ⟨told.withDelay rfl throttled _ _, ?_⟩
        rw [Decision.withDelay_resetTime]
        exact later

/-- The decision of the fail strategy is coherent, and asks for no delay. -/
theorem failDecision_coherent (limiter : Limiter) :
    (failDecision limiter).Coherent limiter ∧ (failDecision limiter).delayMillis = 0 := by
  unfold failDecision
  split
  · exact ⟨(Decision.coherent_allow (UInt64.le_refl _) 0).withReason rfl _, rfl⟩
  · exact ⟨Decision.coherent_deny .., rfl⟩

section

variable [Store σ] {engine : Engine σ C} {context : C} {permits : UInt64}

private theorem decision_of_error {error : StoreError}
    (said : (engine.answer context limiter permits).verdict = .error error) :
    (engine.acquire context limiter permits).decision = failDecision limiter := by
  unfold acquire
  simp only [meterName_eq, check_of_error said]

private theorem decision_of_ok {allowed : Bool}
    (said : (engine.answer context limiter permits).verdict = .ok allowed) :
    ∃ now read, (Store.currentTime engine.store).result = .ok now ∧
      (engine.acquire context limiter permits).decision =
        verdict limiter permits now allowed (usageRead limiter now read) := by
  obtain ⟨now, read, time, -, checked⟩ := check_of_read said
  refine ⟨now, read, time, ?_⟩
  unfold acquire
  simp only [meterName_eq, checked]

end

/-- Whatever a store answers, the decision is coherent. Without a verdict nothing is delayed, and with one the
decision is not reset before the time that the store told. -/
theorem acquire_coherent [Store σ] {draft : Limiter.Draft} (built : draft.build = .ok limiter)
    (small : limiter.capacity.toNat ≤ 2 ^ 53) (engine : Engine σ C) (context : C) (permits : UInt64) :
    let decision := (engine.acquire context limiter permits).decision
    decision.Coherent limiter ∧
      match (engine.answer context limiter permits).verdict with
      | .error _ => decision.delayMillis = 0
      | .ok _ => ∃ now, (Store.currentTime engine.store).result = .ok now ∧ now ≤ decision.resetTime := by
  intro decision
  cases said : (engine.answer context limiter permits).verdict with
  | error error =>
    obtain ⟨coherent, prompt⟩ := failDecision_coherent limiter
    have same : decision = failDecision limiter := decision_of_error said
    rw [same]
    exact ⟨coherent, prompt⟩
  | ok allowed =>
    obtain ⟨now, read, time, same⟩ := decision_of_ok said
    obtain ⟨coherent, later⟩ := verdict_coherent (usageRead_sound built small now read) permits allowed
    rw [show decision = _ from same]
    exact ⟨coherent, now, time, later⟩

/-- A store that allows a request and then shows a bucket without a number in it, refilled in the future. -/
theorem acquire_coherent_scripted :
    let throttle : Throttle := ⟨80, .ofSeconds 2, .linear, by decide, by decide, by decide⟩
    let limiter : Limiter :=
      { name := "api", algorithm := .tokenBucket, requests := 2, window := .ofSeconds 1,
        failStrategy := .failOpen, capacity := 2, refillRate := 2, throttle? := some throttle }
    let store : ScriptedStore := ⟨1000, true, some (.bucket ⟨.nan, 5000⟩)⟩
    let engine : Engine ScriptedStore Unit := { store, resolver := fun _ => .ok "key" }
    let decision := (engine.acquire () limiter 1).decision
    limiter.capacity.toNat ≤ 2 ^ 53 ∧ decision.limit = 2 ∧ decision.remaining ≤ decision.limit ∧
      decision.delayMillis.toNat ≤ 2000 ∧ 1000 ≤ decision.resetTime := by
  intro throttle limiter store engine decision
  let draft : Limiter.Draft :=
    { name := "api", algorithm := .tokenBucket, requests := 2, window := .ofSeconds 1, throttle? := some throttle }
  have built : draft.build = .ok limiter := by decide +kernel
  have small : limiter.capacity.toNat ≤ 2 ^ 53 := by decide
  obtain ⟨coherent, now, time, later⟩ := acquire_coherent built small engine () 1
  have told : now = 1000 := (Except.ok.inj time).symm
  subst told
  have greatest : limiter.maxDelayMillis = 2000 := by decide
  exact ⟨small, coherent.limit_eq, coherent.remaining_le, coherent.delay_le.trans greatest.le, later⟩

end Engine
end Admission
