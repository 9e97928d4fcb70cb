import Mathlib.Tactic.SplitIfs
import Admission.Limiter.Basic
import Admission.Proofs.Timestamp

namespace Admission.Limiter.Draft

variable {draft : Draft} {limiter : Limiter}

def settings (draft : Draft) : Except LimiterError (UInt64 × Binary64) :=
  match draft.algorithm with
  | .tokenBucket => draft.bucketSettings
  | .slidingWindow => draft.windowSettings

def toLimiter (draft : Draft) (capacity : UInt64) (refillRate : Binary64) : Limiter :=
  { name := draft.name, algorithm := draft.algorithm, requests := draft.requests,
    window := draft.window, failStrategy := draft.failStrategy, capacity, refillRate,
    throttle? := draft.throttle? }

/-- A limiter has the settings of its draft, and its capacity and rate are those of its algorithm. -/
theorem build_eq_ok_iff : draft.build = .ok limiter ↔
    ¬ Text.isBlank draft.name ∧ draft.requests ≠ 0 ∧ ¬ draft.window ≤ 0 ∧
      ∃ capacity rate, draft.settings = .ok (capacity, rate) ∧ draft.toLimiter capacity rate = limiter := by
  have unfolded : draft.build =
      if Text.isBlank draft.name then .error .emptyName
      else if draft.requests = 0 then .error .zeroRequests
      else if draft.window ≤ 0 then .error .zeroWindow
      else draft.settings.map fun (capacity, rate) => draft.toLimiter capacity rate := rfl
  rw [unfolded]
  split_ifs with blank unlimited empty
  · simp [blank]
  · simp [unlimited]
  · simp [empty]
  · cases draft.settings with
    | error fault => simp [Except.map]
    | ok pair =>
      obtain ⟨capacity, rate⟩ := pair
      simp [blank, unlimited, empty, Except.map, and_assoc]

/-- A token bucket holds a token, and tokens come in. -/
theorem build_tokenBucket (built : draft.build = .ok limiter) (bucket : limiter.algorithm = .tokenBucket) :
    0 < limiter.capacity.toNat ∧ limiter.refillRate.isFinite ∧ 0 < limiter.refillRate := by
  obtain ⟨-, -, -, capacity, rate, settings, rfl⟩ := build_eq_ok_iff.mp built
  have algorithm : draft.algorithm = .tokenBucket := bucket
  simp only [Draft.settings, algorithm, bucketSettings] at settings
  split_ifs at settings with unlimited good
  cases settings
  refine ⟨Nat.pos_of_ne_zero fun zero => unlimited ?_, good⟩
  exact UInt64.toNat_inj.mp zero

/-- A sliding window has its requests for a capacity, and lasts for a second. -/
theorem build_slidingWindow (built : draft.build = .ok limiter) (window : limiter.algorithm = .slidingWindow) :
    limiter.requests = limiter.capacity ∧ .ofSeconds 1 ≤ limiter.window := by
  obtain ⟨-, -, -, capacity, rate, settings, rfl⟩ := build_eq_ok_iff.mp built
  have algorithm : draft.algorithm = .slidingWindow := window
  simp only [Draft.settings, algorithm, windowSettings] at settings
  split_ifs at settings with short
  cases settings
  exact ⟨rfl, Nat.not_lt.mp short⟩

end Admission.Limiter.Draft

namespace Admission.Limiter

theorem toNat_ttl (limiter : Limiter) : limiter.ttl.toMillis.toNat =
    min (min (2 * limiter.window.nanos) (durationEnd - 1) / 1000000) (UInt64.size - 1) := by
  rw [Duration.toNat_toMillis, ttl, Duration.nanos_doubled]

/-- A token bucket made of requests and a window lets in the requests of a window at once and then
refills at their rate. -/
theorem tokenBucket_spec {name : String} {requests : UInt64} {window : Duration} {limiter : Limiter}
    (built : tokenBucket name requests window = .ok limiter) : limiter.algorithm = .tokenBucket ∧
      limiter.window = window ∧ limiter.capacity = requests ∧
      limiter.refillRate = steadyRate requests window := by
  obtain ⟨-, -, -, capacity, rate, settings, rfl⟩ := Draft.build_eq_ok_iff.mp built
  simp only [Draft.settings, Draft.bucketSettings, Option.getD_none] at settings
  split_ifs at settings with unlimited good
  cases settings
  exact ⟨rfl, rfl, rfl, rfl⟩

/-- A limiter that grants one permit a second. -/
def single (name : String) : Limiter :=
  { name, algorithm := .tokenBucket, requests := 1, window := .ofSeconds 1, failStrategy := .failOpen,
    capacity := 1, refillRate := 1, throttle? := none }

theorem single_built {name : String} (named : ¬ Text.isBlank name) :
    ∃ draft : Draft, draft.build = .ok (single name) := by
  have requests : (1 : UInt64) ≠ 0 := by decide
  have window : ¬ Duration.ofSeconds 1 ≤ 0 := by decide
  have rate : (1 : Binary64).isFinite ∧ (0 : Binary64) < 1 := by decide +kernel
  refine ⟨{ name, algorithm := .tokenBucket, requests := 1, window := .ofSeconds 1, refillRate? := some 1 },
    Draft.build_eq_ok_iff.mpr ⟨named, requests, window, 1, 1, ?_, rfl⟩⟩
  simp only [Draft.settings, Draft.bucketSettings, Option.getD_none, Option.getD_some]
  rw [if_neg requests, if_pos rate]

end Admission.Limiter
