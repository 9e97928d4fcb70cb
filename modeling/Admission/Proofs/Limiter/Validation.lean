import Mathlib.Tactic.Linarith
import Admission.Limiter.Manifest
import Admission.Proofs.Duration
import Admission.Proofs.Limiter.Build

/-! Which settings make a limiter. Main statement: exactly the acceptable drafts do, and the acceptable manifests
through the draft with the same settings; and every limiter, however it was come by, is sound. -/
namespace Admission

open Binary64

namespace Limiter

/-- The rate that a window lets its requests in at is always a rate: it neither grows out of range for the
shortest window nor becomes zero for the longest one. -/
theorem steadyRate_spec {requests : UInt64} {window : Duration} (nonzero : requests ≠ 0)
    (lasting : 0 < window) :
    (steadyRate requests window).isFinite ∧ 0 < steadyRate requests window := by
  have word := requests.toNat_lt.le
  have positive : 0 < requests.toNat := Nat.pos_of_ne_zero fun zero => nonzero (UInt64.toNat_inj.mp zero)
  obtain ⟨secondsFinite, -⟩ := window.toBinary64_spec
  have short := Duration.toBinary64_pos lasting
  have long := window.toBinary64_le
  have one := one_le_toRat_ofNat positive word
  have counted := (abs_le.mp (ofNat_error word)).2
  have size : (requests.toNat : ℚ) ≤ 2 ^ 64 := by exact_mod_cast word
  have seconds : (0 : ℚ) < window.toBinary64.toRat := by linarith
  have rounds : Rounds _ (steadyRate requests window) :=
    rounds_div (isFinite_ofNat word) secondsFinite seconds.ne'
  have quotient : 0 ≤ (Binary64.ofNat requests.toNat).toRat / window.toBinary64.toRat :=
    div_nonneg (by linarith) seconds.le
  have top : (Binary64.ofNat (2 ^ 65 * 2000000000)).isFinite := by decide +kernel
  have finite := rounds.isFinite_of_le_natCast quotient top (by
    rw [div_le_iff₀ seconds]
    push_cast
    linarith)
  have least : 1 / 2 ^ 65 ≤ (Binary64.ofNat requests.toNat).toRat / window.toBinary64.toRat := by
    rw [div_le_div_iff₀ (by norm_num) seconds]
    linarith
  have error := (abs_le.mp (rounds.error_le finite)).1
  have tiny := least_tiny
  rw [abs_of_nonneg quotient] at error
  rw [lt_iff_toRat isFinite_zero finite, toRat_zero]
  exact ⟨finite, by linarith⟩

namespace Draft

variable {draft : Draft}

/-- The settings that an algorithm needs or has no use for. What is left out is no fault. -/
inductive Suits (draft : Draft) : Prop
  | bucket (algorithm : draft.algorithm = .tokenBucket) (capacity : ∀ capacity ∈ draft.capacity?, 1 ≤ capacity)
      (rate : ∀ rate ∈ draft.refillRate?, rate.isFinite ∧ 0 < rate)
  | window (algorithm : draft.algorithm = .slidingWindow) (long : .ofSeconds 1 ≤ draft.window)
      (capacity : draft.capacity? = none) (rate : draft.refillRate? = none)

/-- A draft that makes a limiter. -/
structure Acceptable (draft : Draft) : Prop where
  named : ¬ Text.isBlank draft.name
  requests : 0 < draft.requests
  window : 0 < draft.window
  suits : draft.Suits

private theorem bucketSettings_isOk_iff (nonzero : draft.requests ≠ 0) (lasting : 0 < draft.window) :
    (∃ pair, draft.bucketSettings = .ok pair) ↔
      (∀ capacity ∈ draft.capacity?, 1 ≤ capacity) ∧ ∀ rate ∈ draft.refillRate?, rate.isFinite ∧ 0 < rate := by
  have capacity : draft.capacity?.getD draft.requests ≠ 0 ↔ ∀ capacity ∈ draft.capacity?, 1 ≤ capacity := by
    cases draft.capacity? with
    | none => simpa using nonzero
    | some given =>
      simp only [Option.getD_some, Option.mem_def, Option.some.injEq, forall_eq']
      rw [UInt64.le_iff_toNat_le, ne_eq, ← UInt64.toNat_inj]
      exact Nat.one_le_iff_ne_zero.symm
  have rate : (draft.refillRate?.getD (steadyRate draft.requests draft.window)).isFinite ∧
      0 < draft.refillRate?.getD (steadyRate draft.requests draft.window) ↔
        ∀ rate ∈ draft.refillRate?, rate.isFinite ∧ 0 < rate := by
    cases draft.refillRate? with
    | none => simpa using steadyRate_spec nonzero lasting
    | some given => simp
  rw [← capacity, ← rate]
  unfold bucketSettings
  dsimp only
  split_ifs with zero good
  · simp [zero]
  · simp [zero, good]
  · simp [zero, good]

private theorem windowSettings_isOk_iff : (∃ pair, draft.windowSettings = .ok pair) ↔
    .ofSeconds 1 ≤ draft.window ∧ draft.capacity? = none ∧ draft.refillRate? = none := by
  unfold windowSettings
  split_ifs with short capacity rate
  · simp [Duration.le_iff, Nat.not_le.mpr short]
  · simp [Option.isSome_iff_ne_none.mp capacity]
  · simp [Option.isSome_iff_ne_none.mp rate]
  · have long : .ofSeconds 1 ≤ draft.window := Nat.not_lt.mp short
    simp_all

private theorem settings_isOk_iff (nonzero : draft.requests ≠ 0) (lasting : 0 < draft.window) :
    (∃ pair, draft.settings = .ok pair) ↔ draft.Suits := by
  unfold settings
  cases algorithm : draft.algorithm with
  | tokenBucket =>
    rw [bucketSettings_isOk_iff nonzero lasting]
    constructor
    · rintro ⟨capacity, rate⟩
      exact .bucket algorithm capacity rate
    · intro suits
      cases suits with
      | bucket _ capacity rate => exact ⟨capacity, rate⟩
      | window other => exact absurd (algorithm.symm.trans other) (by decide)
  | slidingWindow =>
    rw [windowSettings_isOk_iff]
    constructor
    · rintro ⟨long, capacity, rate⟩
      exact .window algorithm long capacity rate
    · intro suits
      cases suits with
      | bucket other => exact absurd (algorithm.symm.trans other) (by decide)
      | window _ long capacity rate => exact ⟨long, capacity, rate⟩

theorem build_isOk_iff : (∃ limiter, draft.build = .ok limiter) ↔ draft.Acceptable := by
  simp only [build_eq_ok_iff]
  constructor
  · rintro ⟨limiter, named, nonzero, lasting, capacity, rate, settings, -⟩
    have window : 0 < draft.window := Nat.not_le.mp lasting
    exact ⟨named, UInt64.pos_iff_ne_zero.mpr nonzero, window,
      (settings_isOk_iff nonzero window).mp ⟨_, settings⟩⟩
  · rintro ⟨named, positive, window, suits⟩
    have nonzero := UInt64.pos_iff_ne_zero.mp positive
    obtain ⟨⟨capacity, rate⟩, settings⟩ := (settings_isOk_iff nonzero window).mpr suits
    exact ⟨_, named, nonzero, Nat.not_le.mpr window, capacity, rate, settings, rfl⟩

theorem build_spec {limiter : Limiter} (built : draft.build = .ok limiter) :
    (1 ≤ limiter.capacity ∧ limiter.refillRate.isFinite ∧ 0 < limiter.refillRate) ∧
      (limiter.algorithm = .slidingWindow → limiter.capacity = limiter.requests) := by
  cases algorithm : limiter.algorithm with
  | tokenBucket =>
    obtain ⟨capacity, finite, positive⟩ := build_tokenBucket built algorithm
    exact ⟨⟨UInt64.le_iff_toNat_le.mpr capacity, finite, positive⟩, nofun⟩
  | slidingWindow =>
    obtain ⟨-, nonzero, lasting, capacity, rate, settings, rfl⟩ := build_eq_ok_iff.mp built
    have window : draft.algorithm = .slidingWindow := algorithm
    simp only [Draft.settings, window, windowSettings] at settings
    split_ifs at settings
    cases settings
    have positive := UInt64.pos_iff_ne_zero.mpr nonzero
    exact ⟨⟨UInt64.le_iff_toNat_le.mpr (UInt64.lt_iff_toNat_lt.mp positive),
      steadyRate_spec nonzero (Nat.not_le.mp lasting)⟩, fun _ => rfl⟩

end Draft

/-- The limiters there are: those made of a draft or read from a manifest, and those made of another one by
changing its fail strategy. -/
inductive Obtained : Limiter → Prop
  | built {draft : Draft} {limiter : Limiter} (built : draft.build = .ok limiter) : Obtained limiter
  | read {manifest : LimiterManifest} {limiter : Limiter} (built : manifest.build = .ok limiter) : Obtained limiter
  | changed {limiter : Limiter} (obtained : Obtained limiter) (failStrategy : FailStrategy) :
      Obtained (limiter.withFailStrategy failStrategy)

/-- What every part of the library counts on. -/
structure Sound (limiter : Limiter) : Prop where
  capacity : 1 ≤ limiter.capacity
  rate_finite : limiter.refillRate.isFinite
  rate_pos : 0 < limiter.refillRate
  ttl : limiter.ttl.nanos = min (2 * limiter.window.nanos) Duration.longest.nanos
  window_le_ttl : limiter.window ≤ limiter.ttl
  requests : limiter.algorithm = .slidingWindow → limiter.capacity = limiter.requests

theorem Draft.sound_of_build {draft : Draft} {limiter : Limiter} (built : draft.build = .ok limiter) :
    Sound limiter := by
  obtain ⟨⟨capacity, finite, positive⟩, requests⟩ := build_spec built
  exact ⟨capacity, finite, positive, rfl, Duration.le_doubled _, requests⟩

end Limiter

/-- A throttle with the settings of its section of a manifest. -/
structure ThrottleManifest.Describes (manifest : ThrottleManifest) (throttle : Throttle) : Prop where
  softPercent : throttle.softPercent = manifest.softPercent.toNat
  maxDelay : throttle.maxDelay = .ofMillis manifest.maxDelayMillis
  curve : throttle.curve = manifest.curve

structure ThrottleManifest.Acceptable (manifest : ThrottleManifest) : Prop where
  percent_pos : 1 ≤ manifest.softPercent
  percent_le : manifest.softPercent ≤ 99
  delay : manifest.maxDelayMillis ≠ 0

namespace ThrottleManifest

variable {manifest : ThrottleManifest} {throttle : Throttle}

theorem build_eq_ok_iff : manifest.build = .ok throttle ↔ manifest.Describes throttle := by
  unfold build Throttle.ofSettings
  constructor
  · intro built
    split_ifs at built
    cases built
    exact ⟨rfl, rfl, rfl⟩
  · rintro ⟨percent, delay, curve⟩
    obtain ⟨softPercent, maxDelay, shape, positive, below, lasting⟩ := throttle
    dsimp only at percent delay curve
    subst percent delay curve
    rw [dif_pos ⟨positive, below⟩, dif_pos lasting]

theorem acceptable_iff : manifest.Acceptable ↔ ∃ throttle, manifest.Describes throttle := by
  have one : (1 : UInt8).toNat = 1 := rfl
  have most : (99 : UInt8).toNat = 99 := rfl
  have lasting : 0 < Duration.ofMillis manifest.maxDelayMillis ↔ manifest.maxDelayMillis ≠ 0 := by
    rw [Duration.lt_iff, ← UInt64.pos_iff_ne_zero, UInt64.lt_iff_toNat_lt]
    exact Nat.mul_pos_iff_of_pos_left (by decide)
  simp only [← build_eq_ok_iff, build, Throttle.ofSettings_isOk_iff, lasting]
  constructor
  · rintro ⟨positive, le, delay⟩
    rw [UInt8.le_iff_toNat_le] at positive le
    exact ⟨⟨by omega, by omega⟩, delay⟩
  · rintro ⟨⟨positive, below⟩, delay⟩
    exact ⟨UInt8.le_iff_toNat_le.mpr (by omega), UInt8.le_iff_toNat_le.mpr (by omega), delay⟩

end ThrottleManifest

namespace LimiterManifest

/-- The throttle that the section of a manifest describes, or none if there is no section. -/
inductive Throttles : Option ThrottleManifest → Option Throttle → Prop
  | none : Throttles none none
  | some {manifest : ThrottleManifest} {throttle : Throttle} (describes : manifest.Describes throttle) :
      Throttles (some manifest) (some throttle)

/-- A draft with the settings of a manifest. -/
structure Describes (manifest : LimiterManifest) (draft : Limiter.Draft) : Prop where
  name : draft.name = manifest.name
  algorithm : draft.algorithm = manifest.algorithm
  requests : draft.requests = manifest.requests
  window : draft.window = .ofMillis manifest.windowMillis
  failStrategy : draft.failStrategy = manifest.failStrategy
  capacity : draft.capacity? = manifest.capacity?
  refillRate : draft.refillRate? = manifest.refillRate?
  throttle : Throttles manifest.throttle? draft.throttle?

variable {manifest : LimiterManifest} {draft : Limiter.Draft} {limiter : Limiter}

private theorem mapM_build_eq_ok_iff {written? : Option ThrottleManifest} {throttle? : Option Throttle} :
    written?.mapM ThrottleManifest.build = .ok throttle? ↔ Throttles written? throttle? := by
  cases written? with
  | none =>
    constructor
    · rintro ⟨⟩
      exact .none
    · rintro ⟨⟩
      rfl
  | some written =>
    have mapped : (some written).mapM ThrottleManifest.build = some <$> written.build := rfl
    rw [mapped]
    constructor
    · intro built
      cases made : written.build with
      | error error => rw [made] at built; cases built
      | ok throttle =>
        rw [made] at built
        cases built
        exact .some (ThrottleManifest.build_eq_ok_iff.mp made)
    · rintro ⟨⟩
      rename_i throttle describes
      rw [ThrottleManifest.build_eq_ok_iff.mpr describes]
      rfl

private theorem describes_iff : manifest.Describes draft ↔
    ∃ throttle?, Throttles manifest.throttle? throttle? ∧ manifest.draft throttle? = draft := by
  constructor
  · rintro ⟨name, algorithm, requests, window, failStrategy, capacity, refillRate, throttle⟩
    refine ⟨draft.throttle?, throttle, ?_⟩
    rw [LimiterManifest.draft, ← name, ← algorithm, ← requests, ← window, ← failStrategy, ← capacity, ← refillRate]
  · rintro ⟨throttle?, throttle, rfl⟩
    exact ⟨rfl, rfl, rfl, rfl, rfl, rfl, rfl, throttle⟩

/-- A manifest describes a draft if its section, should there be one, makes a throttle. -/
theorem exists_describes_iff : (∃ draft, manifest.Describes draft) ↔
    ∀ written ∈ manifest.throttle?, written.Acceptable := by
  simp only [describes_iff]
  cases manifest.throttle? with
  | none =>
    refine iff_of_true ⟨_, Option.none, .none, rfl⟩ ?_
    exact nofun
  | some written =>
    simp only [Option.mem_def, Option.some.injEq, forall_eq', ThrottleManifest.acceptable_iff]
    constructor
    · rintro ⟨draft, throttle?, ⟨⟩, -⟩
      rename_i throttle describes
      exact ⟨throttle, describes⟩
    · rintro ⟨throttle, describes⟩
      exact ⟨_, Option.some throttle, .some describes, rfl⟩

/-- A manifest makes the limiter of the draft with the same settings. -/
theorem build_eq_ok_iff : manifest.build = .ok limiter ↔
    ∃ draft, manifest.Describes draft ∧ draft.build = .ok limiter := by
  simp only [describes_iff, ← mapM_build_eq_ok_iff]
  unfold build
  cases read : manifest.throttle?.mapM ThrottleManifest.build with
  | error error =>
    simp
  | ok throttle? =>
    simp

end LimiterManifest

namespace Limiter

theorem Obtained.sound {limiter : Limiter} (obtained : Obtained limiter) : Sound limiter := by
  induction obtained with
  | built built => exact Draft.sound_of_build built
  | read built =>
    obtain ⟨draft, -, made⟩ := LimiterManifest.build_eq_ok_iff.mp built
    exact Draft.sound_of_build made
  | changed obtained failStrategy sound =>
    obtain ⟨capacity, finite, positive, ttl, within, requests⟩ := sound
    exact ⟨capacity, finite, positive, ttl, within, requests⟩

/-- Exactly the acceptable drafts make a limiter, whether or not a rate is left out. A manifest makes one exactly
if its section describes a throttle and the draft with the same settings makes that very limiter. However
limiters are come by, they are sound. -/
theorem validation_sound_complete :
    (∀ draft : Draft, (∃ limiter, draft.build = .ok limiter) ↔ draft.Acceptable) ∧
      (∀ manifest : LimiterManifest,
        ((∃ draft, manifest.Describes draft) ↔ ∀ written ∈ manifest.throttle?, written.Acceptable) ∧
        ∀ limiter, manifest.build = .ok limiter ↔ ∃ draft, manifest.Describes draft ∧ draft.build = .ok limiter) ∧
      ∀ limiter, Obtained limiter → Sound limiter :=
  ⟨fun _ => Draft.build_isOk_iff,
    fun _ => ⟨LimiterManifest.exists_describes_iff, fun _ => LimiterManifest.build_eq_ok_iff⟩,
    fun _ obtained => obtained.sound⟩

/-- One request in the longest window, whose time to live is cut off, with another fail strategy. -/
theorem validation_sound_complete_longest :
    let draft : Draft := { name := "huge", algorithm := .tokenBucket, requests := 1, window := .longest }
    ∃ limiter, draft.build = .ok limiter ∧ Obtained (limiter.withFailStrategy .failClosed) ∧
      Sound (limiter.withFailStrategy .failClosed) := by
  intro draft
  obtain ⟨drafts, -, sound⟩ := validation_sound_complete
  have acceptable : draft.Acceptable := ⟨by decide +kernel, by decide, by decide, .bucket rfl nofun nofun⟩
  obtain ⟨limiter, built⟩ := (drafts draft).mpr acceptable
  have obtained : Obtained (limiter.withFailStrategy .failClosed) := .changed (.built built) .failClosed
  exact ⟨limiter, built, obtained, sound _ obtained⟩

end Limiter
end Admission
