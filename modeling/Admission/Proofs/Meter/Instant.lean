import Admission.Meter.Basic
import Admission.Proofs.Binary64.Whole
import Admission.Proofs.Meter.Conservation
import Admission.Proofs.Meter.Full
import Admission.Proofs.Meter.WindowBound

namespace Admission

open Binary64

namespace Bucket

/-- A bucket that was refilled at this very reading, with some of its permits in use. -/
structure Used (limiter : Limiter) (now : Timestamp) (n : Nat) (bucket : Bucket) : Prop where
  refilled : bucket.lastRefill = now
  le : n ≤ limiter.capacity.toNat
  tokens : Whole bucket.tokens (limiter.capacity.toNat - n)

variable {limiter : Limiter} {now : Timestamp} {n : Nat} {bucket : Bucket}

private theorem used_full (countable : Countable limiter) (now : Timestamp) :
    Used limiter now 0 (full limiter now) :=
  ⟨rfl, Nat.zero_le _, whole_ofNat countable.capacity_lt.le⟩

theorem Used.available (countable : Countable limiter) (used : Used limiter now n bucket) :
    Whole (bucket.available limiter now) (limiter.capacity.toNat - n) := by
  have range : InRange (capacityOf limiter) bucket.tokens := by
    refine ⟨used.tokens.finite, ?_, ?_⟩
    · rw [used.tokens.toRat_eq]
      exact Nat.cast_nonneg _
    · rw [used.tokens.toRat_eq, countable.exactly.2]
      exact Nat.cast_le.mpr (Nat.sub_le ..)
  refine ⟨(inRange_available countable.toFills bucket now).finite, ?_⟩
  rw [← used.tokens.toRat_eq]
  exact toRat_available_of_seen countable.toFills range (used.refilled ▸ UInt64.le_refl _)

theorem charge_used (countable : Countable limiter) (used : Used limiter now n bucket) (permits : UInt64) :
    ∃ next, charge limiter permits now (some bucket) =
        ⟨next, decide (n + permits.toNat ≤ limiter.capacity.toNat)⟩ ∧
      Used limiter now (if n + permits.toNat ≤ limiter.capacity.toNat then n + permits.toNat else n) next := by
  have available := used.available countable
  have least := used.le
  have small := countable.capacity_lt
  have stamp : max bucket.lastRefill now = now := by rw [used.refilled, Timestamp.max_self]
  have covers : Binary64.ofNat permits.toNat ≤ bucket.available limiter now ↔
      n + permits.toNat ≤ limiter.capacity.toNat := by
    rw [available.ofNat_le_iff (by omega) permits.toNat_lt.le]
    omega
  by_cases fits : n + permits.toNat ≤ limiter.capacity.toNat
  · have cost : Whole (Binary64.ofNat permits.toNat) permits.toNat := whole_ofNat (by omega)
    have rest := available.sub cost (by omega) (by omega)
    rw [charge_covered (covers.mpr fits), stamp, if_pos fits, decide_eq_true fits]
    refine ⟨_, rfl, rfl, fits, ?_⟩
    rwa [Nat.sub_sub] at rest
  · rw [charge_not_covered (mt covers.mp fits), stamp, if_neg fits, decide_eq_false fits]
    exact ⟨_, rfl, rfl, least, available⟩

theorem usage_used (countable : Countable limiter) (used : Used limiter now n bucket) :
    Whole (usage limiter now bucket).used n ∧ (usage limiter now bucket).limit = limiter.capacity ∧
      (usage limiter now bucket).remaining.toNat = limiter.capacity.toNat - n := by
  have available := used.available countable
  have small := countable.capacity_lt
  have taken := (whole_ofNat small.le).sub available (Nat.sub_le ..) small.le
  rw [Nat.sub_sub_self used.le] at taken
  refine ⟨taken, rfl, ?_⟩
  exact available.floor.toNat_toUInt64 (by simp only [UInt64.size, binade] at *; omega)

end Bucket

namespace Window

/-- A window that runs, with some permits counted and nothing left of the window before. -/
structure Used (limiter : Limiter) (now : Timestamp) (n : Nat) (window : Window) : Prop where
  started : window.start ≤ now
  runs : now.toNat < window.start.toNat + lengthOf limiter
  previous : window.previous = 0
  current : window.current.toNat = n
  le : n ≤ limiter.requests.toNat

variable {limiter : Limiter} {now : Timestamp} {n : Nat} {window : Window} {permits : UInt64}

private theorem used_empty (limiter : Limiter) (now : Timestamp) :
    Used limiter now 0 (empty (lengthOf limiter) now) := by
  have around : (empty (lengthOf limiter) now).start ≤ now ∧
      now.toNat < (empty (lengthOf limiter) now).start.toNat + lengthOf limiter :=
    empty_around (lengthOf_pos limiter)
  exact ⟨around.1, around.2, rfl, rfl, Nat.zero_le _⟩

theorem Used.rotate (used : Used limiter now n window) : window.rotate (lengthOf limiter) now = window := by
  have started := UInt64.le_iff_toNat_le.mp used.started
  have runs := used.runs
  refine rotate_of_lt ?_
  rw [Timestamp.since]
  omega

theorem Used.weighted (small : limiter.requests.toNat ≤ 2 * binade) (used : Used limiter now n window) :
    Whole (window.weighted (lengthOf limiter) now) n := by
  obtain ⟨weightFinite, -, -⟩ := weight_spec (lengthOf_pos limiter) (lengthOf_le_size limiter)
    (Timestamp.since_le_size now window.start)
  have nothing : Whole (Binary64.ofNat window.previous.toNat) 0 := by
    rw [used.previous]
    exact whole_zero
  have product := rounds_mul nothing.finite weightFinite
  rw [nothing.toRat_eq, Nat.cast_zero, zero_mul, ← Nat.cast_zero] at product
  have fits := used.le.trans small
  have count : Whole (Binary64.ofNat window.current.toNat) n := by
    rw [used.current]
    exact whole_ofNat fits
  have sum := (product.whole (Nat.zero_le _)).add count (by rwa [Nat.zero_add])
  rwa [Nat.zero_add] at sum

/-- All but the last of the permits have to leave room, by the estimate as by the count. -/
theorem Used.admits_iff (small : limiter.requests.toNat ≤ 2 * binade) (used : Used limiter now n window) :
    window.weighted (lengthOf limiter) now + .ofNat (permits.toNat - 1) < .ofNat limiter.requests.toNat ↔
      n + (permits.toNat - 1) < limiter.requests.toNat := by
  constructor
  · intro admits
    have room := Window.fits small admits
    rwa [used.current] at room
  · intro room
    have others : Whole (Binary64.ofNat (permits.toNat - 1)) (permits.toNat - 1) := whole_ofNat (by omega)
    have sum := (used.weighted small).add others (by omega)
    exact (sum.lt_iff (whole_ofNat small)).mpr room

theorem charge_used (small : limiter.requests.toNat ≤ 2 * binade) (used : Used limiter now n window)
    (permits : UInt64) :
    ∃ next, charge limiter permits now (some window) =
        ⟨next, decide (n + (permits.toNat - 1) < limiter.requests.toNat)⟩ ∧
      Used limiter now (if n + (permits.toNat - 1) < limiter.requests.toNat then n + permits.toNat else n)
        next := by
  have unfolded : charge limiter permits now (some window) =
      if window.weighted (lengthOf limiter) now + .ofNat (permits.toNat - 1) < .ofNat limiter.requests.toNat then
        ⟨{ window with current := UInt64.ofNatClamp (window.current.toNat + permits.toNat) }, true⟩
      else ⟨window, false⟩ := by
    unfold charge
    simp only [used.rotate]
  by_cases room : n + (permits.toNat - 1) < limiter.requests.toNat
  · rw [unfolded, if_pos ((used.admits_iff small).mpr room), if_pos room, decide_eq_true room]
    refine ⟨_, rfl, used.started, used.runs, used.previous, ?_, by omega⟩
    have word := limiter.requests.toNat_lt
    rw [Timestamp.toNat_ofNatClamp, used.current, UInt64.size]
    omega
  · rw [unfolded, if_neg (mt (used.admits_iff small).mp room), if_neg room, decide_eq_false room]
    exact ⟨_, rfl, used⟩

private theorem charge_none_eq (limiter : Limiter) (permits : UInt64) (now : Timestamp) :
    charge limiter permits now none = charge limiter permits now (some (empty (lengthOf limiter) now)) := by
  unfold charge
  simp only [(used_empty limiter now).rotate]

theorem usage_used (small : limiter.requests.toNat ≤ 2 * binade) (used : Used limiter now n window) :
    Whole (usage limiter now window).used n ∧ (usage limiter now window).limit = limiter.requests ∧
      (usage limiter now window).remaining.toNat = limiter.requests.toNat - n := by
  have weighted := used.weighted small
  have unfolded : usage limiter now window =
      { used := window.weighted (lengthOf limiter) now
        limit := limiter.requests
        remaining := (max (Binary64.ofNat limiter.requests.toNat -
          window.weighted (lengthOf limiter) now).floor 0).toUInt64
        resetAt := window.start.plus (lengthOf limiter) } := by
    unfold usage
    simp only [used.rotate]
  rw [unfolded]
  refine ⟨weighted, rfl, ?_⟩
  have rest := (whole_ofNat small).sub weighted used.le small
  exact rest.floor.max_zero.toNat_toUInt64 (by simp only [UInt64.size, binade] at *; omega)

end Window

/-- A limiter whose meters count every permit of its capacity exactly. -/
structure Limiter.Exact (limiter : Limiter) : Prop where
  capacity_lt : limiter.capacity.toNat < 2 ^ 53
  fills : limiter.algorithm = .tokenBucket → Bucket.Fills limiter
  requests : limiter.algorithm = .slidingWindow → limiter.requests = limiter.capacity

theorem Limiter.exact_of_build {draft : Limiter.Draft} {limiter : Limiter} (built : draft.build = .ok limiter)
    (small : limiter.capacity.toNat < 2 ^ 53) : limiter.Exact :=
  ⟨small, Bucket.fills_of_build built, fun window => (Draft.build_slidingWindow built window).1⟩

namespace Meter

section Algorithm

variable {limiter : Limiter}

theorem charge_bucket (algorithm : limiter.algorithm = .tokenBucket) (permits : UInt64) (now : Timestamp)
    (state : Bucket) : charge limiter permits now (some (bucket state)) =
      (Bucket.charge limiter permits now (some state)).map bucket := by
  simp only [charge, algorithm]
  rfl

theorem charge_window (algorithm : limiter.algorithm = .slidingWindow) (permits : UInt64) (now : Timestamp)
    (state : Window) : charge limiter permits now (some (window state)) =
      (Window.charge limiter permits now (some state)).map window := by
  simp only [charge, algorithm]
  rfl

theorem usage?_bucket (algorithm : limiter.algorithm = .tokenBucket) (now : Timestamp) (state : Bucket) :
    (bucket state).usage? limiter now = some (Bucket.usage limiter now state) := by
  simp only [usage?, algorithm]
  rfl

theorem usage?_window (algorithm : limiter.algorithm = .slidingWindow) (now : Timestamp) (state : Window) :
    (window state).usage? limiter now = some (Window.usage limiter now state) := by
  simp only [usage?, algorithm]
  rfl

end Algorithm

/-- A meter of the limiter's algorithm with some permits in use. -/
inductive Used (limiter : Limiter) (now : Timestamp) (n : Nat) : Meter → Prop
  | bucket {bucket : Bucket} (algorithm : limiter.algorithm = .tokenBucket)
      (used : Bucket.Used limiter now n bucket) : Used limiter now n (.bucket bucket)
  | window {window : Window} (algorithm : limiter.algorithm = .slidingWindow)
      (used : Window.Used limiter now n window) : Used limiter now n (.window window)

/-- What is kept of a key with some permits in use. Nothing is kept of a fresh key. -/
inductive Standing (limiter : Limiter) (now : Timestamp) : Nat → Option Meter → Prop
  | fresh : Standing limiter now 0 none
  | used {n : Nat} {meter : Meter} (used : Used limiter now n meter) : Standing limiter now n (some meter)

variable {limiter : Limiter} {now : Timestamp} {n : Nat} {meter : Meter} {previous? : Option Meter}

private theorem charge_standing_bucket (precise : limiter.Exact) (bucket : limiter.algorithm = .tokenBucket)
    (standing : Standing limiter now n previous?) (permits : UInt64) :
    ∃ next, charge limiter permits now previous? =
        ⟨next, decide (n + permits.toNat ≤ limiter.capacity.toNat)⟩ ∧
      Used limiter now (if n + permits.toNat ≤ limiter.capacity.toNat then n + permits.toNat else n) next := by
  have countable : Bucket.Countable limiter := ⟨precise.fills bucket, precise.capacity_lt⟩
  have charged : ∃ previous, Bucket.Used limiter now n previous ∧
      charge limiter permits now previous? =
        (Bucket.charge limiter permits now (some previous)).map .bucket := by
    unfold charge
    rw [bucket]
    cases standing with
    | fresh => exact ⟨_, Bucket.used_full countable now, rfl⟩
    | used used =>
      cases used with
      | bucket _ used => exact ⟨_, used, rfl⟩
      | window algorithm _ => exact absurd (bucket.symm.trans algorithm) (by decide)
  obtain ⟨previous, used, same⟩ := charged
  obtain ⟨next, verdict, after⟩ := Bucket.charge_used countable used permits
  rw [same, verdict]
  exact ⟨_, rfl, .bucket bucket after⟩

private theorem charge_standing_window (precise : limiter.Exact) (window : limiter.algorithm = .slidingWindow)
    (standing : Standing limiter now n previous?) (permits : UInt64) :
    ∃ next, charge limiter permits now previous? =
        ⟨next, decide (n + (permits.toNat - 1) < limiter.capacity.toNat)⟩ ∧
      Used limiter now (if n + (permits.toNat - 1) < limiter.capacity.toNat then n + permits.toNat else n)
        next := by
  have requests := precise.requests window
  have small : limiter.requests.toNat ≤ 2 * binade := by
    rw [requests]
    exact precise.capacity_lt.le
  have charged : ∃ previous, Window.Used limiter now n previous ∧
      charge limiter permits now previous? =
        (Window.charge limiter permits now (some previous)).map .window := by
    unfold charge
    rw [window]
    cases standing with
    | fresh =>
      refine ⟨_, Window.used_empty limiter now, ?_⟩
      rw [← Window.charge_none_eq]
      rfl
    | used used =>
      cases used with
      | bucket algorithm _ => exact absurd (window.symm.trans algorithm) (by decide)
      | window _ used => exact ⟨_, used, rfl⟩
  obtain ⟨previous, used, same⟩ := charged
  obtain ⟨next, verdict, after⟩ := Window.charge_used small used permits
  rw [requests] at verdict after
  rw [same, verdict]
  exact ⟨_, rfl, .window window after⟩

/-- A request with permits is granted if they fit into the capacity with those in use; one without any
leaves the key as it stands. -/
theorem charge_standing (precise : limiter.Exact) (standing : Standing limiter now n previous?)
    (permits : UInt64) :
    ∃ next allowed, charge limiter permits now previous? = ⟨next, allowed⟩ ∧
      Used limiter now (if allowed then n + permits.toNat else n) next ∧
      (1 ≤ permits.toNat → (allowed = true ↔ n + permits.toNat ≤ limiter.capacity.toNat)) := by
  cases algorithm : limiter.algorithm with
  | tokenBucket =>
    obtain ⟨next, same, used⟩ := charge_standing_bucket precise algorithm standing permits
    refine ⟨next, _, same, ?_, fun _ => decide_eq_true_iff⟩
    simpa only [decide_eq_true_eq] using used
  | slidingWindow =>
    obtain ⟨next, same, used⟩ := charge_standing_window precise algorithm standing permits
    refine ⟨next, _, same, ?_, fun asks => ?_⟩
    · simpa only [decide_eq_true_eq] using used
    · rw [decide_eq_true_iff]
      omega

theorem usage?_used (precise : limiter.Exact) (used : Used limiter now n meter) :
    ∃ usage, meter.usage? limiter now = some usage ∧ Whole usage.used n ∧ usage.limit = limiter.capacity ∧
      usage.remaining.toNat = limiter.capacity.toNat - n := by
  cases used with
  | bucket algorithm used =>
    have shown := Bucket.usage_used ⟨precise.fills algorithm, precise.capacity_lt⟩ used
    exact ⟨_, usage?_bucket algorithm now _, shown⟩
  | window algorithm used =>
    have requests := precise.requests algorithm
    have shown := Window.usage_used (by rw [requests]; exact precise.capacity_lt.le) used
    rw [requests] at shown
    exact ⟨_, usage?_window algorithm now _, shown⟩

end Meter
end Admission
