import Admission.Proofs.Meter.Instant
import Admission.Proofs.Meter.WindowBound

namespace Admission

open Binary64

namespace Bucket

/-- The permits granted at a reading and the tokens that are left are within the capacity. -/
def Spent (limiter : Limiter) (now : Timestamp) (n : Nat) (bucket : Bucket) : Prop :=
  (bucket.available limiter now).toRat + n ≤ limiter.capacity.toNat

variable {limiter : Limiter} {now : Timestamp} {n : Nat} {bucket : Bucket}

theorem spent_zero (countable : Countable limiter) (now : Timestamp) (bucket : Bucket) :
    Spent limiter now 0 bucket := by
  have range := inRange_available countable.toFills bucket now
  rw [Spent, Nat.cast_zero, add_zero, ← countable.exactly.2]
  exact range.le

theorem Spent.le (countable : Countable limiter) (spent : Spent limiter now n bucket) :
    n ≤ limiter.capacity.toNat := by
  have nonneg := (inRange_available countable.toFills bucket now).nonneg
  rw [Spent] at spent
  exact_mod_cast show (n : ℚ) ≤ limiter.capacity.toNat by linarith

/-- What is granted is taken off exactly, and no token comes in before the next reading. -/
theorem Spent.charge (countable : Countable limiter) (spent : Spent limiter now n bucket) (permits : UInt64) :
    let charged := charge limiter permits now (some bucket)
    Spent limiter now (if charged.allowed then n + permits.toNat else n) charged.state := by
  intro charged
  have range := inRange_available countable.toFills bucket now
  have seen := bucket.lastRefill.le_max_right now
  by_cases covered : Binary64.ofNat permits.toNat ≤ bucket.available limiter now
  · have verdict : charged =
        ⟨⟨bucket.available limiter now - .ofNat permits.toNat, max bucket.lastRefill now⟩, true⟩ :=
      charge_covered covered
    have small := countable.capacity_lt.le
    have cost := whole_ofNat ((permits_le countable range covered).trans small)
    have paid := (le_iff_toRat cost.finite range.finite).mp covered
    rw [cost.toRat_eq] at paid
    have most : (bucket.available limiter now).toRat ≤ (2 * binade : Nat) :=
      range.le.trans (by rw [countable.exactly.2]; exact Nat.cast_le.mpr small)
    have rest := (sub_whole range.finite cost paid most).2
    rw [verdict, Spent, toRat_available_of_seen countable.toFills (range.pay covered) seen, rest, if_pos rfl]
    rw [Spent] at spent
    push_cast
    linarith
  · have verdict : charged = ⟨⟨bucket.available limiter now, max bucket.lastRefill now⟩, false⟩ :=
      charge_not_covered covered
    rw [verdict, Spent, toRat_available_of_seen countable.toFills range seen]
    exact spent

end Bucket

namespace Window

/-- The permits granted at a reading are counted in its window, and are within the limit. -/
structure Spent (limiter : Limiter) (now : Timestamp) (n : Nat) (previous? : Option Window) : Prop where
  counted : n ≤ (moved limiter now previous?).current.toNat
  le : n ≤ limiter.requests.toNat

variable {limiter : Limiter} {now : Timestamp} {n : Nat} {previous? : Option Window}

private theorem spent_none (limiter : Limiter) (now : Timestamp) (previous? : Option Window) :
    Spent limiter now 0 previous? :=
  ⟨Nat.zero_le _, Nat.zero_le _⟩

private theorem moved_counted (limiter : Limiter) (now : Timestamp) (previous? : Option Window)
    (count : UInt64) :
    moved limiter now (some { moved limiter now previous? with current := count }) =
      { moved limiter now previous? with current := count } := by
  refine rotate_of_lt ?_
  cases previous? with
  | none =>
    have ends : now.toNat < (empty (lengthOf limiter) now).start.toNat + lengthOf limiter :=
      (empty_around (lengthOf_pos limiter)).2
    have positive := lengthOf_pos limiter
    show now.toNat - (empty (lengthOf limiter) now).start.toNat < lengthOf limiter
    omega
  | some window => exact since_rotate_start_lt (lengthOf_pos limiter) window now

theorem Spent.charge (small : limiter.requests.toNat ≤ 2 ^ 53) (spent : Spent limiter now n previous?)
    (permits : UInt64) :
    let charged := charge limiter permits now previous?
    Spent limiter now (if charged.allowed then n + permits.toNat else n) (some charged.state) := by
  intro charged
  have counted := spent.counted
  rcases charge_cases small permits now previous? with ⟨count, sum, fits, granted⟩ | denied
  · have verdict : charged = ⟨{ moved limiter now previous? with current := count }, true⟩ := granted
    rw [verdict, if_pos rfl]
    refine ⟨?_, by omega⟩
    rw [moved_counted]
    show n + permits.toNat ≤ count.toNat
    omega
  · have verdict : charged = ⟨moved limiter now previous?, false⟩ := denied
    rw [verdict]
    refine ⟨?_, spent.le⟩
    rw [moved_counted limiter now previous? (moved limiter now previous?).current]
    exact counted

end Window

namespace Meter

/-- What can be kept of a key when some permits have been granted at a reading. A meter of the other algorithm
counts as none. -/
inductive Spent (limiter : Limiter) (now : Timestamp) (n : Nat) (previous? : Option Meter) : Prop
  | bucket (algorithm : limiter.algorithm = .tokenBucket)
      (spent : Bucket.Spent limiter now n ((previous?.bind bucket?).getD (.full limiter now)))
  | window (algorithm : limiter.algorithm = .slidingWindow)
      (spent : Window.Spent limiter now n (previous?.bind window?))

variable {limiter : Limiter} {now : Timestamp} {n : Nat} {previous? : Option Meter}

theorem spent_zero (precise : limiter.Exact) (now : Timestamp) (previous? : Option Meter) :
    Spent limiter now 0 previous? := by
  cases algorithm : limiter.algorithm with
  | tokenBucket => exact .bucket algorithm (Bucket.spent_zero ⟨precise.fills algorithm, precise.capacity_lt⟩ ..)
  | slidingWindow => exact .window algorithm (Window.spent_none ..)

theorem Spent.le (precise : limiter.Exact) (spent : Spent limiter now n previous?) :
    n ≤ limiter.capacity.toNat := by
  cases spent with
  | bucket algorithm spent => exact spent.le ⟨precise.fills algorithm, precise.capacity_lt⟩
  | window algorithm spent =>
    rw [← precise.requests algorithm]
    exact spent.le

theorem Spent.charge (precise : limiter.Exact) (spent : Spent limiter now n previous?) (permits : UInt64) :
    let charged := charge limiter permits now previous?
    Spent limiter now (if charged.allowed then n + permits.toNat else n) (some charged.state) := by
  intro charged
  cases spent with
  | bucket algorithm spent =>
    have next := spent.charge ⟨precise.fills algorithm, precise.capacity_lt⟩ permits
    have verdict : charged = (Bucket.charge limiter permits now (previous?.bind bucket?)).map .bucket :=
      charge_tokenBucket algorithm permits now previous?
    rw [verdict]
    exact .bucket algorithm next
  | window algorithm spent =>
    have small : limiter.requests.toNat ≤ 2 ^ 53 := by
      rw [precise.requests algorithm]
      exact precise.capacity_lt.le
    have next := spent.charge small permits
    have verdict : charged = (Window.charge limiter permits now (previous?.bind window?)).map .window :=
      charge_slidingWindow algorithm permits now previous?
    rw [verdict]
    exact .window algorithm next

end Meter
end Admission
