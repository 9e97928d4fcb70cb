import Mathlib.Algebra.Order.Floor.Ring
import Admission.Proofs.Meter.Erasure
import Admission.Proofs.Meter.Instant

/-! What a meter says is left. Main statement: at one reading a token bucket grants as many single
permits as it says remain before it denies one, and a sliding window as many or one more. -/
namespace Admission

open Binary64

section Singles

variable {σ τ : Type} {charge : UInt64 → Timestamp → Option σ → Charge σ}
  {other : UInt64 → Timestamp → Option τ → Charge τ} {now : Timestamp} {state next : σ} {n : Nat}

/-- Of the requests for one permit each that come at a reading, the first so many are granted and the
next one is denied. -/
def GrantsSingles (charge : UInt64 → Timestamp → Option σ → Charge σ) (now : Timestamp) (state : σ)
    (n : Nat) : Prop :=
  (run charge (some state) (List.replicate (n + 1) ⟨1, now⟩)).map (·.charge.allowed) =
    List.replicate n true ++ [false]

private theorem grantsSingles_zero (denied : (charge 1 now (some state)).allowed = false) :
    GrantsSingles charge now state 0 :=
  congrArg (fun allowed => [allowed]) denied

private theorem grantsSingles_succ (granted : charge 1 now (some state) = ⟨next, true⟩)
    (rest : GrantsSingles charge now next n) : GrantsSingles charge now state (n + 1) := by
  rw [GrantsSingles, List.replicate_succ, run, granted, List.map_cons, rest, List.replicate_succ,
    List.cons_append]

private theorem grantsSingles_congr (same : charge 1 now (some state) = charge 1 now (some next))
    (grants : GrantsSingles charge now next n) : GrantsSingles charge now state n := by
  rw [GrantsSingles, List.replicate_succ, run] at *
  rw [same]
  exact grants

theorem GrantsSingles.map (f : σ → τ)
    (alike : ∀ state, other 1 now (some (f state)) = (charge 1 now (some state)).map f)
    (grants : GrantsSingles charge now state n) : GrantsSingles other now (f state) n := by
  have verdicts (count : Nat) (state : σ) :
      (run other (some (f state)) (List.replicate count ⟨1, now⟩)).map (·.charge.allowed) =
        (run charge (some state) (List.replicate count ⟨1, now⟩)).map (·.charge.allowed) := by
    induction count generalizing state with
    | zero => rfl
    | succ count ih =>
      simp only [List.replicate_succ, run, List.map_cons, alike]
      exact congrArg _ (ih _)
  exact (verdicts _ _).trans grants

end Singles

namespace Bucket

variable {limiter : Limiter} {now : Timestamp} {bucket : Bucket}

section Single

-- The permits stay a variable: the cost of a literal would be computed wherever it is compared.
variable {permits : UInt64}

private theorem whole_cost (single : permits.toNat = 1) : Whole (Binary64.ofNat permits.toNat) 1 := by
  rw [single]
  exact whole_ofNat (by decide)

private theorem single_le_iff {tokens : Binary64} (single : permits.toNat = 1) (finite : tokens.isFinite) :
    Binary64.ofNat permits.toNat ≤ tokens ↔ 1 ≤ tokens.toRat := by
  rw [le_iff_toRat (whole_cost single).finite finite, (whole_cost single).toRat_eq, Nat.cast_one]

/-- A token is taken exactly. -/
private theorem sub_single (countable : Countable limiter) {tokens : Binary64}
    (range : InRange (capacityOf limiter) tokens) (single : permits.toNat = 1) (covered : 1 ≤ tokens.toRat) :
    InRange (capacityOf limiter) (tokens - .ofNat permits.toNat) ∧
      (tokens - .ofNat permits.toNat).toRat = tokens.toRat - 1 := by
  have most := range.le
  rw [countable.exactly.2] at most
  obtain ⟨finite, rest⟩ := sub_whole range.finite (whole_cost single) (by rwa [Nat.cast_one])
    (most.trans (Nat.cast_le.mpr countable.capacity_lt.le))
  rw [Nat.cast_one] at rest
  refine ⟨⟨finite, ?_, ?_⟩, rest⟩
  · rw [rest]
    exact sub_nonneg.mpr covered
  · rw [rest]
    exact (sub_le_self _ zero_le_one).trans range.le

theorem allowed_single_iff (fills : Fills limiter) (single : permits.toNat = 1) (bucket : Bucket)
    (now : Timestamp) : (charge limiter permits now (some bucket)).allowed = true ↔
      1 ≤ (bucket.available limiter now).toRat := by
  rw [← single_le_iff single (inRange_available fills bucket now).finite]
  by_cases covered : Binary64.ofNat permits.toNat ≤ bucket.available limiter now
  · rw [charge_covered covered]
    exact iff_of_true rfl covered
  · rw [charge_not_covered covered]
    exact iff_of_false Bool.false_ne_true covered

private theorem charge_single (countable : Countable limiter) (single : permits.toNat = 1)
    (covered : 1 ≤ (bucket.available limiter now).toRat) :
    ∃ left, charge limiter permits now (some bucket) = ⟨⟨left, max bucket.lastRefill now⟩, true⟩ ∧
      InRange (capacityOf limiter) left ∧ left.toRat = (bucket.available limiter now).toRat - 1 := by
  have range := inRange_available countable.toFills bucket now
  exact ⟨_, charge_covered ((single_le_iff single range.finite).mpr covered),
    sub_single countable range single covered⟩

end Single

theorem grantsSingles (countable : Countable limiter) (n : Nat) {bucket : Bucket}
    (part : ⌊(bucket.available limiter now).toRat⌋₊ = n) : GrantsSingles (charge limiter) now bucket n := by
  induction n generalizing bucket with
  | zero =>
    refine grantsSingles_zero ?_
    rw [Bool.eq_false_iff, ne_eq, allowed_single_iff countable.toFills UInt64.toNat_one, not_le]
    exact Nat.floor_eq_zero.mp part
  | succ n ih =>
    have range := inRange_available countable.toFills bucket now
    have covered : 1 ≤ (bucket.available limiter now).toRat := by
      rw [← Nat.cast_one, ← Nat.le_floor_iff range.nonneg, part]
      exact Nat.le_add_left 1 n
    obtain ⟨rest, granted, spent, value⟩ := charge_single countable UInt64.toNat_one covered
    have seen := bucket.lastRefill.le_max_right now
    refine grantsSingles_succ granted (ih ?_)
    rw [toRat_available_of_seen countable.toFills spent seen, value, Nat.floor_sub_one, part, Nat.add_sub_cancel]

/-- There are no more whole tokens than the capacity, as long as that is counted exactly. -/
theorem floor_available_le (fills : Fills limiter) (small : limiter.capacity.toNat ≤ 2 * binade)
    (bucket : Bucket)
    (now : Timestamp) : ⌊(bucket.available limiter now).toRat⌋₊ ≤ limiter.capacity.toNat := by
  have most := (inRange_available fills bucket now).le
  rw [(ofNat_exact small).2] at most
  exact Nat.floor_le_of_le most

theorem toNat_remaining_of_le (fills : Fills limiter) (small : limiter.capacity.toNat ≤ 2 * binade)
    (bucket : Bucket) (now : Timestamp) :
    (usage limiter now bucket).remaining.toNat = ⌊(bucket.available limiter now).toRat⌋₊ := by
  have range := inRange_available fills bucket now
  refine (whole_floor range.finite range.nonneg).toNat_toUInt64 ?_
  exact (floor_available_le fills small bucket now).trans_lt limiter.capacity.toNat_lt

theorem toNat_remaining (countable : Countable limiter) (bucket : Bucket) (now : Timestamp) :
    (usage limiter now bucket).remaining.toNat = ⌊(bucket.available limiter now).toRat⌋₊ :=
  toNat_remaining_of_le countable.toFills countable.capacity_lt.le bucket now

end Bucket

namespace Window

section Level

variable {limiter : Limiter} {now : Timestamp} {window : Window} {m n : Nat}

/-- The estimate of a window if it had counted so many permits. -/
def level (limiter : Limiter) (now : Timestamp) (window : Window) (n : Nat) : Binary64 :=
  carried limiter now window + .ofNat n

private theorem isFinite_level (limiter : Limiter) (now : Timestamp) (window : Window)
    (word : n ≤ UInt64.size) :
    (level limiter now window n).isFinite := by
  obtain ⟨finite, low, high⟩ := carried_spec limiter now window
  have countLow := toRat_ofNat_nonneg word
  have rounds := rounds_add finite (isFinite_ofNat word)
  have previous := (abs_le.mp (ofNat_error window.previous.toNat_lt.le)).2
  have count := (abs_le.mp (ofNat_error word)).2
  have top : (ofNat (4 * UInt64.size)).isFinite := by decide +kernel
  have sum : (carried limiter now window).toRat + (ofNat n).toRat ≤ (4 * UInt64.size : Nat) := by
    have previousWord : (window.previous.toNat : ℚ) ≤ UInt64.size := Nat.cast_le.mpr window.previous.toNat_lt.le
    have countWord : (n : ℚ) ≤ UInt64.size := Nat.cast_le.mpr word
    rw [Nat.cast_mul, Nat.cast_ofNat]
    linarith
  refine isFinite_of_between isFinite_zero top (rounds_zero.le rounds (add_nonneg low countLow)) ?_
  exact rounds.le (rounds_ofNat _) sum

private theorem rounds_level (small : n ≤ 2 * binade) :
    Rounds ((carried limiter now window).toRat + n) (level limiter now window n) := by
  obtain ⟨countFinite, count⟩ := ofNat_exact small
  have rounds := rounds_add (carried_spec limiter now window).1 countFinite
  rwa [count] at rounds

/-- A count that has reached the limit is at the limit by the estimate. -/
private theorem le_level (small : m ≤ 2 * binade) (word : n ≤ UInt64.size) (le : m ≤ n) :
    (m : ℚ) ≤ (level limiter now window n).toRat := by
  obtain ⟨carriedFinite, low, -⟩ := carried_spec limiter now window
  have count := (rounds_ofNat n).natCast_le (isFinite_ofNat word) small (Nat.cast_le.mpr le)
  exact (rounds_add carriedFinite (isFinite_ofNat word)).natCast_le (isFinite_level limiter now window word)
    small (by linarith)

end Level

/-- So many more permits are the first to bring the estimate to the limit. -/
structure Reaches (limiter : Limiter) (now : Timestamp) (window : Window) (n : Nat) : Prop where
  below : ∀ k < n, (level limiter now window (window.current.toNat + k)).toRat < limiter.requests.toNat
  reached : limiter.requests.toNat ≤ (level limiter now window (window.current.toNat + n)).toRat

section Reaches

variable {limiter : Limiter} {now : Timestamp} {window : Window} {n : Nat}

private theorem exists_reaches (small : limiter.requests.toNat ≤ 2 * binade) (now : Timestamp)
    (window : Window) :
    ∃ n, Reaches limiter now window n := by
  have reached : ∃ n, (limiter.requests.toNat : ℚ) ≤
      (level limiter now window (window.current.toNat + n)).toRat := by
    have count := window.current.toNat_lt
    have limit := limiter.requests.toNat_lt
    refine ⟨limiter.requests.toNat - window.current.toNat, le_level small ?_ (by omega)⟩
    rw [UInt64.size]
    omega
  exact ⟨Nat.find reached, fun k less => not_le.mp (Nat.find_min reached less), Nat.find_spec reached⟩

theorem Reaches.count_lt (small : limiter.requests.toNat ≤ 2 * binade) (reaches : Reaches limiter now window n)
    {k : Nat} (less : k < n) : window.current.toNat + k < limiter.requests.toNat := by
  have limit := limiter.requests.toNat_lt
  have word : window.current.toNat + k ≤ UInt64.size := by
    cases k with
    | zero => exact window.current.toNat_lt.le
    | succ k =>
      have earlier := count_lt small reaches (Nat.lt_of_succ_lt less)
      rw [UInt64.size]
      omega
  by_contra full
  exact absurd (le_level small word (not_lt.mp full)) (not_le.mpr (reaches.below k less))

theorem Reaches.next {count : UInt64} (counted : count.toNat = window.current.toNat + 1)
    (reaches : Reaches limiter now window (n + 1)) :
    Reaches limiter now { window with current := count } n := by
  have shift (k : Nat) : window.current.toNat + (k + 1) = count.toNat + k := by omega
  refine ⟨fun k less => ?_, ?_⟩
  · have below := reaches.below (k + 1) (Nat.succ_lt_succ less)
    rw [shift] at below
    exact below
  · have reached := reaches.reached
    rw [shift] at reached
    exact reached

end Reaches

section Single

variable {limiter : Limiter} {now : Timestamp} {window : Window} {permits : UInt64}

theorem allowed_single_iff (limiter : Limiter) (single : permits.toNat = 1) (now : Timestamp)
    (previous? : Option Window) : (charge limiter permits now previous?).allowed = true ↔
      ((moved limiter now previous?).weighted (lengthOf limiter) now).toRat <
        (Binary64.ofNat limiter.requests.toNat).toRat := by
  have finite : ((moved limiter now previous?).weighted (lengthOf limiter) now).isFinite :=
    isFinite_level limiter now _ (moved limiter now previous?).current.toNat_lt.le
  have nothing : Whole (Binary64.ofNat (permits.toNat - 1)) 0 := by
    rw [single]
    exact whole_zero
  obtain ⟨sumFinite, same⟩ := toRat_add_of_zero finite nothing.finite (nothing.toRat_eq.trans Nat.cast_zero)
  rw [← same, ← lt_iff_toRat sumFinite (isFinite_ofNat limiter.requests.toNat_lt.le), charge_eq]
  split_ifs with admits <;> simp [admits]

private theorem moved_of_settled (settled : now.since window.start < lengthOf limiter) :
    moved limiter now (some window) = window :=
  rotate_of_lt settled

private theorem charge_single (small : limiter.requests.toNat ≤ 2 * binade) (single : permits.toNat = 1)
    (settled : now.since window.start < lengthOf limiter)
    (below : (level limiter now window window.current.toNat).toRat < limiter.requests.toNat) :
    ∃ count : UInt64, count.toNat = window.current.toNat + 1 ∧
      charge limiter permits now (some window) = ⟨{ window with current := count }, true⟩ := by
  have moved := moved_of_settled settled
  have granted : (charge limiter permits now (some window)).allowed = true := by
    rw [allowed_single_iff limiter single, moved, (ofNat_exact small).2]
    exact below
  rcases charge_cases small permits now (some window) with ⟨count, counted, -, same⟩ | denied
  · rw [moved, single] at counted
    rw [moved] at same
    exact ⟨count, counted, same⟩
  · rw [denied] at granted
    cases granted

theorem grantsSingles (small : limiter.requests.toNat ≤ 2 * binade)
    (settled : now.since window.start < lengthOf limiter) (n : Nat) (reaches : Reaches limiter now window n) :
    GrantsSingles (charge limiter) now window n := by
  induction n generalizing window with
  | zero =>
    refine grantsSingles_zero ?_
    rw [Bool.eq_false_iff, ne_eq, allowed_single_iff limiter UInt64.toNat_one, moved_of_settled settled,
      (ofNat_exact small).2, not_lt]
    exact reaches.reached
  | succ n ih =>
    obtain ⟨count, counted, granted⟩ :=
      charge_single small UInt64.toNat_one settled (reaches.below 0 (Nat.succ_pos n))
    exact grantsSingles_succ granted (ih settled (reaches.next counted))

end Single

section Remaining

variable {limiter : Limiter} {now : Timestamp} {window : Window} {n : Nat}

def left (limiter : Limiter) (now : Timestamp) (window : Window) : Binary64 :=
  .ofNat limiter.requests.toNat - window.weighted (lengthOf limiter) now

private theorem rounds_left (small : limiter.requests.toNat ≤ 2 * binade) (now : Timestamp) (window : Window) :
    Rounds (limiter.requests.toNat - (level limiter now window window.current.toNat).toRat)
      (left limiter now window) := by
  obtain ⟨finite, exactly⟩ := ofNat_exact small
  have rounds := rounds_sub finite (isFinite_level limiter now window window.current.toNat_lt.le)
  rwa [exactly] at rounds

theorem left_spec (small : limiter.requests.toNat ≤ 2 * binade) (now : Timestamp) (window : Window) :
    (left limiter now window).isFinite ∧ (left limiter now window).toRat ≤ limiter.requests.toNat := by
  obtain ⟨finite, exactly⟩ := ofNat_exact small
  have rounds := rounds_left small now window
  have estimateFinite := isFinite_level limiter now window window.current.toNat_lt.le
  have low : (0 : ℚ) ≤ (level limiter now window window.current.toNat).toRat := by
    rw [← Nat.cast_zero]
    exact le_level (Nat.zero_le _) window.current.toNat_lt.le (Nat.zero_le _)
  have leftFinite : (left limiter now window).isFinite := by
    rcases le_total (level limiter now window window.current.toNat).toRat limiter.requests.toNat with
      room | none
    · refine rounds.isFinite_of_le finite ?_
      rw [exactly, Nat.abs_cast, abs_of_nonneg (sub_nonneg.mpr room)]
      exact sub_le_self _ low
    · refine rounds.isFinite_of_le estimateFinite ?_
      rw [abs_of_nonneg low, abs_of_nonpos (sub_nonpos.mpr none)]
      linarith [Nat.cast_nonneg (α := ℚ) limiter.requests.toNat]
  exact ⟨leftFinite, rounds.le_natCast leftFinite small (sub_le_self _ low)⟩

theorem toNat_remaining (small : limiter.requests.toNat ≤ 2 * binade) (now : Timestamp) (window : Window) :
    (usage limiter now window).remaining.toNat =
      ⌊(left limiter now (window.rotate (lengthOf limiter) now)).toRat⌋₊ := by
  obtain ⟨finite, most⟩ := left_spec small now (window.rotate (lengthOf limiter) now)
  exact toNat_toUInt64_max_floor finite ((Nat.floor_le_of_le most).trans_lt limiter.requests.toNat_lt)

/-- One permit less than reaches the limit is all that is left: three roundings do not make up for one. -/
theorem Reaches.left_lt (small : limiter.requests.toNat ≤ 2 ^ 50) (reaches : Reaches limiter now window n)
    (positive : 0 < n) : (left limiter now window).toRat < n + 1 := by
  have fits : limiter.requests.toNat ≤ 2 * binade := small.trans (by decide)
  have last := reaches.count_lt fits (Nat.sub_lt positive Nat.one_pos)
  have count : window.current.toNat + n ≤ 2 * binade := by omega
  have word : window.current.toNat + n ≤ UInt64.size := count.trans (by decide)
  have first := reaches.below 0 positive
  have reached := reaches.reached
  obtain ⟨-, low, -⟩ := carried_spec limiter now window
  have tiny := least_tiny
  have limit : (limiter.requests.toNat : ℚ) ≤ 2 ^ 50 := by exact_mod_cast small
  have counts : (0 : ℚ) ≤ window.current.toNat := Nat.cast_nonneg _
  have start := (rounds_level (Nat.le_of_add_right_le count)).error_le
    (isFinite_level limiter now window window.current.toNat_lt.le)
  have final := (rounds_level count).error_le (isFinite_level limiter now window word)
  have rest := (rounds_left fits now window).error_le (left_spec fits now window).1
  rw [Nat.add_zero] at first
  rw [abs_of_nonneg (add_nonneg low counts), abs_le] at start
  rw [abs_of_nonneg (add_nonneg low (Nat.cast_nonneg _)), abs_le, Nat.cast_add] at final
  rw [abs_of_nonneg (sub_nonneg.mpr first.le), abs_le] at rest
  by_contra more
  linarith [start.1, start.2, final.1, final.2, rest.1, rest.2]

theorem Reaches.floor_left_le (small : limiter.requests.toNat ≤ 2 ^ 50)
    (reaches : Reaches limiter now window n) : ⌊(left limiter now window).toRat⌋₊ ≤ n := by
  rcases Nat.eq_zero_or_pos n with rfl | positive
  · have fits : limiter.requests.toNat ≤ 2 * binade := small.trans (by decide)
    have nothing := (rounds_left fits now window).toRat_le rounds_zero (left_spec fits now window).1
      isFinite_zero (sub_nonpos.mpr reaches.reached)
    rw [toRat_zero] at nothing
    exact (Nat.floor_of_nonpos nothing).le
  · have less := reaches.left_lt small positive
    rw [← Nat.lt_add_one_iff, Nat.floor_lt' (Nat.succ_ne_zero n), Nat.cast_succ]
    exact less

/-- At most one more is granted. -/
theorem Reaches.le_floor_left_add_one (small : limiter.requests.toNat ≤ 2 * binade)
    (reaches : Reaches limiter now window n) : n ≤ ⌊(left limiter now window).toRat⌋₊ + 1 := by
  have leftFinite := (left_spec small now window).1
  by_contra more
  have further := reaches.count_lt small (not_le.mp more)
  have room := reaches.below _ (not_le.mp more)
  have part := Nat.lt_floor_add_one (left limiter now window).toRat
  generalize ⌊(left limiter now window).toRat⌋₊ = whole at *
  obtain ⟨rest, split⟩ := Nat.exists_eq_add_of_lt ((Nat.le_add_left ..).trans_lt further)
  have count : window.current.toNat + (whole + 1) ≤ 2 * binade := further.le.trans small
  have limit : (limiter.requests.toNat : ℚ) = (whole + 1 : Nat) + (rest + 1 : Nat) := by
    rw [split, Nat.add_assoc, Nat.cast_add]
  -- The estimate is beyond what the limit leaves without the next permit, so that permit reaches it.
  have beyond : ((rest + 1 : Nat) : ℚ) < (carried limiter now window).toRat + window.current.toNat := by
    by_contra within
    have start := (rounds_level (Nat.le_of_add_right_le count)).le_natCast
      (isFinite_level limiter now window window.current.toNat_lt.le) (n := rest + 1) (by omega)
      (not_lt.mp within)
    have enough := (rounds_left small now window).natCast_le leftFinite (n := whole + 1) (by omega) (by
      rw [limit]
      linarith)
    rw [Nat.cast_succ] at enough
    exact absurd part (not_lt.mpr enough)
  have reached := (rounds_level count).natCast_le (isFinite_level limiter now window (count.trans (by decide)))
    small (by
      rw [limit, Nat.cast_add window.current.toNat]
      linarith)
  exact absurd room (not_lt.mpr reached)

/-- A window grants as many single permits as remain, or one more. -/
theorem exists_grantsSingles (small : limiter.requests.toNat ≤ 2 ^ 50) (window : Window) (now : Timestamp) :
    ∃ n, GrantsSingles (charge limiter) now window n ∧ (usage limiter now window).remaining.toNat ≤ n ∧
      n ≤ (usage limiter now window).remaining.toNat + 1 := by
  have fits : limiter.requests.toNat ≤ 2 * binade := small.trans (by decide)
  have settled := since_rotate_start_lt (lengthOf_pos limiter) window now
  obtain ⟨n, reaches⟩ := exists_reaches fits now (window.rotate (lengthOf limiter) now)
  rw [toNat_remaining fits]
  refine ⟨n, ?_, reaches.floor_left_le small, reaches.le_floor_left_add_one fits⟩
  -- The first request finds the window moved on, and no other one moves it again.
  refine grantsSingles_congr (charge_congr ?_ 1) (grantsSingles fits settled n reaches)
  exact (moved_moved (UInt64.le_refl now) limiter (some window)).symm

end Remaining

end Window

namespace Meter

/-- At one reading a meter grants single permits until it denies one: a token bucket as many as it says
remain, and a sliding window as many or one more. -/
theorem grants_what_remains {draft : Limiter.Draft} {limiter : Limiter} (built : draft.build = .ok limiter)
    (small : limiter.capacity.toNat ≤ 2 ^ 50) (meter : Meter) (same : meter.algorithm = limiter.algorithm)
    (now : Timestamp) :
    ∃ usage n, meter.usage? limiter now = some usage ∧ GrantsSingles (charge limiter) now meter n ∧
      (limiter.algorithm = .tokenBucket → n = usage.remaining.toNat) ∧
      (limiter.algorithm = .slidingWindow →
        usage.remaining.toNat ≤ n ∧ n ≤ usage.remaining.toNat + 1) := by
  cases meter with
  | bucket state =>
    have algorithm : limiter.algorithm = .tokenBucket := same.symm
    have countable : Bucket.Countable limiter :=
      ⟨Bucket.fills_of_build built algorithm, small.trans_lt (by decide)⟩
    have grants : GrantsSingles (charge limiter) now (bucket state) _ :=
      (Bucket.grantsSingles countable _ rfl).map bucket (charge_bucket algorithm 1 now)
    refine ⟨_, _, usage?_bucket algorithm now state, grants, ?_, ?_⟩
    · intro
      exact (Bucket.toNat_remaining countable state now).symm
    · rw [algorithm]
      intro other
      cases other
  | window state =>
    have algorithm : limiter.algorithm = .slidingWindow := same.symm
    obtain ⟨requests, -⟩ := Limiter.Draft.build_slidingWindow built algorithm
    rw [← requests] at small
    obtain ⟨n, grants, bounds⟩ := Window.exists_grantsSingles small state now
    refine ⟨_, n, usage?_window algorithm now state, grants.map window (charge_window algorithm 1 now), ?_,
      fun _ => bounds⟩
    rw [algorithm]
    intro other
    cases other

/-- Half of the one permit of the window before counts against a limit of three. -/
theorem grants_what_remains_of_three :
    let limiter : Limiter :=
      { name := "api", algorithm := .slidingWindow, requests := 3, window := .ofSeconds 1,
        failStrategy := .failOpen, capacity := 3, refillRate := 3, throttle? := none }
    limiter.capacity.toNat ≤ 2 ^ 50 ∧ (window ⟨0, 0, 1⟩).algorithm = limiter.algorithm ∧
      ∃ usage n, (window ⟨0, 0, 1⟩).usage? limiter 500 = some usage ∧ usage.remaining.toNat = 2 ∧
        GrantsSingles (charge limiter) 500 (window ⟨0, 0, 1⟩) n ∧ 2 ≤ n ∧ n ≤ 3 := by
  intro limiter
  have built : Limiter.slidingWindow "api" 3 (.ofSeconds 1) = .ok limiter := by decide +kernel
  have small : limiter.capacity.toNat ≤ 2 ^ 50 := by decide
  obtain ⟨usage, n, shown, grants, -, bounds⟩ :=
    grants_what_remains built small (window ⟨0, 0, 1⟩) rfl 500
  have two : ((window ⟨0, 0, 1⟩).usage? limiter 500).map (·.remaining.toNat) = some 2 := by decide +kernel
  rw [shown] at two
  have remaining : usage.remaining.toNat = 2 := Option.some.inj two
  have counted := bounds rfl
  rw [remaining] at counted
  exact ⟨small, rfl, usage, n, shown, remaining, grants, counted⟩

end Meter
end Admission
