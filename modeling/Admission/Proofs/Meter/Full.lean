import Admission.Proofs.Meter.Bucket

namespace Admission.Bucket

open Binary64

section Refill

variable {capacity rate : Binary64} {millis more : Nat}

private theorem gained_cases (rateFinite : rate.isFinite) (positive : 0 ≤ rate.toRat)
    (word : millis ≤ UInt64.size) :
    (gained rate millis).isFinite ∨ gained rate millis = .infinite false := by
  obtain ⟨x, rounds, low, -⟩ := rounds_gained rateFinite positive word
  exact rounds.isFinite_or low

private theorem gained_mono (rateFinite : rate.isFinite) (positive : 0 ≤ rate.toRat) (word : more ≤ UInt64.size)
    (le : millis ≤ more) : gained rate millis ≤ gained rate more := by
  have lessWord := le.trans word
  obtain ⟨thousandFinite, thousand⟩ := toRat_thousand
  have nonzero : (1000 : Binary64).toRat ≠ 0 := by
    rw [thousand]
    norm_num
  obtain ⟨lessFinite, -, -⟩ := seconds_spec lessWord
  obtain ⟨moreFinite, -, -⟩ := seconds_spec word
  have readings := (rounds_ofNat millis).toRat_le (rounds_ofNat more) (isFinite_ofNat lessWord)
    (isFinite_ofNat word) (Nat.cast_le.mpr le)
  have quotients : (Binary64.ofNat millis).toRat / (1000 : Binary64).toRat ≤
      (Binary64.ofNat more).toRat / (1000 : Binary64).toRat := by
    rw [thousand]
    exact div_le_div_of_nonneg_right readings (by norm_num)
  have seconds := (rounds_div (isFinite_ofNat lessWord) thousandFinite nonzero).toRat_le
    (rounds_div (isFinite_ofNat word) thousandFinite nonzero) lessFinite moreFinite quotients
  exact (rounds_mul lessFinite rateFinite).le (rounds_mul moreFinite rateFinite)
    (mul_le_mul_of_nonneg_right seconds positive)

private theorem gained_zero (rateFinite : rate.isFinite) (positive : 0 ≤ rate.toRat) :
    (gained rate 0).isFinite ∧ (gained rate 0).toRat = 0 := by
  obtain ⟨x, rounds, -, near⟩ := rounds_gained rateFinite positive (Nat.zero_le UInt64.size)
  have zero : x = (0 : Binary64).toRat := by
    rw [toRat_zero]
    rw [Nat.cast_zero, mul_zero, zero_div, sub_zero, zero_mul] at near
    exact abs_nonpos_iff.mp near
  rw [zero] at rounds
  obtain ⟨finite, value⟩ := rounds.toRat_eq isFinite_zero
  exact ⟨finite, value.trans toRat_zero⟩

variable {less large gain gainMore : Binary64}

/-- Sums keep the order, also where a gain is infinite. -/
private theorem add_le_add_gain (lessFinite : less.isFinite) (largeFinite : large.isFinite)
    (le : less.toRat ≤ large.toRat) (gainCases : gain.isFinite ∨ gain = .infinite false)
    (moreCases : gainMore.isFinite ∨ gainMore = .infinite false) (gains : gain ≤ gainMore) :
    less + gain ≤ large + gainMore := by
  rcases moreCases with moreFinite | moreInfinite
  · rcases gainCases with gainFinite | gainInfinite
    · have ordered := (le_iff_toRat gainFinite moreFinite).mp gains
      exact (rounds_add lessFinite gainFinite).le (rounds_add largeFinite moreFinite) (by linarith)
    · rw [gainInfinite] at gains
      exact absurd gains (not_infinite_le moreFinite)
  · rw [moreInfinite, add_infinite largeFinite]
    rcases gainCases with gainFinite | gainInfinite
    · exact le_infinite (rounds_add lessFinite gainFinite).isNaN
    · rw [gainInfinite, add_infinite lessFinite]
      exact le_infinite rfl

theorem toRat_refilled_mono (finite : capacity.isFinite) (nonneg : 0 ≤ capacity.toRat)
    (rateFinite : rate.isFinite)
    (positive : 0 ≤ rate.toRat) (word : more ≤ UInt64.size) (le : millis ≤ more) (tokens : Binary64) :
    (refilled capacity rate tokens millis).toRat ≤ (refilled capacity rate tokens more).toRat := by
  obtain ⟨range, -⟩ := refilled_spec finite nonneg rateFinite positive (le.trans word) tokens
  obtain ⟨rangeMore, -⟩ := refilled_spec finite nonneg rateFinite positive word tokens
  have start := (inRange_balance finite nonneg tokens).finite
  have sums := add_le_add_gain start start le_rfl (gained_cases rateFinite positive (le.trans word))
    (gained_cases rateFinite positive word) (gained_mono rateFinite positive word le)
  obtain ⟨number, numberMore⟩ := isNaN_of_le sums
  rw [refilled_eq] at range rangeMore
  rw [refilled_eq, refilled_eq]
  rcases min_cases numberMore (isNaN_of_isFinite finite) with ⟨fits, same⟩ | ⟨-, same⟩
  · rw [same] at rangeMore ⊢
    have reached := Binary64.le_trans sums fits
    rcases min_cases number (isNaN_of_isFinite finite) with ⟨-, kept⟩ | ⟨beyond, -⟩
    · rw [kept] at range ⊢
      exact (le_iff_toRat range.finite rangeMore.finite).mp sums
    · exact absurd reached ((lt_iff_not_le (isNaN_of_isFinite finite) number).mp beyond)
  · rw [same]
    exact range.le

private theorem min_eq_capacity_iff {sum : Binary64} (finite : capacity.isFinite)
    (positive : 0 < capacity.toRat)
    (number : sum.isNaN = false) : min sum capacity = capacity ↔ capacity ≤ sum := by
  rcases min_cases number (isNaN_of_isFinite finite) with ⟨le, same⟩ | ⟨lt, same⟩
  · rw [same]
    constructor
    · rintro rfl
      exact le
    · intro reached
      exact (Binary64.le_antisymm finite positive reached le).symm
  · rw [same]
    exact ⟨fun _ => Binary64.le_of_lt lt, fun _ => rfl⟩

private theorem refilled_eq_capacity_iff (finite : capacity.isFinite) (positive : 0 < capacity.toRat)
    (rateFinite : rate.isFinite) (ratePositive : 0 ≤ rate.toRat) (word : millis ≤ UInt64.size)
    (tokens : Binary64) : refilled capacity rate tokens millis = capacity ↔
      capacity ≤ balance capacity tokens + gained rate millis := by
  have start := inRange_balance finite positive.le tokens
  rw [refilled_eq]
  refine min_eq_capacity_iff finite positive ?_
  rcases gained_cases rateFinite ratePositive word with gainedFinite | infinite
  · exact (rounds_add start.finite gainedFinite).isNaN
  · rw [infinite, add_infinite start.finite]
    rfl

/-- What an empty bucket catches up with in some time, any bucket does in more. -/
theorem refilled_eq_capacity_of_le (finite : capacity.isFinite) (positive : 0 < capacity.toRat)
    (rateFinite : rate.isFinite) (ratePositive : 0 ≤ rate.toRat) (word : more ≤ UInt64.size)
    (le : millis ≤ more) (empty : refilled capacity rate 0 millis = capacity) (tokens : Binary64) :
    refilled capacity rate tokens more = capacity := by
  rw [refilled_eq_capacity_iff finite positive rateFinite ratePositive (le.trans word)] at empty
  rw [refilled_eq_capacity_iff finite positive rateFinite ratePositive word]
  have start := inRange_balance finite positive.le tokens
  rw [balance_of_inRange finite (inRange_zero positive.le)] at empty
  refine Binary64.le_trans empty ?_
  exact add_le_add_gain isFinite_zero start.finite (by rw [toRat_zero]; exact start.nonneg)
    (gained_cases rateFinite ratePositive (le.trans word)) (gained_cases rateFinite ratePositive word)
    (gained_mono rateFinite ratePositive word le)

/-- A rate that lets in hardly more than the capacity fills any bucket. -/
theorem refilled_eq_capacity_of_rate {total : Nat} (holds : 0 < total) (word : total ≤ UInt64.size)
    (rateFinite : rate.isFinite) (ratePositive : 0 ≤ rate.toRat) (millisWord : millis ≤ UInt64.size)
    (enough : (1 + 1 / 2 ^ 50) * total ≤ rate.toRat * millis / 1000) (tokens : Binary64) :
    refilled (.ofNat total) rate tokens millis = .ofNat total := by
  have finite := isFinite_ofNat word
  have positive := zero_lt_one.trans_le (one_le_toRat_ofNat holds word)
  have one : (1 : ℚ) ≤ total := Nat.one_le_cast.mpr holds
  have tiny := least_tiny
  have start := inRange_balance finite positive.le tokens
  have startNonneg := start.nonneg
  obtain ⟨x, rounds, low, near⟩ := rounds_gained rateFinite ratePositive millisWord
  rw [refilled_eq_capacity_iff finite positive rateFinite ratePositive millisWord]
  rcases rounds.isFinite_or low with gainedFinite | infinite
  · refine (rounds_toRat finite).le (rounds_add start.finite gainedFinite) ?_
    have whole := ofNat_error word
    have error := rounds.error_le gainedFinite
    rw [abs_of_nonneg low] at error
    rw [abs_le] at whole error near
    linarith
  · rw [infinite, add_infinite start.finite]
    exact le_infinite (isNaN_of_isFinite finite)

/-- A rate that does not let in the capacity, or hardly less, does not fill an empty bucket. -/
theorem rate_of_refilled_eq_capacity {total : Nat} (holds : 0 < total) (word : total ≤ UInt64.size)
    (rateFinite : rate.isFinite) (ratePositive : 0 ≤ rate.toRat) (millisWord : millis ≤ UInt64.size)
    (empty : refilled (.ofNat total) rate 0 millis = .ofNat total) :
    total ≤ (1 + 1 / 2 ^ 50) * (rate.toRat * millis / 1000) := by
  have finite := isFinite_ofNat word
  have positive := zero_lt_one.trans_le (one_le_toRat_ofNat holds word)
  have one : (1 : ℚ) ≤ total := Nat.one_le_cast.mpr holds
  have tiny := least_tiny
  have whole := ofNat_error word
  obtain ⟨-, le⟩ := refilled_spec finite positive.le rateFinite ratePositive millisWord 0
  rw [empty, balance_of_inRange finite (inRange_zero positive.le), toRat_zero] at le
  rw [abs_le] at whole
  linarith

theorem refilled_capacity (finite : capacity.isFinite) (positive : 0 < capacity.toRat)
    (rateFinite : rate.isFinite) (ratePositive : 0 ≤ rate.toRat) :
    refilled capacity rate capacity 0 = capacity := by
  rw [refilled_eq_capacity_iff finite positive rateFinite ratePositive (Nat.zero_le _),
    balance_of_inRange finite (inRange_self finite positive.le)]
  obtain ⟨gainedFinite, nothing⟩ := gained_zero rateFinite ratePositive
  exact (rounds_toRat finite).le (rounds_add finite gainedFinite) (by rw [nothing, add_zero])

end Refill

section Charge

variable {limiter : Limiter} {bucket : Bucket} {permits : UInt64} {now : Timestamp}

theorem available_eq_capacity (fills : Fills limiter)
    (covers : capacityOf limiter ≤ bucket.available limiter now) :
    bucket.available limiter now = capacityOf limiter := by
  obtain ⟨finite, positive⟩ := fills.capacity
  have range := inRange_available fills bucket now
  exact (Binary64.le_antisymm finite positive covers ((le_iff_toRat range.finite finite).mpr range.le)).symm

theorem available_full (fills : Fills limiter) (now : Timestamp) :
    (full limiter now).available limiter now = capacityOf limiter := by
  obtain ⟨finite, positive⟩ := fills.capacity
  rw [available, Timestamp.since, full, Nat.sub_self]
  exact refilled_capacity finite positive fills.rate_finite fills.rate_nonneg

/-- No token comes in at a reading that a bucket has seen. -/
theorem toRat_available_of_seen (fills : Fills limiter) {tokens : Binary64} {stamp : Timestamp}
    (range : InRange (capacityOf limiter) tokens) (seen : now ≤ stamp) :
    (available limiter ⟨tokens, stamp⟩ now).toRat = tokens.toRat := by
  obtain ⟨finite, -⟩ := fills.capacity
  obtain ⟨gainedFinite, nothing⟩ := gained_zero fills.rate_finite fills.rate_nonneg
  have passed : now.since stamp = 0 := Nat.sub_eq_zero_of_le (UInt64.le_iff_toNat_le.mp seen)
  obtain ⟨sumFinite, same⟩ := toRat_add_of_zero range.finite gainedFinite nothing
  have kept : available limiter ⟨tokens, stamp⟩ now =
      min (tokens + gained limiter.refillRate 0) (capacityOf limiter) := by
    rw [available, passed, refilled_eq, balance_of_inRange finite range]
  rcases min_cases (isNaN_of_isFinite sumFinite) (isNaN_of_isFinite finite) with ⟨-, least⟩ | ⟨less, -⟩
  · rw [kept, least, same]
  · rw [lt_iff_toRat finite sumFinite, same] at less
    exact absurd range.le (not_le.mpr less)

/-- A bucket that is full by now is charged like one that was never seen. -/
theorem charge_eq_charge_none (fills : Fills limiter) (permits : UInt64) (earlier : bucket.lastRefill ≤ now)
    (again : bucket.available limiter now = capacityOf limiter) :
    charge limiter permits now (some bucket) = charge limiter permits now none := by
  have fresh := available_full fills now
  have stamp : max bucket.lastRefill now = max (full limiter now).lastRefill now := by
    rw [← UInt64.toNat_inj, Timestamp.toNat_max, Timestamp.toNat_max]
    rw [UInt64.le_iff_toNat_le] at earlier
    simp only [full]
    omega
  rw [charge_none]
  by_cases covered : Binary64.ofNat permits.toNat ≤ capacityOf limiter
  · rw [charge_covered (by rw [again]; exact covered), charge_covered (by rw [fresh]; exact covered),
      again, fresh, stamp]
  · rw [charge_not_covered (by rw [again]; exact covered), charge_not_covered (by rw [fresh]; exact covered),
      again, fresh, stamp]

/-- A request for the whole capacity drains a bucket that was never seen. -/
theorem charge_capacity (fills : Fills limiter) (now : Timestamp) :
    charge limiter limiter.capacity now none = ⟨⟨0, now⟩, true⟩ := by
  obtain ⟨finite, -⟩ := fills.capacity
  have fresh := available_full fills now
  rw [charge_none, charge_covered (by rw [fresh]; exact (le_iff_toRat finite finite).mpr le_rfl), fresh,
    Binary64.sub_self finite]
  simp only [full, Timestamp.max_self]

end Charge
end Admission.Bucket
