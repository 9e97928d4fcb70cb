import Mathlib.Tactic.Linarith
import Admission.Meter.Window
import Admission.Proofs.Binary64.Error
import Admission.Proofs.Timestamp

/-! The weighted count of a sliding window. Main statements: the window before weighs between
nothing and all of its count, permits that fit by the estimate fit by the count, and permits that fit
by the counts of both windows fit by the estimate. -/
namespace Admission.Window

open Binary64

section Weight

variable {length into : Nat}

/-- What the window before weighs so many milliseconds into the current one. -/
def weight (length into : Nat) : Binary64 :=
  max ((.ofNat length - .ofNat into) / .ofNat length) 0

theorem weighted_eq (length : Nat) (now : Timestamp) (window : Window) : window.weighted length now =
    .ofNat window.previous.toNat * weight length (now.since window.start) +
      .ofNat window.current.toNat := rfl

/-- The share that is left is no more than one, and a finite number. -/
private theorem share_spec (positive : 0 < length) (lengthWord : length ≤ UInt64.size)
    (intoWord : into ≤ UInt64.size) :
    ((Binary64.ofNat length - .ofNat into) / .ofNat length).isFinite ∧
      ((Binary64.ofNat length - .ofNat into) / .ofNat length).toRat ≤ 1 := by
  have lengthFinite := isFinite_ofNat lengthWord
  have intoFinite := isFinite_ofNat intoWord
  have lengthLow := one_le_toRat_ofNat positive lengthWord
  have intoLow := toRat_ofNat_nonneg intoWord
  have rest := rounds_sub lengthFinite intoFinite
  have restFinite : (Binary64.ofNat length - .ofNat into).isFinite := by
    rcases le_total (Binary64.ofNat length).toRat (Binary64.ofNat into).toRat with shorter | longer
    · refine rest.isFinite_of_le intoFinite ?_
      rw [abs_of_nonpos (sub_nonpos.mpr shorter), abs_of_nonneg intoLow]
      linarith
    · refine rest.isFinite_of_le lengthFinite ?_
      rw [abs_of_nonneg (sub_nonneg.mpr longer), abs_of_nonneg (by linarith)]
      linarith
  have restHigh := rest.toRat_le (rounds_toRat lengthFinite) restFinite lengthFinite (by linarith)
  have quotient := rounds_div restFinite lengthFinite (by linarith)
  have finite : ((Binary64.ofNat length - .ofNat into) / .ofNat length).isFinite := by
    refine quotient.isFinite_of_le restFinite ?_
    rw [abs_div]
    exact div_le_self (abs_nonneg _) (lengthLow.trans (le_abs_self _))
  refine ⟨finite, ?_⟩
  have high := quotient.le_natCast finite (n := 1) (by decide) (by
    rw [Nat.cast_one]
    exact (div_le_one (by linarith)).mpr restHigh)
  rwa [Nat.cast_one] at high

theorem weight_spec (positive : 0 < length) (lengthWord : length ≤ UInt64.size)
    (intoWord : into ≤ UInt64.size) :
    (weight length into).isFinite ∧ 0 ≤ (weight length into).toRat ∧ (weight length into).toRat ≤ 1 := by
  obtain ⟨finite, high⟩ := share_spec positive lengthWord intoWord
  unfold weight
  rcases max_cases (isNaN_of_isFinite finite) (isNaN_of_isFinite isFinite_zero) with ⟨ge, same⟩ | ⟨lt, same⟩
  · rw [same]
    rw [le_iff_toRat isFinite_zero finite, toRat_zero] at ge
    exact ⟨finite, ge, high⟩
  · rw [same, toRat_zero]
    exact ⟨isFinite_zero, le_rfl, zero_le_one⟩

end Weight

section Fit

variable {limiter : Limiter} {window : Window} {now : Timestamp}

theorem lengthOf_le_size (limiter : Limiter) : lengthOf limiter ≤ UInt64.size := by
  have word := limiter.window.toMillis.toNat_lt
  simp only [lengthOf, UInt64.size]
  omega

/-- What the window before counts for. -/
def carried (limiter : Limiter) (now : Timestamp) (window : Window) : Binary64 :=
  .ofNat window.previous.toNat * weight (lengthOf limiter) (now.since window.start)

theorem carried_spec (limiter : Limiter) (now : Timestamp) (window : Window) :
    (carried limiter now window).isFinite ∧ 0 ≤ (carried limiter now window).toRat ∧
      (carried limiter now window).toRat ≤ (Binary64.ofNat window.previous.toNat).toRat := by
  obtain ⟨weightFinite, low, high⟩ := weight_spec (lengthOf_pos limiter) (lengthOf_le_size limiter)
    (Timestamp.since_le_size now window.start)
  have previousFinite := isFinite_ofNat window.previous.toNat_lt.le
  have previousLow := toRat_ofNat_nonneg window.previous.toNat_lt.le
  have product := rounds_mul previousFinite weightFinite
  have productLow := mul_nonneg previousLow low
  have productHigh := mul_le_of_le_one_right previousLow high
  have finite : (carried limiter now window).isFinite := by
    refine product.isFinite_of_le previousFinite ?_
    rw [abs_of_nonneg productLow, abs_of_nonneg previousLow]
    exact productHigh
  exact ⟨finite, product.nonneg finite productLow,
    product.toRat_le (rounds_toRat previousFinite) finite previousFinite productHigh⟩

private theorem rounds_weighted (limiter : Limiter) (now : Timestamp) (window : Window) :
    Rounds ((carried limiter now window).toRat + (Binary64.ofNat window.current.toNat).toRat)
      (window.weighted (lengthOf limiter) now) :=
  rounds_add (carried_spec limiter now window).1 (isFinite_ofNat window.current.toNat_lt.le)

private theorem min_le_toRat_ofNat {n limit : Nat} (word : n ≤ UInt64.size) (small : limit ≤ 2 * binade) :
    ((min n limit : Nat) : ℚ) ≤ (Binary64.ofNat n).toRat :=
  (rounds_ofNat n).natCast_le (isFinite_ofNat word) ((Nat.min_le_right n limit).trans small)
    (Nat.cast_le.mpr (Nat.min_le_left ..))

/-- Permits that fit below the limit by the estimate fit by the count: all but the last of them
leave the count below the limit. -/
theorem fits {permits : UInt64} (small : limiter.requests.toNat ≤ 2 * binade)
    (admits : window.weighted (lengthOf limiter) now + .ofNat (permits.toNat - 1) <
      .ofNat limiter.requests.toNat) :
    window.current.toNat + (permits.toNat - 1) < limiter.requests.toNat := by
  by_contra more
  obtain ⟨limitFinite, limitExact⟩ := ofNat_exact small
  have rounds := rounds_weighted limiter now window
  obtain ⟨-, carriedLow, -⟩ := carried_spec limiter now window
  have countWord := window.current.toNat_lt.le
  have othersWord : permits.toNat - 1 ≤ UInt64.size := (Nat.sub_le ..).trans permits.toNat_lt.le
  have othersFinite := isFinite_ofNat othersWord
  have countFinite := isFinite_ofNat countWord
  have count := min_le_toRat_ofNat countWord small
  have others := min_le_toRat_ofNat othersWord small
  have full : (limiter.requests.toNat : ℚ) ≤ (min window.current.toNat limiter.requests.toNat : Nat) +
      (min (permits.toNat - 1) limiter.requests.toNat : Nat) := by
    rw [← Nat.cast_add, Nat.cast_le]
    omega
  have nonneg := toRat_ofNat_nonneg countWord
  -- The estimate may be beyond all numbers, and then it is not below the limit either.
  rcases rounds.isFinite_or (add_nonneg carriedLow nonneg) with finite | infinite
  · have estimate := (rounds_toRat countFinite).toRat_le rounds countFinite finite (by linarith)
    have sum := rounds_add finite othersFinite
    have above := (rounds_ofNat limiter.requests.toNat).le sum (by linarith)
    obtain ⟨limitNumber, sumNumber⟩ := isNaN_of_le above
    exact (lt_iff_not_le sumNumber limitNumber).mp admits above
  · obtain ⟨s, i, value⟩ := exists_of_isFinite othersFinite
    rw [infinite, value] at admits
    exact not_infinite_lt limitFinite admits

/-- The estimate is no more than the counts of the two windows together. -/
theorem weighted_le (limiter : Limiter) (now : Timestamp)
    (fits : window.previous.toNat + window.current.toNat ≤ 2 * binade) :
    (window.weighted (lengthOf limiter) now).isFinite ∧
      (window.weighted (lengthOf limiter) now).toRat ≤
        (window.previous.toNat + window.current.toNat : Nat) := by
  have rounds := rounds_weighted limiter now window
  obtain ⟨-, low, high⟩ := carried_spec limiter now window
  obtain ⟨bothFinite, both⟩ := ofNat_exact fits
  rw [(ofNat_exact ((Nat.le_add_right ..).trans fits)).2] at high
  rw [(ofNat_exact ((Nat.le_add_left ..).trans fits)).2] at rounds
  have count : (0 : ℚ) ≤ window.current.toNat := Nat.cast_nonneg _
  have le : (carried limiter now window).toRat + window.current.toNat ≤
      (window.previous.toNat + window.current.toNat : Nat) := by
    rw [Nat.cast_add]
    linarith
  have finite : (window.weighted (lengthOf limiter) now).isFinite := by
    refine rounds.isFinite_of_le bothFinite ?_
    rw [both, Nat.abs_cast, abs_of_nonneg (by linarith)]
    exact le
  exact ⟨finite, rounds.le_natCast finite fits le⟩

theorem admits_of_le {permits : UInt64} (small : limiter.requests.toNat ≤ 2 * binade)
    (asks : 1 ≤ permits.toNat)
    (room : window.previous.toNat + window.current.toNat + permits.toNat ≤ limiter.requests.toNat) :
    window.weighted (lengthOf limiter) now + .ofNat (permits.toNat - 1) < .ofNat limiter.requests.toNat := by
  obtain ⟨limitFinite, limit⟩ := ofNat_exact small
  obtain ⟨finite, le⟩ := weighted_le limiter now
    (by omega : window.previous.toNat + window.current.toNat ≤ 2 * binade)
  obtain ⟨othersFinite, others⟩ := ofNat_exact (n := permits.toNat - 1) (by omega)
  obtain ⟨mostFinite, most⟩ := ofNat_exact
    (n := window.previous.toNat + window.current.toNat + (permits.toNat - 1)) (by omega)
  have sum := rounds_add finite othersFinite
  have below := sum.le (rounds_ofNat (window.previous.toNat + window.current.toNat + (permits.toNat - 1))) (by
    rw [others, Nat.cast_add]
    exact add_le_add_left le _)
  rw [lt_iff_not_le sum.isNaN (isNaN_of_isFinite limitFinite)]
  intro above
  have reached := (le_iff_toRat limitFinite mostFinite).mp (Binary64.le_trans above below)
  rw [limit, most, Nat.cast_le] at reached
  omega

end Fit
end Admission.Window
