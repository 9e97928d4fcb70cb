import Mathlib.Algebra.Order.Field.Rat
import Mathlib.Tactic.FieldSimp
import Mathlib.Tactic.GCongr
import Admission.Proofs.Binary64.Rounding

/-! Binary64 values as rational numbers. Main statements: every operation on finite values
rounds the exact result once, and rounding keeps the order. -/
namespace Admission.Binary64

/-- The least positive magnitude. -/
def least : ℚ := 1 / unitsPerOne

theorem least_pos : 0 < least :=
  one_div_pos.mpr (Nat.cast_pos.mpr unitsPerOne_pos)

theorem unitsPerOne_mul_least : (unitsPerOne : ℚ) * least = 1 :=
  mul_one_div_cancel (Nat.cast_ne_zero.mpr unitsPerOne_pos.ne')

def signed (negative : Bool) (magnitude : ℚ) : ℚ :=
  if negative then -magnitude else magnitude

@[simp] theorem signed_false (x : ℚ) : signed false x = x := rfl

@[simp] theorem signed_true (x : ℚ) : signed true x = -x := rfl

@[simp] theorem signed_zero (negative : Bool) : signed negative 0 = 0 := by
  cases negative <;> simp

@[simp] theorem abs_signed (negative : Bool) (x : ℚ) : |signed negative x| = |x| := by
  cases negative <;> simp

/-- The number that a finite value is. NaN and the infinities are no numbers and read as zero. -/
def toRat : Binary64 → ℚ
  | .finite negative index => signed negative (units index * least)
  | _ => 0

/-- A value that a number is rounded to. A zero may have either sign. -/
def Rounds (x : ℚ) (a : Binary64) : Prop :=
  ∃ (negative : Bool) (n d : Nat), 0 < d ∧ a = ofQuotient negative n d ∧
    x = signed negative ((n : ℚ) / d * least)

theorem exists_of_isFinite {a : Binary64} (finite : a.isFinite) :
    ∃ negative index, a = .finite negative index := by
  cases a with
  | nan => cases finite
  | infinite _ => cases finite
  | finite negative index => exact ⟨negative, index, rfl⟩

section Order

variable {a b : Binary64} {x y : ℚ}

theorem le_iff_place {p q : Int} (ha : a.place? = some p) (hb : b.place? = some q) :
    a ≤ b ↔ p ≤ q := by
  show Compares _ a b ↔ _
  simp [Compares, ha, hb]

private theorem lt_iff_place {p q : Int} (ha : a.place? = some p) (hb : b.place? = some q) :
    a < b ↔ p < q := by
  show Compares _ a b ↔ _
  simp [Compares, ha, hb]

theorem place?_ofIndex (negative : Bool) (index : Nat) : (ofIndex negative index).place? =
    some (if negative then -((min index infinityIndex : Nat) : Int) else (min index infinityIndex : Nat)) := by
  rcases Nat.lt_or_ge index infinityIndex with small | large
  · rw [ofIndex_of_lt negative small, Nat.min_eq_left small.le]
    rfl
  · rw [ofIndex_of_le negative large, Nat.min_eq_right large]
    rfl

private theorem place?_ofQuotient (negative : Bool) (n d : Nat) : (ofQuotient negative n d).place? =
    some (if negative then -((min (nearestIndex n d) infinityIndex : Nat) : Int)
      else (min (nearestIndex n d) infinityIndex : Nat)) :=
  place?_ofIndex ..

@[simp] theorem nearestIndex_zero (d : Nat) : nearestIndex 0 d = 0 := by
  simp [nearestIndex, roundHalfEven]

theorem quotient_nonneg (n d : Nat) : 0 ≤ (n : ℚ) / d * least := by
  have := least_pos
  positivity

private theorem quotient_le {n d m e : Nat} (dpos : 0 < d) (epos : 0 < e) :
    (n : ℚ) / d * least ≤ m / e * least ↔ n * e ≤ m * d := by
  have dq : (0 : ℚ) < d := Nat.cast_pos.mpr dpos
  have eq : (0 : ℚ) < e := Nat.cast_pos.mpr epos
  rw [mul_le_mul_iff_of_pos_right least_pos, div_le_div_iff₀ dq eq]
  exact_mod_cast Iff.rfl

private theorem quotient_le_zero {n d : Nat} (dpos : 0 < d) : (n : ℚ) / d * least ≤ 0 ↔ n = 0 := by
  simpa using quotient_le (n := n) (m := 0) dpos Nat.one_pos

/-- Rounding keeps the order. -/
theorem Rounds.le (first : Rounds x a) (second : Rounds y b) (le : x ≤ y) : a ≤ b := by
  obtain ⟨s, n, d, dpos, rfl, rfl⟩ := first
  obtain ⟨t, m, e, epos, rfl, rfl⟩ := second
  rw [le_iff_place (place?_ofQuotient ..) (place?_ofQuotient ..)]
  have low := quotient_nonneg n d
  have high := quotient_nonneg m e
  cases s <;> cases t <;>
    simp only [signed_false, signed_true, if_true, if_false, Bool.false_eq_true] at le ⊢
  · have ordered := nearestIndex_mono dpos epos ((quotient_le dpos epos).mp le)
    omega
  · have lowZero : n = 0 := (quotient_le_zero dpos).mp (by linarith)
    have highZero : m = 0 := (quotient_le_zero epos).mp (by linarith)
    subst lowZero highZero
    simp
  · omega
  · have ordered := nearestIndex_mono epos dpos ((quotient_le epos dpos).mp (neg_le_neg_iff.mp le))
    omega

theorem rounds_toRat (finite : a.isFinite) : Rounds a.toRat a := by
  obtain ⟨negative, index, rfl⟩ := exists_of_isFinite finite
  refine ⟨negative, units index, 1, Nat.one_pos, ?_, by simp [toRat]⟩
  have same := nearestIndex_units index.val Nat.one_pos
  rw [Nat.mul_one] at same
  rw [ofQuotient, same, ofIndex_of_lt negative index.isLt]

theorem le_iff_exists_places : a ≤ b ↔ ∃ p q, a.place? = some p ∧ b.place? = some q ∧ p ≤ q := by
  show Compares _ a b ↔ _
  unfold Compares
  split <;> simp_all

protected theorem le_trans {c : Binary64} (first : a ≤ b) (second : b ≤ c) : a ≤ c := by
  obtain ⟨p, q, hp, hq, low⟩ := le_iff_exists_places.mp first
  obtain ⟨q', r, hq', hr, high⟩ := le_iff_exists_places.mp second
  have same : q = q' := Option.some.inj (hq.symm.trans hq')
  exact (le_iff_place hp hr).mpr (by omega)

/-- The comparisons are total except for NaN. -/
protected theorem not_lt (ha : a.isNaN = false) (hb : b.isNaN = false) : ¬ a < b ↔ b ≤ a := by
  obtain ⟨p, hp⟩ : ∃ p, a.place? = some p := by cases a <;> simp_all [place?, isNaN]
  obtain ⟨q, hq⟩ : ∃ q, b.place? = some q := by cases b <;> simp_all [place?, isNaN]
  rw [lt_iff_place hp hq, le_iff_place hq hp, Int.not_lt]

theorem lt_iff_not_le (ha : a.isNaN = false) (hb : b.isNaN = false) : a < b ↔ ¬ b ≤ a := by
  rw [← Binary64.not_lt ha hb, not_not]

theorem isNaN_of_isFinite (finite : a.isFinite) : a.isNaN = false := by
  cases a <;> simp_all [isFinite, isNaN]

private theorem toRat_eq_of_place (ha : a.isFinite) (hb : b.isFinite) (same : a.place? = b.place?) :
    a.toRat = b.toRat := by
  obtain ⟨s, i, rfl⟩ := exists_of_isFinite ha
  obtain ⟨t, j, rfl⟩ := exists_of_isFinite hb
  simp only [place?, Option.some.injEq] at same
  by_cases signs : s = t
  · subst signs
    rw [show i = j by split at same <;> omega]
  · have zeros : i.val = 0 ∧ j.val = 0 := by
      cases s <;> cases t <;> simp only [if_true, if_false, Bool.false_eq_true, not_true] at same signs
      all_goals omega
    simp [toRat, zeros]

theorem le_iff_toRat (ha : a.isFinite) (hb : b.isFinite) : a ≤ b ↔ a.toRat ≤ b.toRat := by
  constructor
  · intro le
    by_contra greater
    have back := (rounds_toRat hb).le (rounds_toRat ha) (by linarith)
    obtain ⟨p, q, hp, hq, low⟩ := le_iff_exists_places.mp le
    rw [le_iff_place hq hp] at back
    have same : a.place? = b.place? := by rw [hp, hq, show p = q by omega]
    linarith [toRat_eq_of_place ha hb same]
  · exact (rounds_toRat ha).le (rounds_toRat hb)

theorem lt_iff_toRat (ha : a.isFinite) (hb : b.isFinite) : a < b ↔ a.toRat < b.toRat := by
  rw [← not_le, ← le_iff_toRat hb ha,
    lt_iff_not_le (isNaN_of_isFinite ha) (isNaN_of_isFinite hb)]

/-- What is rounded to lies within the bounds that finite values give. -/
theorem Rounds.isFinite_of_le (rounds : Rounds x a) (hb : b.isFinite) (bound : |x| ≤ |b.toRat|) :
    a.isFinite := by
  obtain ⟨s, n, d, dpos, rfl, rfl⟩ := rounds
  obtain ⟨t, index, rfl⟩ := exists_of_isFinite hb
  have low := quotient_nonneg n d
  have high := quotient_nonneg (units index) 1
  simp only [Nat.cast_one, div_one] at high
  simp only [toRat, abs_signed, abs_of_nonneg low, abs_of_nonneg high] at bound
  have ordered := nearestIndex_mono (m := units index) dpos Nat.one_pos
    ((quotient_le dpos Nat.one_pos).mp (by simpa using bound))
  have same := nearestIndex_units index.val Nat.one_pos
  rw [Nat.mul_one] at same
  rw [ofQuotient, ofIndex_of_lt s (by omega : nearestIndex n d < infinityIndex)]
  rfl

theorem Rounds.toRat_le (first : Rounds x a) (second : Rounds y b) (ha : a.isFinite) (hb : b.isFinite)
    (le : x ≤ y) : a.toRat ≤ b.toRat :=
  (le_iff_toRat ha hb).mp (first.le second le)

theorem Rounds.toRat_eq (rounds : Rounds b.toRat a) (hb : b.isFinite) : a.isFinite ∧ a.toRat = b.toRat := by
  have finite := rounds.isFinite_of_le hb le_rfl
  exact ⟨finite, le_antisymm (rounds.toRat_le (rounds_toRat hb) finite hb le_rfl)
    ((rounds_toRat hb).toRat_le rounds hb finite le_rfl)⟩

/-- A number that is not negative is rounded to a finite value or up to infinity. -/
theorem Rounds.isFinite_or (rounds : Rounds x a) (nonneg : 0 ≤ x) : a.isFinite ∨ a = .infinite false := by
  obtain ⟨s, n, d, dpos, rfl, rfl⟩ := rounds
  rcases Nat.lt_or_ge (nearestIndex n d) infinityIndex with small | large
  · exact .inl (by rw [ofQuotient, ofIndex_of_lt s small]; rfl)
  · right
    cases s with
    | false => exact ofIndex_of_le false large
    | true =>
      have zero : n = 0 := (quotient_le_zero dpos).mp (by simpa using nonneg)
      rw [zero, nearestIndex_zero] at large
      exact absurd large (by decide)

theorem Rounds.lt_of_infinite (rounds : Rounds x a) (infinite : a = .infinite false) (nonneg : 0 ≤ x)
    (hb : b.isFinite) (positive : 0 ≤ b.toRat) : b.toRat < x := by
  by_contra within
  have finite : a.isFinite := by
    refine rounds.isFinite_of_le hb ?_
    rw [abs_of_nonneg nonneg, abs_of_nonneg positive]
    exact not_lt.mp within
  rw [infinite] at finite
  cases finite

theorem isFinite_of_between {c : Binary64} (ha : a.isFinite) (hc : c.isFinite) (low : a ≤ b) (high : b ≤ c) :
    b.isFinite := by
  obtain ⟨s, i, rfl⟩ := exists_of_isFinite ha
  obtain ⟨t, j, rfl⟩ := exists_of_isFinite hc
  cases b with
  | nan => exact absurd high (not_compares_nan _ _).1
  | finite negative index => rfl
  | infinite negative =>
    rw [le_iff_place rfl rfl] at low high
    cases negative <;> split_ifs at low high <;> omega

theorem min_cases (ha : a.isNaN = false) (hb : b.isNaN = false) :
    a ≤ b ∧ min a b = a ∨ b < a ∧ min a b = b := by
  show _ ∨ _ ∧ Binary64.min a b = b
  rcases em (b < a) with less | more
  · exact .inr ⟨less, by simp [Binary64.min, ha, hb, less]⟩
  · exact .inl ⟨(Binary64.not_lt hb ha).mp more, show Binary64.min a b = a by
      simp [Binary64.min, ha, hb, more]⟩

theorem max_cases (ha : a.isNaN = false) (hb : b.isNaN = false) :
    b ≤ a ∧ max a b = a ∨ a < b ∧ max a b = b := by
  show _ ∨ _ ∧ Binary64.max a b = b
  rcases em (a < b) with less | more
  · exact .inr ⟨less, by simp [Binary64.max, ha, hb, less]⟩
  · exact .inl ⟨(Binary64.not_lt ha hb).mp more, show Binary64.max a b = a by
      simp [Binary64.max, ha, hb, more]⟩

theorem toRat_clamp {low high : Binary64} (ha : a.isFinite) (lowFinite : low.isFinite)
    (highFinite : high.isFinite) (ordered : low.toRat ≤ high.toRat) : (a.clamp low high).isFinite ∧
      (a.clamp low high).toRat = max low.toRat (min a.toRat high.toRat) := by
  unfold clamp
  simp only [lt_iff_toRat ha lowFinite, lt_iff_toRat highFinite ha]
  split_ifs with below above
  · exact ⟨lowFinite, (max_eq_left ((min_le_left ..).trans below.le)).symm⟩
  · exact ⟨highFinite, by rw [min_eq_right above.le, max_eq_right ordered]⟩
  · exact ⟨ha, by rw [min_eq_left (not_lt.mp above), max_eq_right (not_lt.mp below)]⟩

private theorem finite_lt_infinite (negative : Bool) (index : Fin infinityIndex) :
    finite negative index < infinite false := by
  have bound : (index.val : Int) < infinityIndex := Int.ofNat_lt.mpr index.isLt
  have top : (infinite false).place? = some (infinityIndex : Int) := rfl
  rw [lt_iff_place rfl top]
  split_ifs <;> omega

theorem min_infinite (hb : b.isFinite) : min (infinite false) b = b := by
  obtain ⟨negative, index, rfl⟩ := exists_of_isFinite hb
  exact if_pos (finite_lt_infinite negative index)

theorem not_infinite_lt (hb : b.isFinite) : ¬ infinite false < b := by
  obtain ⟨negative, index, rfl⟩ := exists_of_isFinite hb
  have below := finite_lt_infinite negative index
  have top : (infinite false).place? = some (infinityIndex : Int) := rfl
  rw [lt_iff_place rfl top] at below
  rw [lt_iff_place top rfl]
  exact not_lt.mpr below.le

theorem not_infinite_le (hb : b.isFinite) : ¬ infinite false ≤ b := by
  obtain ⟨negative, index, rfl⟩ := exists_of_isFinite hb
  exact (lt_iff_not_le rfl rfl).mp (finite_lt_infinite negative index)

protected theorem le_of_lt (lt : a < b) : a ≤ b := by
  have lt' : Compares _ a b := lt
  show Compares _ a b
  unfold Compares at *
  split at lt'
  · exact Int.le_of_lt lt'
  · exact lt'.elim

theorem isNaN_of_le (le : a ≤ b) : a.isNaN = false ∧ b.isNaN = false := by
  obtain ⟨p, q, hp, hq, -⟩ := le_iff_exists_places.mp le
  constructor
  · cases a <;> simp_all [place?, isNaN]
  · cases b <;> simp_all [place?, isNaN]

theorem Rounds.isNaN (rounds : Rounds x a) : a.isNaN = false := by
  obtain ⟨s, n, d, -, rfl, -⟩ := rounds
  exact isNaN_ofIndex ..

theorem le_infinite (ha : a.isNaN = false) : a ≤ infinite false := by
  cases a with
  | nan => cases ha
  | infinite negative => cases negative <;> decide
  | finite negative index =>
    exact (Binary64.not_lt rfl rfl).mp (not_infinite_lt rfl)

theorem add_infinite (ha : a.isFinite) : a + infinite false = infinite false := by
  obtain ⟨negative, index, rfl⟩ := exists_of_isFinite ha
  rfl

/-- A positive value is the only one at its place. -/
protected theorem le_antisymm (ha : a.isFinite) (positive : 0 < a.toRat) (first : a ≤ b) (second : b ≤ a) :
    a = b := by
  obtain ⟨negative, index, rfl⟩ := exists_of_isFinite ha
  have sign : negative = false := by
    cases negative with
    | false => rfl
    | true =>
      have high := quotient_nonneg (units index) 1
      simp only [toRat, signed_true, Nat.cast_one, div_one] at positive high
      linarith
  subst sign
  have nonzero : 0 < index.val := by
    refine Nat.pos_of_ne_zero fun zero => ?_
    simp [toRat, zero] at positive
  obtain ⟨p, q, hp, hq, le⟩ := le_iff_exists_places.mp first
  rw [le_iff_place hq hp] at second
  have same : p = q := by omega
  cases hp
  cases b with
  | nan => cases hq
  | infinite negative =>
    simp only [place?, Option.some.injEq] at hq
    have bound := index.isLt
    cases negative <;> simp only [if_true, if_false, Bool.false_eq_true] at hq same <;> omega
  | finite negative other =>
    simp only [place?, Option.some.injEq] at hq
    cases negative with
    | true =>
      simp only [if_true, if_false, Bool.false_eq_true] at hq same
      omega
    | false =>
      simp only [if_false, Bool.false_eq_true] at hq same
      rw [show index = other by omega]

end Order

section Operations

variable {a b : Binary64}

theorem rounds_ofNat (n : Nat) : Rounds n (ofNat n) := by
  refine ⟨false, unitsPerOne * n, 1, Nat.one_pos, rfl, ?_⟩
  rw [signed_false, Nat.cast_mul, Nat.cast_one, div_one, mul_right_comm, unitsPerOne_mul_least, one_mul]

private theorem signed_natAbs (k : Int) : signed (decide (k < 0)) k.natAbs = (k : ℚ) := by
  rcases Int.lt_or_le k 0 with negative | nonneg
  · have magnitude : ((k.natAbs : Int) : ℚ) = ((-k : Int) : ℚ) := by
      congr 1
      omega
    simpa [negative] using congrArg Neg.neg magnitude
  · have magnitude : ((k.natAbs : Int) : ℚ) = (k : ℚ) := by
      congr 1
      omega
    simpa [not_lt.mpr nonneg] using magnitude

private theorem signed_mul (negative : Bool) (x y : ℚ) : signed negative x * y = signed negative (x * y) := by
  cases negative <;> simp

theorem toRat_finite (negative : Bool) (index : Fin infinityIndex) :
    toRat (.finite negative index) = signedUnits negative index * least := by
  cases negative <;> simp [toRat, signedUnits]

theorem rounds_add (ha : a.isFinite) (hb : b.isFinite) : Rounds (a.toRat + b.toRat) (a + b) := by
  obtain ⟨s, i, rfl⟩ := exists_of_isFinite ha
  obtain ⟨t, j, rfl⟩ := exists_of_isFinite hb
  rw [toRat_finite, toRat_finite, ← add_mul, ← Int.cast_add]
  show Rounds _ (if signedUnits s i + signedUnits t j = 0 then _ else _)
  generalize signedUnits s i + signedUnits t j = sum
  split_ifs with cancels
  · exact ⟨s && t, 0, 1, Nat.one_pos, by rw [ofQuotient, nearestIndex_zero],
      by cases s <;> cases t <;> simp [cancels]⟩
  · refine ⟨decide (sum < 0), sum.natAbs, 1, Nat.one_pos, rfl, ?_⟩
    rw [Nat.cast_one, div_one, ← signed_mul, signed_natAbs]

theorem rounds_mul (ha : a.isFinite) (hb : b.isFinite) : Rounds (a.toRat * b.toRat) (a * b) := by
  obtain ⟨s, i, rfl⟩ := exists_of_isFinite ha
  obtain ⟨t, j, rfl⟩ := exists_of_isFinite hb
  refine ⟨s ^^ t, units i * units j, unitsPerOne, unitsPerOne_pos, rfl, ?_⟩
  have product : (units i * least) * (units j * least) =
      ((units i * units j : Nat) : ℚ) / unitsPerOne * least := by
    rw [Nat.cast_mul, least]
    ring
  rw [← product]
  cases s <;> cases t <;> simp [toRat]

theorem rounds_div (ha : a.isFinite) (hb : b.isFinite) (nonzero : b.toRat ≠ 0) :
    Rounds (a.toRat / b.toRat) (a / b) := by
  obtain ⟨s, i, rfl⟩ := exists_of_isFinite ha
  obtain ⟨t, j, rfl⟩ := exists_of_isFinite hb
  have divides : j.val ≠ 0 := by
    intro zero
    apply nonzero
    simp [toRat, zero]
  have divisor : units j ≠ 0 := fun zero => divides (units_eq_zero.mp zero)
  refine ⟨s ^^ t, unitsPerOne * units i, units j, Nat.pos_of_ne_zero divisor, ?_, ?_⟩
  · show (if j.val = 0 then _ else _) = _
    rw [if_neg divides]
  · have quotient : (units i * least) / (units j * least) =
        ((unitsPerOne * units i : Nat) : ℚ) / units j * least := by
      rw [mul_div_mul_right _ _ least_pos.ne', Nat.cast_mul, mul_div_assoc, mul_right_comm,
        unitsPerOne_mul_least, one_mul]
    rw [← quotient]
    cases s <;> cases t <;> simp [toRat, div_neg, neg_div]

theorem toRat_div_infinite (ha : a.isFinite) (negative : Bool) : (a / infinite negative).toRat = 0 := by
  obtain ⟨sign, index, rfl⟩ := exists_of_isFinite ha
  show toRat (ofIndex (sign ^^ negative) 0) = 0
  rw [ofIndex_of_lt _ (by decide), toRat, units_zero, Nat.cast_zero, zero_mul, signed_zero]

@[simp] theorem isFinite_neg : (-a).isFinite = a.isFinite := by
  cases a <;> rfl

@[simp] theorem toRat_neg : (-a).toRat = -a.toRat := by
  cases a with
  | nan => rfl
  | infinite _ => rfl
  | finite s i =>
    show signed (!s) _ = -signed s _
    cases s <;> simp

theorem rounds_sub (ha : a.isFinite) (hb : b.isFinite) : Rounds (a.toRat - b.toRat) (a - b) := by
  have sum := rounds_add ha (b := -b) (by simpa using hb)
  rwa [toRat_neg, ← sub_eq_add_neg] at sum

theorem toRat_add_of_zero (ha : a.isFinite) (hb : b.isFinite) (zero : b.toRat = 0) :
    (a + b).isFinite ∧ (a + b).toRat = a.toRat := by
  have sum := rounds_add ha hb
  rw [zero, add_zero] at sum
  exact sum.toRat_eq ha

protected theorem sub_self (ha : a.isFinite) : a - a = 0 := by
  obtain ⟨negative, index, rfl⟩ := exists_of_isFinite ha
  have zero : (0 : Binary64) = ofIndex false 0 := by
    show ofQuotient false (unitsPerOne * 0) 1 = _
    rw [Nat.mul_zero, ofQuotient, nearestIndex_zero]
  have cancels : signedUnits negative index + signedUnits (!negative) index = 0 := by
    cases negative <;> simp [signedUnits]
  show (if signedUnits negative index + signedUnits (!negative) index = 0 then _ else _) = _
  rw [if_pos cancels, zero, Bool.and_not_self]

/-- Nothing taken off leaves a value as it is, and a zero with its sign. -/
protected theorem sub_zero (ha : a.isFinite) : a - 0 = a := by
  obtain ⟨negative, index, rfl⟩ := exists_of_isFinite ha
  have zero : (0 : Binary64) = .finite false ⟨0, by decide⟩ := rfl
  have sum : signedUnits negative index + signedUnits true 0 = signedUnits negative index := Int.add_zero _
  have same := nearestIndex_units index.val Nat.one_pos
  rw [Nat.mul_one] at same
  rw [zero]
  show (if signedUnits negative index + signedUnits true 0 = 0 then ofIndex (negative && true) 0
    else ofQuotient (decide (signedUnits negative index + signedUnits true 0 < 0))
      (signedUnits negative index + signedUnits true 0).natAbs 1) = _
  rw [sum, Bool.and_true]
  split_ifs with nothing
  · have first : index.val = 0 := by cases negative <;> simpa [signedUnits, units_eq_zero] using nothing
    rw [← first, ofIndex_of_lt negative index.isLt]
  · have magnitude : (signedUnits negative index).natAbs = units index := by
      cases negative <;> simp [signedUnits]
    have sign : decide (signedUnits negative index < 0) = negative := by
      cases negative with
      | false => simp [signedUnits]
      | true =>
        simp [signedUnits] at nothing ⊢
        exact Nat.pos_of_ne_zero nothing
    rw [magnitude, sign, ofQuotient, same, ofIndex_of_lt negative index.isLt]

end Operations
end Admission.Binary64
