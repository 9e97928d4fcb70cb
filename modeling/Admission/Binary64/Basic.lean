namespace Admission

/-- How many magnitudes share an exponent. The first of them is the leading digit alone, so
this is also what the leading digit of a significand counts. -/
abbrev Binary64.binade : Nat := 0x10000000000000

/-- The bit pattern of infinity without its sign; every smaller one is finite. -/
abbrev infinityIndex : Nat := 2047 * Binary64.binade

/-- A binary64 value. All NaN patterns are one value. -/
inductive Binary64
  | nan
  | infinite (negative : Bool)
  | finite (negative : Bool) (index : Fin infinityIndex)
  deriving DecidableEq, Repr, Inhabited

namespace Binary64

/-- The magnitude with pattern `index`, counted in the least positive magnitude `2 ^ (-1074)`. -/
def units (index : Nat) : Nat :=
  if index < binade then index
  else (binade + index % binade) <<< (index / binade - 1)

/-- One, counted in the least positive magnitude. -/
abbrev unitsPerOne : Nat := 1 <<< 1074

/-- The bit of a pattern that makes it negative. -/
abbrev signBit : Nat := 0x8000000000000000

/-- The quotient rounded to the nearest integer, a half to the even neighbour. -/
def roundHalfEven (numerator denominator : Nat) : Nat :=
  let quotient := numerator / denominator
  let rest := 2 * (numerator % denominator)
  if rest < denominator then quotient
  else if denominator < rest then quotient + 1
  else quotient + quotient % 2

/-- The pattern nearest to a quotient counted in least positive magnitudes. Only 53 digits
of the quotient are kept, and a carry out of them is the next pattern as it stands. -/
def nearestIndex (numerator denominator : Nat) : Nat :=
  let shift := (numerator / denominator / binade).log2
  binade * shift + roundHalfEven numerator (denominator <<< shift)

/-- The value of a pattern; from the pattern of infinity on there is only infinity. -/
def ofIndex (negative : Bool) (index : Nat) : Binary64 :=
  if h : index < infinityIndex then .finite negative ⟨index, h⟩ else .infinite negative

/-- The value nearest to a quotient counted in least positive magnitudes. -/
def ofQuotient (negative : Bool) (numerator denominator : Nat) : Binary64 :=
  ofIndex negative (nearestIndex numerator denominator)

def ofNat (n : Nat) : Binary64 :=
  ofQuotient false (unitsPerOne * n) 1

instance (n : Nat) : OfNat Binary64 n := ⟨ofNat n⟩

/-- Neither NaN nor an infinity. -/
def isFinite : Binary64 → Bool
  | .finite .. => true
  | _ => false

def isNaN : Binary64 → Bool
  | .nan => true
  | _ => false

/-- A finite value counted in least positive magnitudes, with its sign. -/
def signedUnits (negative : Bool) (index : Nat) : Int :=
  if negative then -(units index : Int) else units index

/-- The place of a value in the order of all values; NaN has none. Both zeros share theirs. -/
def place? : Binary64 → Option Int
  | .nan => none
  | .infinite negative => some (if negative then -infinityIndex else infinityIndex)
  | .finite negative index => some (if negative then -(index.val : Int) else index.val)

/-- `relation` holds of the places of two values; never if one is NaN. -/
def Compares (relation : Int → Int → Prop) (a b : Binary64) : Prop :=
  match a.place?, b.place? with
  | some x, some y => relation x y
  | _, _ => False

instance (relation : Int → Int → Prop) [∀ x y, Decidable (relation x y)] (a b : Binary64) :
    Decidable (Compares relation a b) := by
  unfold Compares
  split <;> infer_instance

instance : LT Binary64 := ⟨Compares (· < ·)⟩
instance : LE Binary64 := ⟨Compares (· ≤ ·)⟩
instance (a b : Binary64) : Decidable (a < b) := inferInstanceAs (Decidable (Compares _ a b))
instance (a b : Binary64) : Decidable (a ≤ b) := inferInstanceAs (Decidable (Compares _ a b))

/-- The greater of two values; a NaN gives way to the other one. -/
protected def max (a b : Binary64) : Binary64 :=
  if a.isNaN then b else if b.isNaN then a else if a < b then b else a

protected def min (a b : Binary64) : Binary64 :=
  if a.isNaN then b else if b.isNaN then a else if b < a then b else a

instance : Max Binary64 := ⟨Binary64.max⟩
instance : Min Binary64 := ⟨Binary64.min⟩

/-- The nearest value between two bounds; NaN stays NaN. -/
def clamp (a low high : Binary64) : Binary64 :=
  if a < low then low else if high < a then high else a

/-- The 64-bit pattern; NaN has the positive quiet one. -/
def toBits : Binary64 → UInt64
  | .nan => 0x7ff8000000000000
  | .infinite negative => UInt64.ofNat (infinityIndex + if negative then signBit else 0)
  | .finite negative index => UInt64.ofNat (index.val + if negative then signBit else 0)

def ofBits (bits : UInt64) : Binary64 :=
  let negative := decide (signBit ≤ bits.toNat)
  let index := bits.toNat % signBit
  if index ≤ infinityIndex then ofIndex negative index else .nan

@[simp] theorem isFinite_finite (negative : Bool) (index : Fin infinityIndex) :
    (Binary64.finite negative index).isFinite = true := rfl

@[simp] theorem isNaN_ofIndex (negative : Bool) (index : Nat) :
    (ofIndex negative index).isNaN = false := by
  unfold ofIndex
  split <;> rfl

theorem ofIndex_of_lt (negative : Bool) {index : Nat} (small : index < infinityIndex) :
    ofIndex negative index = .finite negative ⟨index, small⟩ := by
  simp [ofIndex, small]

theorem ofIndex_of_le (negative : Bool) {index : Nat} (large : infinityIndex ≤ index) :
    ofIndex negative index = .infinite negative := by
  simp [ofIndex, Nat.not_lt.mpr large]

theorem roundHalfEven_mul (quotient : Nat) {denominator : Nat} (positive : 0 < denominator) :
    roundHalfEven (quotient * denominator) denominator = quotient := by
  simp [roundHalfEven, Nat.mul_div_cancel _ positive, positive]

theorem not_compares_nan (relation : Int → Int → Prop) (a : Binary64) :
    ¬ Compares relation .nan a ∧ ¬ Compares relation a .nan := by
  refine ⟨by simp [Compares, place?], ?_⟩
  cases a <;> simp [Compares, place?]

end Binary64
end Admission
