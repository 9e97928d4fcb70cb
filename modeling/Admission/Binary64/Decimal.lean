import Admission.Binary64.Arithmetic

namespace Admission

/-- The number `digits * 10 ^ exponent`. -/
structure Decimal where
  digits : Nat
  exponent : Int
  deriving DecidableEq, Repr

/-- Which of two decimals stands for a value half-way between them. -/
inductive HalfRule
  | up
  | even
  deriving DecidableEq, Repr

/-- Whether the greater decimal is taken, by the digits of the lesser one. -/
def HalfRule.goesUp (rule : HalfRule) (digits : Nat) : Bool :=
  match rule with
  | up => true
  | even => digits % 2 = 1

namespace Decimal

/-- How many digits a natural number has; zero has one. -/
def digitCount (n : Nat) : Nat :=
  (Nat.toDigits 10 n).length

/-- The nearest binary64 number. Far outside the range of finite values the power of ten
is not computed: the result is an infinity or a zero anyway. -/
def toBinary64 (d : Decimal) (negative : Bool) : Binary64 :=
  let width := digitCount d.digits + d.exponent
  if d.digits = 0 ∨ width < -330 then .ofIndex negative 0
  else if 310 < width then .infinite negative
  else if 0 ≤ d.exponent then
    .ofQuotient negative (Binary64.unitsPerOne * (d.digits * Nat.pow 10 d.exponent.toNat)) 1
  else
    .ofQuotient negative (Binary64.unitsPerOne * d.digits) (Nat.pow 10 d.exponent.natAbs)

/-- The value of the digits, scaled by a power of ten: each of the two steps rounds, so the
last place may be off by one. A power that is out of range itself is divided by in two steps.
What grows out of range has no value, and what shrinks out of it is zero. -/
def scaled? (d : Decimal) : Option Binary64 :=
  let digits := Binary64.ofNat d.digits
  let tenTo (n : Nat) := Binary64.ofNat (Nat.pow 10 n)
  let places := d.exponent.natAbs
  if d.digits = 0 then some 0
  else if 0 ≤ d.exponent then
    if places ≤ 308 then
      let product := digits * tenTo places
      if product.isFinite then some product else none
    else none
  else if places ≤ 308 then some (digits / tenTo places)
  else if places ≤ 616 then some (digits / tenTo 308 / tenTo (places - 308))
  else some 0

/-- The greatest decimal of an exponent that does not exceed a magnitude, and twice what is
left with the size of its last place, in common units. -/
def floorOf (magnitude : Nat) (exponent : Int) : Decimal × Nat × Nat :=
  let (numerator, place) :=
    if 0 ≤ exponent then (magnitude, Binary64.unitsPerOne * Nat.pow 10 exponent.toNat)
    else (magnitude * Nat.pow 10 exponent.natAbs, Binary64.unitsPerOne)
  (⟨numerator / place, exponent⟩, 2 * (numerator % place), place)

/-- The nearest decimal of an exponent among those that read back as the value. -/
def nearestAt? (rule : HalfRule) (index : Nat) (exponent : Int) : Option Decimal :=
  let (low, twiceLeft, place) := floorOf (Binary64.units index) exponent
  let high : Decimal := ⟨low.digits + 1, exponent⟩
  let readsBack (d : Decimal) : Bool := d.toBinary64 false = .ofIndex false index
  match readsBack low, readsBack high with
  | true, true =>
    if twiceLeft < place then some low
    else if place < twiceLeft then some high
    else some (if rule.goesUp low.digits then high else low)
  | true, false => some low
  | false, true => some high
  | false, false => none

def exactly (index : Nat) : Decimal :=
  ⟨Nat.pow 5 1074 * Binary64.units index, -1074⟩

/-- The exponent of ten just above a positive magnitude. -/
def leadingExponent (index : Nat) : Int :=
  digitCount (Nat.pow 10 330 * Binary64.units index / Binary64.unitsPerOne) - 330

/-- The first digit count from `17 - left` on at which some decimal reads back. -/
def shortestFrom (rule : HalfRule) (index : Nat) (leading : Int) : Nat → Decimal
  | 0 => exactly index
  | left + 1 =>
    match nearestAt? rule index (leading - (17 - left : Nat)) with
    | some found => found
    | none => shortestFrom rule index leading left

def dropZeros (d : Decimal) : Nat → Decimal
  | 0 => d
  | places + 1 =>
    if d.digits % 10 = 0 then dropZeros ⟨d.digits / 10, d.exponent + 1⟩ places else d

/-- The same number without zeros at the end of its digits. -/
def reduced (d : Decimal) : Decimal :=
  if d.digits = 0 then ⟨0, 0⟩ else dropZeros d (digitCount d.digits)

/-- The decimal with the fewest digits that reads back as a finite magnitude. -/
def shortest (rule : HalfRule) (index : Nat) : Decimal :=
  if index = 0 then ⟨0, 0⟩
  else (shortestFrom rule index (leadingExponent index) 17).reduced

/-- The digits with the point in its place and no exponent. -/
def plain (d : Decimal) : String :=
  let digits := toString d.digits
  if 0 ≤ d.exponent then digits ++ "".pushn '0' d.exponent.toNat
  else
    let places := d.exponent.natAbs
    let padded := "".pushn '0' (places + 1 - digits.length) ++ digits
    String.ofList (padded.toList.take (padded.length - places)) ++ "." ++
      String.ofList (padded.toList.drop (padded.length - places))

end Decimal

/-- The shortest digits that read back, written without an exponent; half-way the greater
ones are taken. -/
def Binary64.text : Binary64 → String
  | .nan => "NaN"
  | .infinite negative => if negative then "-inf" else "inf"
  | .finite negative index => (if negative then "-" else "") ++ (Decimal.shortest .up index).plain

end Admission
