import Admission.Binary64.Decimal

/-! The numerals of JSON. A numeral keeps its digits as they are written until a reader says
what number it wants. An integer is a numeral with neither a point nor an exponent. -/
namespace Admission.Json

structure Numeral where
  negative : Bool := false
  /-- The digits before the point, at least one. -/
  whole : List Char
  /-- The digits after the point; none if there is no point. -/
  fraction : List Char := []
  exponent? : Option Int := none
  deriving DecidableEq, Repr

/-- What number a numeral stands for, if any. Readers differ in how they round. -/
abbrev NumberReader := Numeral → Option Binary64

/-- The digits at the front of a text, at least one, and what follows. -/
def digits? (text : List Char) : Option (List Char × List Char) :=
  match text.takeWhile Char.isDigit with
  | [] => none
  | digits => some (digits, text.dropWhile Char.isDigit)

namespace Numeral

/-- The digits after a point, if there is a point. -/
def fraction? : List Char → Option (List Char × List Char)
  | '.' :: text => digits? text
  | text => some ([], text)

def signed? : List Char → Option (Int × List Char)
  | '-' :: text =>
    (digits? text).map fun (digits, rest) => (-(Nat.ofDigitChars 10 digits 0 : Int), rest)
  | '+' :: text =>
    (digits? text).map fun (digits, rest) => ((Nat.ofDigitChars 10 digits 0 : Int), rest)
  | text =>
    (digits? text).map fun (digits, rest) => ((Nat.ofDigitChars 10 digits 0 : Int), rest)

/-- The exponent, if there is one. -/
def exponentAt? : List Char → Option (Option Int × List Char)
  | 'e' :: text | 'E' :: text =>
    (signed? text).map fun (exponent, rest) => (some exponent, rest)
  | text => some (none, text)

/-- The numeral without its sign: digits that start with zero only if it is the only one,
then perhaps a fraction, then perhaps an exponent. -/
def unsigned? (negative : Bool) (text : List Char) : Option (Numeral × List Char) := do
  let (whole, text) ← digits? text
  if whole.head? = some '0' ∧ 1 < whole.length then none
  else
    let (fraction, text) ← fraction? text
    let (exponent?, text) ← exponentAt? text
    some ({ negative, whole, fraction, exponent? }, text)

def read? : List Char → Option (Numeral × List Char)
  | '-' :: text => unsigned? true text
  | text => unsigned? false text

def text (numeral : Numeral) : String :=
  (if numeral.negative then "-" else "") ++ String.ofList numeral.whole ++
    (if numeral.fraction.isEmpty then "" else "." ++ String.ofList numeral.fraction) ++
    match numeral.exponent? with
    | some exponent => "e" ++ toString exponent
    | none => ""

/-- Neither a point nor an exponent. -/
def isInteger (numeral : Numeral) : Bool :=
  numeral.fraction.isEmpty && numeral.exponent?.isNone

/-- The 64-bit word of an integer without a sign. -/
def toUInt64? (numeral : Numeral) : Option UInt64 :=
  let word := Nat.ofDigitChars 10 numeral.whole 0
  if numeral.isInteger ∧ ¬ numeral.negative ∧ word < UInt64.size then some (.ofNat word) else none

/-- The number with all its digits, up to the sign. -/
def decimal (numeral : Numeral) : Decimal :=
  ⟨Nat.ofDigitChars 10 (numeral.whole ++ numeral.fraction) 0,
    numeral.exponent?.getD 0 - numeral.fraction.length⟩

/-- The binary64 number nearest to all the digits. -/
def nearest (numeral : Numeral) : Binary64 :=
  numeral.decimal.toBinary64 numeral.negative

/-- Appends digits to a number up to the first one that makes it too great for a word, and
gives the others back. -/
def appendWhileWord (word : Nat) : List Char → Nat × List Char
  | [] => (word, [])
  | digit :: rest =>
    let next := Nat.ofDigitChars 10 [digit] word
    if next < UInt64.size then appendWhileWord next rest else (word, digit :: rest)

/-- The number with as many digits as a word holds, up to the sign. Digits before the point
that are left out count as zeros, and those after it do not count. -/
def short (numeral : Numeral) : Decimal :=
  let (word, left) := appendWhileWord 0 numeral.whole
  let (word, dropped) := appendWhileWord word numeral.fraction
  ⟨word, numeral.exponent?.getD 0 + left.length - (numeral.fraction.length - dropped.length : Nat)⟩

/-- The binary64 number of a reader that keeps a word of digits and scales it. It may be a
neighbour of the nearest one, and there is none out of range. -/
def toBinary64? (numeral : Numeral) : Option Binary64 :=
  numeral.short.scaled?.map fun number => if numeral.negative then -number else number

def ofNat (n : Nat) : Numeral :=
  { whole := Nat.toDigits 10 n }

def ofUInt64 (word : UInt64) : Numeral :=
  ofNat word.toNat

/-- A decimal as it is written: with a point and digits on both of its sides if at most 16
digits come before it and at most four zeros right after it, and with an exponent and one
digit before the point otherwise. -/
def ofDecimal (negative : Bool) (d : Decimal) : Numeral :=
  let digits := Nat.toDigits 10 d.digits
  let before : Int := digits.length + d.exponent
  if 16 < before ∨ before ≤ -5 then
    { negative, whole := digits.take 1, fraction := digits.drop 1, exponent? := some (before - 1) }
  else if before ≤ 0 then
    { negative, whole := ['0'], fraction := List.replicate before.natAbs '0' ++ digits }
  else if 0 ≤ d.exponent then
    { negative, whole := digits ++ List.replicate d.exponent.toNat '0', fraction := ['0'] }
  else { negative, whole := digits.take before.toNat, fraction := digits.drop before.toNat }

/-- The shortest numeral of a finite number, half-way with the even digit; other numbers have
none. -/
def ofBinary64? : Binary64 → Option Numeral
  | .finite negative index => some (ofDecimal negative (Decimal.shortest .even index))
  | _ => none

end Numeral
end Admission.Json
