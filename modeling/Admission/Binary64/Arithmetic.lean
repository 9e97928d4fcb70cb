import Admission.Binary64.Basic

namespace Admission.Binary64

protected def neg : Binary64 → Binary64
  | .nan => .nan
  | .infinite negative => .infinite (!negative)
  | .finite negative index => .finite (!negative) index

/-- A sum that is exactly zero is negative only when both terms are. -/
protected def add : Binary64 → Binary64 → Binary64
  | .nan, _ | _, .nan => .nan
  | .infinite a, .infinite b => if a = b then .infinite a else .nan
  | .infinite a, .finite .. => .infinite a
  | .finite .., .infinite b => .infinite b
  | .finite a x, .finite b y =>
    let sum := signedUnits a x + signedUnits b y
    if sum = 0 then ofIndex (a && b) 0 else ofQuotient (sum < 0) sum.natAbs 1

protected def sub (a b : Binary64) : Binary64 :=
  a.add b.neg

/-- Zero times infinity is NaN. -/
protected def mul : Binary64 → Binary64 → Binary64
  | .nan, _ | _, .nan => .nan
  | .infinite a, .infinite b => .infinite (a ^^ b)
  | .infinite a, .finite b y => if y.val = 0 then .nan else .infinite (a ^^ b)
  | .finite a x, .infinite b => if x.val = 0 then .nan else .infinite (a ^^ b)
  | .finite a x, .finite b y => ofQuotient (a ^^ b) (units x * units y) unitsPerOne

/-- Zero over zero is NaN, and any other finite value over zero is infinite. -/
protected def div : Binary64 → Binary64 → Binary64
  | .nan, _ | _, .nan => .nan
  | .infinite _, .infinite _ => .nan
  | .infinite a, .finite b _ => .infinite (a ^^ b)
  | .finite a _, .infinite b => ofIndex (a ^^ b) 0
  | .finite a x, .finite b y =>
    if y.val = 0 then
      if x.val = 0 then .nan else .infinite (a ^^ b)
    else ofQuotient (a ^^ b) (unitsPerOne * units x) (units y)

instance : Neg Binary64 := ⟨Binary64.neg⟩
instance : Add Binary64 := ⟨Binary64.add⟩
instance : Sub Binary64 := ⟨Binary64.sub⟩
instance : Mul Binary64 := ⟨Binary64.mul⟩
instance : Div Binary64 := ⟨Binary64.div⟩

/-- The whole part of a magnitude, and one more if `outward` and anything is left. -/
def wholePart (outward : Bool) (index : Nat) : Nat :=
  if outward then (unitsPerOne - 1 + units index) / unitsPerOne else units index / unitsPerOne

/-- The greatest integer that is no greater; a zero keeps the sign. -/
def floor : Binary64 → Binary64
  | .finite negative index => ofQuotient negative (unitsPerOne * wholePart negative index) 1
  | other => other

/-- The least integer that is no less; a zero keeps the sign. -/
def ceil : Binary64 → Binary64
  | .finite negative index => ofQuotient negative (unitsPerOne * wholePart (!negative) index) 1
  | other => other

/-- The whole part as a 64-bit word: the nearest word if it has none, and zero for NaN. -/
def toUInt64 : Binary64 → UInt64
  | .nan => 0
  | .infinite negative => if negative then 0 else UInt64.ofNatClamp UInt64.size
  | .finite negative index =>
    if negative then 0 else UInt64.ofNatClamp (units index / unitsPerOne)

end Admission.Binary64
