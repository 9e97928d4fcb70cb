import Admission.Binary64.Decimal

namespace Admission

/-- The first count of nanoseconds that is no duration. -/
abbrev durationEnd : Nat := UInt64.size * 1000000000

structure Duration where
  nanos : Nat
  nanos_lt : nanos < durationEnd
  deriving DecidableEq

namespace Duration

/-- The duration of so many nanoseconds, or the longest one. -/
def ofNanosClamp (nanos : Nat) : Duration :=
  ⟨min nanos (durationEnd - 1), Nat.lt_of_le_of_lt (Nat.min_le_right ..) (by decide)⟩

def longest : Duration := ⟨durationEnd - 1, by decide⟩

instance : Zero Duration := ⟨⟨0, by decide⟩⟩
instance : Inhabited Duration := ⟨0⟩
instance : LT Duration := ⟨fun a b => a.nanos < b.nanos⟩
instance : LE Duration := ⟨fun a b => a.nanos ≤ b.nanos⟩
instance (a b : Duration) : Decidable (a < b) := inferInstanceAs (Decidable (a.nanos < b.nanos))
instance (a b : Duration) : Decidable (a ≤ b) := inferInstanceAs (Decidable (a.nanos ≤ b.nanos))
instance : Min Duration := ⟨fun a b => if a ≤ b then a else b⟩
instance : Add Duration := ⟨fun a b => ofNanosClamp (a.nanos + b.nanos)⟩

def ofMillis (millis : UInt64) : Duration :=
  ⟨1000000 * millis.toNat, by have := millis.toNat_lt; simp only [durationEnd, UInt64.size]; omega⟩

def ofSeconds (seconds : UInt64) : Duration :=
  ⟨1000000000 * seconds.toNat, by have := seconds.toNat_lt; simp only [durationEnd, UInt64.size]; omega⟩

/-- Whole seconds. -/
def seconds (d : Duration) : Nat :=
  d.nanos / 1000000000

/-- Nanoseconds beyond the whole seconds. -/
def subsecond (d : Duration) : Nat :=
  d.nanos % 1000000000

/-- Whole milliseconds, as far as a word reaches. -/
def toMillis (d : Duration) : UInt64 :=
  UInt64.ofNatClamp (d.nanos / 1000000)

/-- Twice as long, or the longest duration. -/
def doubled (d : Duration) : Duration :=
  ofNanosClamp (2 * d.nanos)

/-- The seconds as a number: the whole ones and the rest are rounded apart, then added. -/
def toBinary64 (d : Duration) : Binary64 :=
  .ofNat d.seconds + .ofNat d.subsecond / 1000000000

/-- The duration of a number of seconds, rounded to the nearest nanosecond, a half to the
even one. Negative numbers and numbers out of range have none. -/
def ofBinary64? : Binary64 → Option Duration
  | .finite negative index =>
    if negative ∧ index.val ≠ 0 then none
    else
      let nanos := Binary64.roundHalfEven (1000000000 * Binary64.units index) Binary64.unitsPerOne
      if h : nanos < durationEnd then some ⟨nanos, h⟩ else none
  | _ => none

/-- The duration in the greatest unit that it fills, with every digit that is not zero. -/
def text (d : Duration) : String :=
  let written (places : Int) := (Decimal.reduced ⟨d.nanos, -places⟩).plain
  if 1000000000 ≤ d.nanos then written 9 ++ "s"
  else if 1000000 ≤ d.nanos then written 6 ++ "ms"
  else if 1000 ≤ d.nanos then written 3 ++ "µs"
  else written 0 ++ "ns"

@[ext] theorem ext {a b : Duration} (same : a.nanos = b.nanos) : a = b := by
  cases a; cases b; simp_all

theorem le_iff {a b : Duration} : a ≤ b ↔ a.nanos ≤ b.nanos := Iff.rfl

theorem lt_iff {a b : Duration} : a < b ↔ a.nanos < b.nanos := Iff.rfl

@[simp] theorem nanos_zero : (0 : Duration).nanos = 0 := rfl

@[simp] theorem nanos_min (a b : Duration) : (min a b).nanos = min a.nanos b.nanos := by
  show (if a ≤ b then a else b).nanos = _
  rw [Nat.min_def]
  split <;> rename_i h <;> simp only [le_iff] at h <;> simp [h]

theorem zero_le (d : Duration) : 0 ≤ d := Nat.zero_le _

theorem min_le_right (a b : Duration) : min a b ≤ b := by
  rw [le_iff, nanos_min]
  exact Nat.min_le_right ..

theorem nanos_doubled (d : Duration) : d.doubled.nanos = min (2 * d.nanos) (durationEnd - 1) := rfl

theorem le_doubled (d : Duration) : d ≤ d.doubled := by
  have := d.nanos_lt
  simp only [le_iff, nanos_doubled]
  omega

end Duration
end Admission
