import Admission.Binary64.Arithmetic

/-! The state of a circuit and the counts of its window in one word, so that no reader sees
the one next to the other's past. Main statement: a word gives back what was packed. -/
namespace Admission

inductive Circuit
  /-- Calls pass and are counted. -/
  | closed
  /-- Calls are refused. -/
  | opened
  /-- A few calls pass to find out whether the others may. -/
  | halfOpen
  deriving DecidableEq, Repr

/-- A change of the circuit. -/
structure Transition where
  left : Circuit
  entered : Circuit
  deriving DecidableEq, Repr

/-- The state of a circuit and the failures and successes of its window. -/
structure Tally where
  circuit : Circuit
  failures : Nat
  successes : Nat
  deriving DecidableEq, Repr

namespace Circuit

/-- The name in files. -/
def tag : Circuit → String
  | closed => "closed"
  | opened => "open"
  | halfOpen => "half_open"

/-- The name in messages. -/
def text : Circuit → String
  | closed => "closed"
  | opened => "open"
  | halfOpen => "half-open"

/-- The two bits that stand for a state. -/
def bits : Circuit → BitVec 2
  | closed => 0
  | opened => 1
  | halfOpen => 2

/-- The state that two bits stand for; the pair that stands for none is read as open. -/
def ofBits (bits : BitVec 2) : Circuit :=
  if bits = 0 then closed else if bits = 2 then halfOpen else opened

@[simp] theorem ofBits_bits (circuit : Circuit) : ofBits circuit.bits = circuit := by
  cases circuit <;> rfl

end Circuit

/-- The greatest count that fits into a word. -/
abbrev maxCount : Nat := 0x7fffffff

/-- One more, up to the greatest count. -/
def countUp (count : Nat) : Nat :=
  min (count + 1) maxCount

/-- The share of failures among all calls; none without a call. -/
def failureRate (failures successes : Nat) : Binary64 :=
  if failures + successes = 0 then 0
  else .ofNat failures / .ofNat (failures + successes)

/-- Two bits of state, then the failures and the successes in 31 bits each. -/
abbrev BreakerWord := BitVec 64

namespace BreakerWord

def pack (tally : Tally) : BreakerWord :=
  tally.circuit.bits ++ BitVec.ofNat 31 tally.failures ++ BitVec.ofNat 31 tally.successes

def unpack (word : BreakerWord) : Tally :=
  { circuit := .ofBits (word.extractLsb' 62 2)
    failures := (word.extractLsb' 31 31).toNat
    successes := (word.extractLsb' 0 31).toNat }

theorem tag_pack (tally : Tally) : (pack tally).extractLsb' 62 2 = tally.circuit.bits := by
  rw [pack, BitVec.extractLsb'_append_eq_of_le (by decide)]
  exact BitVec.extractLsb'_append_eq_left

theorem unpack_pack {tally : Tally} (failures : tally.failures ≤ maxCount)
    (successes : tally.successes ≤ maxCount) : unpack (pack tally) = tally := by
  have high := tag_pack tally
  obtain ⟨circuit, f, s⟩ := tally
  simp only [maxCount] at failures successes
  have low : (pack ⟨circuit, f, s⟩).extractLsb' 0 31 = BitVec.ofNat 31 s :=
    BitVec.extractLsb'_append_eq_right
  have middle : (pack ⟨circuit, f, s⟩).extractLsb' 31 31 = BitVec.ofNat 31 f := by
    simp only [pack]
    rw [BitVec.extractLsb'_append_eq_of_le (by decide)]
    exact BitVec.extractLsb'_append_eq_right
  simp only [unpack, low, middle, high, Circuit.ofBits_bits, BitVec.toNat_ofNat]
  congr 1 <;> omega

@[simp] theorem circuit_unpack_pack (tally : Tally) :
    (unpack (pack tally)).circuit = tally.circuit := by
  simp only [unpack, tag_pack, Circuit.ofBits_bits]

theorem countUp_le (count : Nat) : countUp count ≤ maxCount :=
  Nat.min_le_right ..

end BreakerWord
end Admission
