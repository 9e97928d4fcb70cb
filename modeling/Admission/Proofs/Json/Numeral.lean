import Mathlib.Tactic.SplitIfs
import Admission.Json.Numeral
import Admission.Proofs.Binary64.Decimal

namespace Admission.Json

namespace Numeral

open Binary64

/-- The number that a numeral is. -/
def value (numeral : Numeral) : ℚ :=
  signed numeral.negative numeral.decimal.value

/-- A numeral as it can be written: digits on both sides of its point, and none that is in vain before it. -/
structure WellFormed (numeral : Numeral) : Prop where
  whole_ne_nil : numeral.whole ≠ []
  whole : ∀ c ∈ numeral.whole, c.isDigit = true
  leading : numeral.whole.head? = some '0' → numeral.whole.length = 1
  fraction : ∀ c ∈ numeral.fraction, c.isDigit = true

section Digits

private theorem isDigit_toDigits {n : Nat} {c : Char} (member : c ∈ Nat.toDigits 10 n) : c.isDigit = true :=
  Nat.isDigit_of_mem_toDigits (by decide) (by decide) member

private theorem ofDigitChars_toDigits (n : Nat) : Nat.ofDigitChars 10 (Nat.toDigits 10 n) 0 = n :=
  Nat.ofDigitChars_ten_toDigits

private theorem ofDigitChars_zeros (n init : Nat) :
    Nat.ofDigitChars 10 (List.replicate n '0') init = init * 10 ^ n := by
  induction n generalizing init with
  | zero => rw [List.replicate_zero, pow_zero, Nat.mul_one]; rfl
  | succ n ih =>
    rw [List.replicate_succ, Nat.ofDigitChars_cons, ih, pow_succ]
    simp only [Nat.sub_self, Nat.add_zero]
    ring

private theorem eq_zero_of_head?_toDigits {n : Nat} (zero : (Nat.toDigits 10 n).head? = some '0') : n = 0 := by
  induction n using Nat.strongRecOn with
  | ind n ih =>
    rcases Nat.lt_or_ge n 10 with small | large
    · rw [Nat.toDigits_of_lt_base small, List.head?_cons, Option.some.injEq] at zero
      have code := congrArg Char.toNat zero
      rw [Nat.toNat_digitChar_of_lt_ten small] at code
      simpa using code
    · rw [Nat.toDigits_of_base_le (by decide) large, List.head?_append_of_ne_nil _ Nat.toDigits_ne_nil] at zero
      have quotient := ih (n / 10) (by omega) zero
      omega

end Digits

section Decimals

private theorem decimal_eq {numeral : Numeral} {d : Decimal}
    (digits : Nat.ofDigitChars 10 (numeral.whole ++ numeral.fraction) 0 = d.digits)
    (exponent : numeral.exponent?.getD 0 - numeral.fraction.length = d.exponent) : numeral.decimal = d := by
  rw [decimal, digits, exponent]

private theorem value_eq {numeral : Numeral} {d : Decimal}
    (digits : Nat.ofDigitChars 10 (numeral.whole ++ numeral.fraction) 0 = d.digits)
    (exponent : numeral.exponent?.getD 0 - numeral.fraction.length = d.exponent) :
    numeral.value = signed numeral.negative d.value := by
  rw [value, decimal_eq digits exponent]

/-- However a decimal is laid out, its number stays. -/
theorem value_ofDecimal (negative : Bool) (d : Decimal) :
    (ofDecimal negative d).value = signed negative d.value := by
  have positive : 0 < (Nat.toDigits 10 d.digits).length := Nat.length_toDigits_pos
  have digits := ofDigitChars_toDigits d.digits
  unfold ofDecimal
  dsimp only
  -- With an exponent, with zeros after the point, with zeros before it, and with the point among the digits.
  split_ifs with far small whole
  · refine value_eq ?_ ?_
    · rw [List.take_append_drop, digits]
    · rw [Option.getD_some, List.length_drop]
      omega
  · refine value_eq ?_ ?_
    · rw [← List.append_assoc, ← List.replicate_one, List.replicate_append_replicate, Nat.ofDigitChars_append,
        ofDigitChars_zeros, Nat.zero_mul, digits]
    · rw [Option.getD_none, List.length_append, List.length_replicate]
      omega
  · have scaled : (Nat.toDigits 10 d.digits ++ List.replicate d.exponent.toNat '0') ++ ['0'] =
        Nat.toDigits 10 d.digits ++ List.replicate (d.exponent.toNat + 1) '0' := by
      rw [List.replicate_succ', List.append_assoc]
    have power : (10 : ℚ) ^ d.exponent = 10 ^ d.exponent.toNat := by
      rw [← zpow_natCast, Int.toNat_of_nonneg whole]
    have shown : (⟨d.digits * 10 ^ (d.exponent.toNat + 1), -1⟩ : Decimal).value = d.value := by
      rw [Decimal.value, Decimal.value, power]
      push_cast
      ring
    rw [← shown]
    refine value_eq ?_ ?_
    · rw [scaled, Nat.ofDigitChars_append, digits, ofDigitChars_zeros]
    · rfl
  · refine value_eq ?_ ?_
    · rw [List.take_append_drop, digits]
    · rw [Option.getD_none, List.length_drop]
      omega

private theorem wellFormed_ofDecimal (negative : Bool) {d : Decimal}
    (unscaled : d.digits = 0 → d.exponent = 0) :
    (ofDecimal negative d).WellFormed := by
  have positive : 0 < (Nat.toDigits 10 d.digits).length := Nat.length_toDigits_pos
  have digit (c : Char) (member : c ∈ Nat.toDigits 10 d.digits) : c.isDigit = true := isDigit_toDigits member
  have zeros (n : Nat) (c : Char) (member : c ∈ List.replicate n '0') : c.isDigit = true := by
    rw [List.eq_of_mem_replicate member]
    rfl
  unfold ofDecimal
  dsimp only
  split_ifs with far small whole
  · refine ⟨?_, fun c member => digit c (List.mem_of_mem_take member), fun _ => ?_,
      fun c member => digit c (List.mem_of_mem_drop member)⟩
    · exact List.ne_nil_of_length_pos (by rw [List.length_take]; omega)
    · rw [List.length_take]
      omega
  · refine ⟨List.cons_ne_nil _ _, zeros 1, fun _ => rfl, fun c member => ?_⟩
    exact (List.mem_append.mp member).elim (zeros _ c) (digit c)
  · refine ⟨List.append_ne_nil_of_left_ne_nil Nat.toDigits_ne_nil _, fun c member => ?_, fun zero => ?_, zeros 1⟩
    · exact (List.mem_append.mp member).elim (digit c) (zeros _ c)
    · rw [List.head?_append_of_ne_nil _ Nat.toDigits_ne_nil] at zero
      have digits := eq_zero_of_head?_toDigits zero
      rw [unscaled digits, digits]
      rfl
  · refine ⟨?_, fun c member => digit c (List.mem_of_mem_take member), fun zero => ?_,
      fun c member => digit c (List.mem_of_mem_drop member)⟩
    · exact List.ne_nil_of_length_pos (by rw [List.length_take]; omega)
    · rw [List.head?_take, if_neg (by omega)] at zero
      exact absurd (unscaled (eq_zero_of_head?_toDigits zero)).ge whole

theorem wellFormed_ofNat (n : Nat) : (ofNat n).WellFormed := by
  refine ⟨Nat.toDigits_ne_nil, fun c => isDigit_toDigits, fun zero => ?_, by simp [ofNat]⟩
  rw [ofNat, eq_zero_of_head?_toDigits zero]
  rfl

end Decimals

section Numbers

theorem toUInt64?_ofUInt64 (word : UInt64) : (ofUInt64 word).toUInt64? = some word := by
  have digits : Nat.ofDigitChars 10 (Nat.toDigits 10 word.toNat) 0 = word.toNat := ofDigitChars_toDigits _
  have small := word.toNat_lt
  simp only [toUInt64?, ofUInt64, ofNat, digits]
  rw [if_pos ⟨rfl, Bool.false_ne_true, small⟩, UInt64.ofNat_toNat]

theorem ofBinary64?_finite (negative : Bool) (index : Fin infinityIndex) :
    ∃ numeral, ofBinary64? (.finite negative index) = some numeral ∧ numeral.WellFormed ∧
      numeral.negative = negative ∧ Rounds numeral.value (.finite negative index) := by
  have sign : (ofDecimal negative (Decimal.shortest .even index)).negative = negative := by
    unfold ofDecimal
    dsimp only
    split_ifs <;> rfl
  refine ⟨_, rfl, wellFormed_ofDecimal negative (Decimal.exponent_shortest .even index), sign, ?_⟩
  have rounds := Decimal.rounds_shortest .even index.val
  rw [ofIndex_of_lt false index.isLt] at rounds
  rw [value_ofDecimal]
  cases negative with
  | false => exact rounds
  | true => exact rounds.neg

end Numbers

section Text

/-- A text that does not go on with a numeral. -/
def Ends (rest : List Char) : Prop :=
  ∀ c ∈ rest.head?, c.isDigit = false ∧ c ≠ '.' ∧ c ≠ 'e' ∧ c ≠ 'E'

/-- The fraction with its point, if there is one. -/
def pointed (fraction : List Char) : List Char :=
  if fraction.isEmpty then [] else '.' :: fraction

/-- The exponent with its letter, if there is one. -/
def lettered : Option Int → List Char
  | some exponent => 'e' :: (toString exponent).toList
  | none => []

theorem toList_text (numeral : Numeral) : numeral.text.toList =
    (if numeral.negative then ['-'] else []) ++
      (numeral.whole ++ (pointed numeral.fraction ++ lettered numeral.exponent?)) := by
  unfold text pointed lettered
  cases numeral.negative <;> cases numeral.fraction <;> cases numeral.exponent? <;> simp

variable {rest : List Char}

private theorem digits?_append {digits : List Char} (nonempty : digits ≠ [])
    (all : ∀ c ∈ digits, c.isDigit = true)
    (stops : ∀ c ∈ rest.head?, c.isDigit = false) : digits? (digits ++ rest) = .some (digits, rest) := by
  have ends : rest.takeWhile Char.isDigit = [] ∧ rest.dropWhile Char.isDigit = rest := by
    cases rest with
    | nil => exact ⟨rfl, rfl⟩
    | cons c rest =>
      have stop := stops c rfl
      simp [stop]
  rw [digits?, List.takeWhile_append_of_pos all, List.dropWhile_append_of_pos all, ends.1, ends.2, List.append_nil]
  cases digits with
  | nil => exact absurd rfl nonempty
  | cons digit digits => rfl

private theorem fraction?_append {fraction : List Char} (all : ∀ c ∈ fraction, c.isDigit = true)
    (stops : ∀ c ∈ rest.head?, c.isDigit = false ∧ c ≠ '.') :
    fraction? (pointed fraction ++ rest) = some (fraction, rest) := by
  cases fraction with
  | nil =>
    cases rest with
    | nil => rfl
    | cons c rest => 
      have point := (stops c rfl).2
      simp [pointed, fraction?, point]
  | cons digit fraction =>
    exact digits?_append (List.cons_ne_nil _ _) all fun c member => (stops c member).1

theorem ne_of_isDigit {c other : Char} (digit : c.isDigit = true) (symbol : other.isDigit = false) :
    c ≠ other := by
  rintro rfl
  exact Bool.noConfusion (digit.symm.trans symbol)

private theorem signed?_digits {digits : List Char} (nonempty : digits ≠ [])
    (all : ∀ c ∈ digits, c.isDigit = true) (stops : ∀ c ∈ rest.head?, c.isDigit = false) :
    signed? (digits ++ rest) = .some ((Nat.ofDigitChars 10 digits 0 : Int), rest) := by
  have read := digits?_append nonempty all stops
  cases digits with
  | nil => exact absurd rfl nonempty
  | cons digit digits =>
    have first := all digit (List.mem_cons_self ..)
    have minus : digit ≠ '-' := ne_of_isDigit first rfl
    have plus : digit ≠ '+' := ne_of_isDigit first rfl
    rw [List.cons_append] at read ⊢
    simp [signed?, minus, plus, read]

private theorem signed?_append (exponent : Int) (stops : ∀ c ∈ rest.head?, c.isDigit = false) :
    signed? ((toString exponent).toList ++ rest) = some (exponent, rest) := by
  cases exponent with
  | ofNat n =>
    have shown : (toString (Int.ofNat n)).toList = Nat.toDigits 10 n := by
      show (toString n).toList = _
      rw [Nat.toString_eq_ofList_toDigits, String.toList_ofList]
    rw [shown, signed?_digits Nat.toDigits_ne_nil (fun _ => isDigit_toDigits) stops, ofDigitChars_toDigits]
    rfl
  | negSucc n =>
    have shown : (toString (Int.negSucc n)).toList = '-' :: Nat.toDigits 10 (n + 1) := by
      show ("-" ++ toString (n + 1)).toList = _
      simp
    rw [shown, List.cons_append, signed?, digits?_append Nat.toDigits_ne_nil (fun _ => isDigit_toDigits) stops]
    simp only [Option.map_some, ofDigitChars_toDigits]
    rfl

private theorem exponentAt?_append (exponent? : Option Int) (ends : Ends rest) :
    exponentAt? (lettered exponent? ++ rest) = some (exponent?, rest) := by
  cases exponent? with
  | none =>
    cases rest with
    | nil => rfl
    | cons c rest =>
      obtain ⟨-, -, small, large⟩ := ends c rfl
      simp [lettered, exponentAt?, small, large]
  | some exponent =>
    have read := signed?_append exponent fun c member => (ends c member).1
    simp only [lettered, List.cons_append, exponentAt?, read, Option.map_some]

/-- What follows the digits of a numeral is no digit, and what follows its fraction is no point either. -/
private theorem ends_lettered (exponent? : Option Int) (ends : Ends rest) :
    ∀ c ∈ (lettered exponent? ++ rest).head?, c.isDigit = false ∧ c ≠ '.' := by
  cases exponent? with
  | none => exact fun c member => ⟨(ends c member).1, (ends c member).2.1⟩
  | some exponent =>
    rintro _ ⟨⟩
    decide

private theorem stops_pointed (fraction : List Char) {rest : List Char}
    (stops : ∀ c ∈ rest.head?, c.isDigit = false) :
    ∀ c ∈ (pointed fraction ++ rest).head?, c.isDigit = false := by
  cases fraction with
  | nil => exact stops
  | cons digit fraction =>
    rintro _ ⟨⟩
    rfl

private theorem unsigned?_append {numeral : Numeral} (wellFormed : numeral.WellFormed) (ends : Ends rest) :
    unsigned? numeral.negative
        (numeral.whole ++ (pointed numeral.fraction ++ (lettered numeral.exponent? ++ rest))) =
      some (numeral, rest) := by
  have stops := ends_lettered numeral.exponent? ends
  have whole := digits?_append wellFormed.whole_ne_nil wellFormed.whole
    (stops_pointed numeral.fraction fun c member => (stops c member).1)
  have fraction := fraction?_append wellFormed.fraction stops
  have exponent := exponentAt?_append numeral.exponent? ends
  have leading : ¬ (numeral.whole.head? = some '0' ∧ 1 < numeral.whole.length) :=
    fun ⟨zero, long⟩ => absurd (wellFormed.leading zero) long.ne'
  simp only [unsigned?, whole, fraction, exponent, Option.bind_eq_bind, Option.bind_some, if_neg leading]

theorem read?_text {numeral : Numeral} (wellFormed : numeral.WellFormed) (ends : Ends rest) :
    read? (numeral.text.toList ++ rest) = some (numeral, rest) := by
  have read := unsigned?_append wellFormed ends
  rw [toList_text, List.append_assoc, List.append_assoc, List.append_assoc]
  cases sign : numeral.negative with
  | true =>
    rw [sign] at read
    exact read
  | false =>
    rw [sign] at read
    have whole := wellFormed.whole_ne_nil
    have digits := wellFormed.whole
    generalize numeral.whole = shown at whole digits read ⊢
    cases shown with
    | nil => exact absurd rfl whole
    | cons digit shown =>
      have minus : digit ≠ '-' := ne_of_isDigit (digits digit (List.mem_cons_self ..)) rfl
      simp only [Bool.false_eq_true, if_false, List.nil_append, List.cons_append] at read ⊢
      unfold read?
      split
      · rename_i first
        exact absurd (List.cons.inj first).1 minus
      · exact read

end Text
end Numeral

/-- A reader that rounds each numeral correctly, as long as it is in range, and gives zeros the sign that is
written. -/
def NumberReader.Correct (reader : NumberReader) : Prop :=
  ∀ numeral : Numeral, numeral.WellFormed → ∀ index,
    Binary64.Rounds numeral.value (.finite numeral.negative index) →
      reader numeral = some (.finite numeral.negative index)

theorem NumberReader.Correct.ofBinary64? {reader : NumberReader} (correct : reader.Correct) {number : Binary64}
    (finite : number.isFinite) :
    ∃ numeral, Numeral.ofBinary64? number = some numeral ∧ numeral.WellFormed ∧ reader numeral = some number := by
  obtain ⟨negative, index, rfl⟩ := Binary64.exists_of_isFinite finite
  obtain ⟨numeral, written, wellFormed, rfl, rounds⟩ := Numeral.ofBinary64?_finite negative index
  exact ⟨numeral, written, wellFormed, correct numeral wellFormed index rounds⟩

/-- A correct reader has a number for every word, whether or not it is exact. -/
theorem NumberReader.Correct.isSome_ofUInt64 {reader : NumberReader} (correct : reader.Correct)
    (word : UInt64) :
    (reader (.ofUInt64 word)).isSome = true := by
  have value : (Numeral.ofUInt64 word).value = word.toNat := by
    have decimal : (Numeral.ofUInt64 word).decimal = ⟨word.toNat, 0⟩ := by
      refine Numeral.decimal_eq ?_ rfl
      rw [Numeral.ofUInt64, Numeral.ofNat, List.append_nil, Numeral.ofDigitChars_toDigits]
    rw [Numeral.value, decimal, Decimal.value, zpow_zero, mul_one]
    rfl
  obtain ⟨negative, index, same⟩ := Binary64.exists_of_isFinite (Binary64.isFinite_ofNat word.toNat_lt.le)
  have sign : negative = false := by
    unfold Binary64.ofNat Binary64.ofQuotient Binary64.ofIndex at same
    split_ifs at same
    cases same
    rfl
  subst sign
  have rounds : Binary64.Rounds (Numeral.ofUInt64 word).value (.finite false index) := by
    rw [value, ← same]
    exact Binary64.rounds_ofNat word.toNat
  exact Option.isSome_of_eq_some (correct _ (Numeral.wellFormed_ofNat word.toNat) index rounds)

/-- The reader that rounds to the nearest number, and has none for what is out of range. -/
def nearestReader : NumberReader := fun numeral =>
  if numeral.nearest.isFinite then some numeral.nearest else none

theorem correct_nearestReader : nearestReader.Correct := by
  intro numeral wellFormed index rounds
  have nearest : numeral.nearest = .finite numeral.negative index := Decimal.toBinary64_eq_of_rounds rounds
  rw [nearestReader, nearest]
  rfl

end Admission.Json
