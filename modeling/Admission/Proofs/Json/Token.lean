import Mathlib.Data.List.Chain
import Admission.Json.Token
import Admission.Proofs.Json.Numeral

namespace Admission.Json.Token

section Strings

private def piece (c : Char) : Piece :=
  if c.val < 0x20 then .unit c.toNat else .char c

private theorem hexDigit?_digitChar : ∀ n < 16, hexDigit? (Nat.digitChar n) = some n := by
  decide

private theorem toList_charText (c : Char) : (charText c).toList =
    if c = '"' then ['\\', '"'] else if c = '\\' then ['\\', '\\']
    else if c.val < 0x20 then
      ['\\', 'u', '0', '0', Nat.digitChar (c.toNat / 16), Nat.digitChar (c.toNat % 16)]
    else [c] := by
  unfold charText hexText
  split_ifs <;> simp

private theorem pieces?_charText (c : Char) (rest : List Char) :
    pieces? ((charText c).toList ++ rest) =
      (pieces? rest).map fun (pieces, rest) => (piece c :: pieces, rest) := by
  rw [toList_charText]
  rw [Option.map_eq_bind]
  by_cases quote : c = '"'
  · subst quote
    simp [pieces?, escaped?, piece]
  by_cases backslash : c = '\\'
  · subst backslash
    simp [pieces?, escaped?, piece]
  rw [if_neg quote, if_neg backslash]
  unfold piece
  split_ifs with control
  · have small : c.toNat < 32 := UInt32.lt_iff_toNat_lt.mp control
    have high := hexDigit?_digitChar (c.toNat / 16) (by omega)
    have low := hexDigit?_digitChar (c.toNat % 16) (by omega)
    have code : ((16 * 0 + 0) * 16 + c.toNat / 16) * 16 + c.toNat % 16 = c.toNat := by omega
    have zero : hexDigit? '0' = some 0 := rfl
    simp only [List.cons_append, List.nil_append, pieces?, zero, high, low, Option.bind_eq_bind,
      Option.bind_some, code]
    rfl
  · simp [pieces?, backslash, control]

private theorem pieces?_text (text rest : List Char) :
    pieces? (text.flatMap (fun c => (charText c).toList) ++ '"' :: rest) = some (text.map piece, rest) := by
  induction text with
  | nil => rfl
  | cons c text ih =>
    rw [List.flatMap_cons, List.append_assoc, pieces?_charText, ih, Option.map_some, List.map_cons]

/-- A unit that is no half of a pair is a character, whatever follows. -/
private theorem chars?_unit {n : Nat} (small : n < 0xd800) (rest : List Piece) :
    chars? (.unit n :: rest) = (chars? rest).map (Char.ofNat n :: ·) := by
  have leading : isLeading n = false := by simp [isLeading]; omega
  have trailing : isTrailing n = false := by simp [isTrailing]; omega
  match rest with
  | [] => simp [chars?, leading, trailing]
  | .char c :: rest => simp [chars?, leading, trailing]
  | .unit v :: rest => simp [chars?, leading, trailing]

private theorem chars?_map_piece (text : List Char) : chars? (text.map piece) = some text := by
  induction text with
  | nil => rfl
  | cons c text ih =>
    rw [List.map_cons]
    by_cases control : c.val < 0x20
    · have small : c.toNat < 32 := UInt32.lt_iff_toNat_lt.mp control
      rw [piece, if_pos control, chars?_unit (by omega), ih, Option.map_some, Char.ofNat_toNat]
    · rw [piece, if_neg control, chars?, ih, Option.map_some]

end Strings

section Texts

def WellFormed : Token → Prop
  | number numeral => numeral.WellFormed
  | _ => True

def isNumber : Token → Bool
  | number _ => true
  | _ => false

/-- What starts with a sign or a digit can only be a numeral. -/
private theorem read?_numeral {c : Char} {text : List Char} (head : c = '-' ∨ c.isDigit = true) :
    read? (c :: text) = (Numeral.read? (c :: text)).map fun (numeral, rest) => (number numeral, rest) := by
  unfold read?
  split
  case h_11 => rfl
  all_goals
    rename_i same
    obtain ⟨rfl, -⟩ := List.cons.inj same
    exact absurd head (by decide)

private theorem exists_numeral_head {numeral : Numeral} (wellFormed : numeral.WellFormed) :
    ∃ c text, numeral.text.toList = c :: text ∧ (c = '-' ∨ c.isDigit = true) := by
  rw [Numeral.toList_text]
  cases numeral.negative with
  | true => exact ⟨_, _, rfl, .inl rfl⟩
  | false =>
    have nonempty := wellFormed.whole_ne_nil
    have digits := wellFormed.whole
    cases shown : numeral.whole with
    | nil => exact absurd shown nonempty
    | cons digit whole => exact ⟨_, _, rfl, .inr (digits digit (shown ▸ List.mem_cons_self ..))⟩

private theorem toList_text_string (text : String) : (string (some text)).text.toList =
    '"' :: (text.toList.flatMap (fun c => (charText c).toList) ++ ['"']) := by
  simp [Token.text, List.flatMap_map]

variable {token : Token} {rest : List Char}

/-- A token is recovered from its text, unless what follows goes on with its numeral. -/
theorem read?_text (wellFormed : token.WellFormed) (ends : token.isNumber = true → Numeral.Ends rest) :
    read? (token.text.toList ++ rest) = some (token, rest) := by
  cases token with
  | number numeral =>
    obtain ⟨c, text, shown, head⟩ := exists_numeral_head wellFormed
    have read := Numeral.read?_text wellFormed (ends rfl)
    rw [shown, List.cons_append] at read
    show read? (numeral.text.toList ++ rest) = _
    rw [shown, List.cons_append, read?_numeral head, read, Option.map_some]
  | string text? =>
    cases text? with
    | some text =>
      rw [toList_text_string, List.cons_append, List.append_assoc, List.singleton_append, read?, pieces?_text]
      simp only [Option.map_some, chars?_map_piece, String.ofList_toList]
    | none => rfl
  | bool value => cases value <;> rfl
  | leftBrace => rfl
  | rightBrace => rfl
  | leftBracket => rfl
  | rightBracket => rfl
  | comma => rfl
  | colon => rfl
  | null => rfl

/-- The characters that the tokens other than numerals start with. -/
private def marks : List Char :=
  ['\x7b', '\x7d', '[', ']', ',', ':', 'n', 't', 'f', '"']

private theorem exists_mark (other : token.isNumber = false) :
    ∃ c ∈ marks, ∃ text, token.text.toList = c :: text := by
  cases token with
  | number numeral => cases other
  | string text? =>
    cases text? with
    | some text => exact ⟨'"', by decide, _, toList_text_string text⟩
    | none => exact ⟨'"', by decide, _, rfl⟩
  | bool value =>
    cases value with
    | true => exact ⟨'t', by decide, _, rfl⟩
    | false => exact ⟨'f', by decide, _, rfl⟩
  | leftBrace => exact ⟨'\x7b', by decide, _, rfl⟩
  | rightBrace => exact ⟨'\x7d', by decide, _, rfl⟩
  | leftBracket => exact ⟨'[', by decide, _, rfl⟩
  | rightBracket => exact ⟨']', by decide, _, rfl⟩
  | comma => exact ⟨',', by decide, _, rfl⟩
  | colon => exact ⟨':', by decide, _, rfl⟩
  | null => exact ⟨'n', by decide, _, rfl⟩

/-- A token starts with a character that is no blank. -/
private theorem exists_head (wellFormed : token.WellFormed) :
    ∃ c, isBlank c = false ∧ ∃ text, token.text.toList = c :: text := by
  have marked : ∀ c ∈ marks, isBlank c = false := by simp [marks, isBlank]
  cases isNumber : token.isNumber with
  | false =>
    obtain ⟨c, mark, text, shown⟩ := exists_mark isNumber
    exact ⟨c, marked c mark, text, shown⟩
  | true =>
    cases token with
    | number numeral =>
      obtain ⟨c, text, shown, rfl | digit⟩ := exists_numeral_head wellFormed
      · exact ⟨'-', rfl, text, shown⟩
      · have blank (other : Char) (symbol : other.isDigit = false) : c ≠ other := Numeral.ne_of_isDigit digit symbol
        refine ⟨c, ?_, text, shown⟩
        simp [isBlank, blank]
    | _ => cases isNumber

/-- What starts with another token does not go on with a numeral. -/
private theorem ends_of_not_number (other : token.isNumber = false) (rest : List Char) :
    Numeral.Ends (token.text.toList ++ rest) := by
  have marked : ∀ c ∈ marks, c.isDigit = false ∧ c ≠ '.' ∧ c ≠ 'e' ∧ c ≠ 'E' := by simp [marks, Char.isDigit]
  obtain ⟨c, mark, text, shown⟩ := exists_mark other
  rw [shown]
  rintro _ ⟨⟩
  exact marked c mark

/-- Tokens of which no two in a row are numerals. -/
def Apart (tokens : List Token) : Prop :=
  tokens.IsChain fun token next => token.isNumber = true → next.isNumber = false

theorem readAll?_texts {tokens : List Token} (wellFormed : ∀ token ∈ tokens, token.WellFormed)
    (apart : Apart tokens) {fuel : Nat} (enough : (tokens.flatMap fun token => token.text.toList).length ≤ fuel) :
    readAll? fuel (tokens.flatMap fun token => token.text.toList) = some tokens := by
  induction tokens generalizing fuel with
  | nil => cases fuel <;> rfl
  | cons token tokens ih =>
    obtain ⟨next, later⟩ := List.isChain_cons.mp apart
    have first := wellFormed token (List.mem_cons_self ..)
    have ends : token.isNumber = true → Numeral.Ends (tokens.flatMap fun token => token.text.toList) := by
      intro number
      cases tokens with
      | nil => exact nofun
      | cons other tokens => exact ends_of_not_number (next other rfl number) _
    have read := read?_text first ends
    obtain ⟨c, blank, text, shown⟩ := exists_head first
    rw [List.flatMap_cons, shown, List.cons_append] at enough ⊢
    rw [shown, List.cons_append] at read
    cases fuel with
    | zero => exact absurd enough (by simp)
    | succ fuel =>
      rw [List.length_cons, List.length_append] at enough
      -- The text of a token has a character at least, so the steps suffice for the others.
      have rest := ih (fun token member => wellFormed token (List.mem_cons_of_mem _ member)) later
        (show _ ≤ fuel by omega)
      simp only [readAll?, blank, read, rest, Bool.false_eq_true, if_false, Option.map_some]

theorem ofText?_texts {tokens : List Token} (wellFormed : ∀ token ∈ tokens, token.WellFormed)
    (apart : Apart tokens) : ofText? (String.join (tokens.map Token.text)).toList = some tokens := by
  rw [String.toList_join, List.flatMap_map]
  exact readAll?_texts wellFormed apart le_rfl

end Texts
end Admission.Json.Token
