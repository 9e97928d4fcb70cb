import Admission.Json.Basic
import Admission.Proofs.Json.Token

/-! Values and their tokens. Main statements: a value is recovered from its text, a text that stands for a value
has the tokens of the value, and what a reader can keep is told by the value. -/
namespace Admission.Json

section Reading

private theorem length_tokens_pos (value : Json) : 0 < value.tokens.length := by
  match value with
  | null | bool _ | number _ | string _ => exact Nat.one_pos
  | array [] | object [] => exact Nat.two_pos
  | array (_ :: _) | object (_ :: _) => exact Nat.succ_pos _

private theorem head?_tokens (value : Json) (rest : List Token) :
    (value.tokens ++ rest).head? ≠ some .rightBracket := by
  match value with
  | null | bool _ | number _ | string _ => exact nofun
  | array [] | object [] => exact nofun
  | array (_ :: _) | object (_ :: _) => exact nofun

private theorem ofTokens?_leftBracket (fuel : Nat) {tokens : List Token}
    (nonempty : tokens.head? ≠ some .rightBracket) :
    ofTokens? (fuel + 1) (.leftBracket :: tokens) =
      (elements? fuel tokens).map fun (values, rest) => (array values, rest) := by
  cases tokens with
  | nil => rfl
  | cons token tokens => cases token <;> first | rfl | exact absurd rfl nonempty

private theorem ofTokens?_leftBrace (fuel : Nat) (key : Option String) (tokens : List Token) :
    ofTokens? (fuel + 1) (.leftBrace :: .string key :: tokens) =
      (fields? fuel (.string key :: tokens)).map fun (fields, rest) => (object fields, rest) := rfl

/-- With steps enough for their tokens, values, elements and fields are recovered, whatever follows. -/
private theorem recovered (fuel : Nat) :
    (∀ (value : Json) (rest : List Token), 2 * value.tokens.length ≤ fuel →
      ofTokens? fuel (value.tokens ++ rest) = some (value, rest)) ∧
    (∀ (value : Json) (values : List Json) (rest : List Token),
      2 * (value.tokens.length + (elementTokens values).length) ≤ fuel + 1 →
        elements? fuel (value.tokens ++ (elementTokens values ++ rest)) = some (value :: values, rest)) ∧
    ∀ (key : Option String) (value : Json) (fields : List (Option String × Json)) (rest : List Token),
      2 * (value.tokens.length + (fieldTokens fields).length) ≤ fuel + 1 →
        fields? fuel (.string key :: .colon :: (value.tokens ++ (fieldTokens fields ++ rest))) =
          some ((key, value) :: fields, rest) := by
  -- A list takes a step for itself and one for its first value, and its comma or end pays for both.
  induction fuel with
  | zero =>
    refine ⟨fun value rest enough => ?_, fun value values rest enough => ?_,
      fun key value fields rest enough => ?_⟩
    all_goals
      have shorter := length_tokens_pos value
      omega
  | succ fuel ih =>
    obtain ⟨values?, elements?, fields?⟩ := ih
    refine ⟨fun value rest enough => ?_, fun value values rest enough => ?_,
      fun key value fields rest enough => ?_⟩
    · match value with
      | null | bool _ | number _ | string _ => rfl
      | array [] | object [] => rfl
      | array (first :: values) =>
        simp only [tokens, List.cons_append, List.append_assoc, List.length_cons, List.length_append] at enough ⊢
        rw [ofTokens?_leftBracket fuel (head?_tokens first _), elements? first values rest (by omega),
          Option.map_some]
      | object ((key, first) :: fields) =>
        simp only [tokens, List.cons_append, List.append_assoc, List.length_cons, List.length_append] at enough ⊢
        rw [ofTokens?_leftBrace, fields? key first fields rest (by omega), Option.map_some]
    · have shorter := length_tokens_pos value
      cases values with
      | nil =>
        simp only [elementTokens, List.length_singleton] at enough
        rw [Json.elements?, values? value _ (by omega)]
        rfl
      | cons next values =>
        simp only [elementTokens, List.cons_append, List.append_assoc, List.length_cons,
          List.length_append] at enough ⊢
        rw [Json.elements?, values? value _ (by omega)]
        simp only [elements? next values rest (by omega), Option.map_some]
    · have shorter := length_tokens_pos value
      cases fields with
      | nil =>
        simp only [fieldTokens, List.length_singleton] at enough
        rw [Json.fields?, values? value _ (by omega)]
        rfl
      | cons next fields =>
        obtain ⟨other, next⟩ := next
        simp only [fieldTokens, List.cons_append, List.append_assoc, List.length_cons,
          List.length_append] at enough ⊢
        rw [Json.fields?, values? value _ (by omega)]
        simp only [fields? other next fields rest (by omega), Option.map_some]

theorem ofAllTokens?_tokens (value : Json) : ofAllTokens? value.tokens = some value := by
  have read := (recovered (2 * value.tokens.length)).1 value [] le_rfl
  rw [List.append_nil] at read
  rw [ofAllTokens?, read]

private theorem ofTokens?_cases {fuel : Nat} {shown : List Token} {value : Json} {rest : List Token}
    (read : ofTokens? (fuel + 1) shown = some (value, rest)) :
    shown = value.tokens ++ rest ∨
      (∃ tail values, shown = .leftBracket :: tail ∧ value = array values ∧
        elements? fuel tail = some (values, rest)) ∨
      ∃ tail fields, shown = .leftBrace :: tail ∧ value = object fields ∧
        fields? fuel tail = some (fields, rest) := by
  unfold ofTokens? at read
  split at read
  case h_1 | h_10 => cases read
  case h_2 | h_3 | h_4 | h_5 | h_6 | h_8 =>
    cases read
    exact .inl rfl
  case h_7 =>
    rename_i same
    obtain rfl := Nat.succ.inj same
    obtain ⟨⟨values, rest⟩, reads, made⟩ := Option.map_eq_some_iff.mp read
    cases made
    exact .inr (.inl ⟨_, values, rfl, rfl, reads⟩)
  case h_9 =>
    rename_i same
    obtain rfl := Nat.succ.inj same
    obtain ⟨⟨fields, rest⟩, reads, made⟩ := Option.map_eq_some_iff.mp read
    cases made
    exact .inr (.inr ⟨_, fields, rfl, rfl, reads⟩)

private theorem fields?_cases {fuel : Nat} {shown : List Token}
    {fields : List (Option String × Json)} {rest : List Token}
    (read : fields? (fuel + 1) shown = some (fields, rest)) :
    ∃ key value tail, shown = .string key :: .colon :: tail ∧
      ((∃ later others, ofTokens? fuel tail = some (value, .comma :: later) ∧
          fields? fuel later = some (others, rest) ∧ fields = (key, value) :: others) ∨
        ofTokens? fuel tail = some (value, .rightBrace :: rest) ∧ fields = [(key, value)]) := by
  unfold fields? at read
  split at read
  · cases read
  · rename_i same
    obtain rfl := Nat.succ.inj same
    split at read
    · rename_i reads
      obtain ⟨⟨others, rest⟩, later, made⟩ := Option.map_eq_some_iff.mp read
      cases made
      exact ⟨_, _, _, rfl, .inl ⟨_, others, reads, later, rfl⟩⟩
    · rename_i reads
      cases read
      exact ⟨_, _, _, rfl, .inr ⟨reads, rfl⟩⟩
    · cases read
  · cases read

/-- What is read stands there: values, elements and fields have the tokens that they are read from. -/
theorem stands (fuel : Nat) :
    (∀ {shown value rest}, ofTokens? fuel shown = some (value, rest) → shown = value.tokens ++ rest) ∧
    (∀ {shown values rest}, elements? fuel shown = some (values, rest) →
      ∃ first others, values = first :: others ∧ shown = first.tokens ++ (elementTokens others ++ rest)) ∧
    ∀ {shown fields rest}, fields? fuel shown = some (fields, rest) →
      ∃ key first others, fields = (key, first) :: others ∧
        shown = .string key :: .colon :: (first.tokens ++ (fieldTokens others ++ rest)) := by
  induction fuel with
  | zero => exact ⟨nofun, nofun, nofun⟩
  | succ fuel ih =>
    obtain ⟨values?, elements?, fields?⟩ := ih
    refine ⟨fun {shown value rest} read => ?_, fun {shown values rest} read => ?_,
      fun {shown fields rest} read => ?_⟩
    · rcases ofTokens?_cases read with same | ⟨tail, values, rfl, rfl, reads⟩ | ⟨tail, fields, rfl, rfl, reads⟩
      · exact same
      · obtain ⟨first, others, rfl, rfl⟩ := elements? reads
        simp [tokens]
      · obtain ⟨key, first, others, rfl, rfl⟩ := fields? reads
        simp [tokens]
    · rw [Json.elements?] at read
      split at read
      · rename_i value more reads
        obtain ⟨⟨others, beyond⟩, later, same⟩ := Option.map_eq_some_iff.mp read
        obtain ⟨next, others, rfl, rfl⟩ := elements? later
        cases same
        refine ⟨value, next :: others, rfl, ?_⟩
        rw [values? reads]
        simp [elementTokens]
      · rename_i value more reads
        cases read
        exact ⟨value, [], rfl, values? reads⟩
      · cases read
    · obtain ⟨key, value, tail, rfl, ⟨later, others, reads, more, rfl⟩ | ⟨reads, rfl⟩⟩ := fields?_cases read
      · obtain ⟨other, next, others, rfl, rfl⟩ := fields? more
        refine ⟨key, value, (other, next) :: others, rfl, ?_⟩
        rw [values? reads]
        simp [fieldTokens]
      · exact ⟨key, value, [], rfl, congrArg (_ :: _ :: ·) (values? reads)⟩

/-- A list of tokens stands for one value at most, and they are its tokens. -/
theorem eq_tokens_of_ofAllTokens? {shown : List Token} {value : Json} (read : ofAllTokens? shown = some value) :
    shown = value.tokens := by
  unfold ofAllTokens? at read
  split at read
  · rename_i reads
    cases read
    exact ((stands _).1 reads).trans (List.append_nil _)
  · cases read

end Reading

section Text

/-- Tokens that may follow any value: they start with no numeral, and no two numerals stand in a row. -/
structure Follows (rest : List Token) : Prop where
  apart : Token.Apart rest
  head : ∀ token ∈ rest.head?, token.isNumber = false

variable {token : Token} {rest : List Token}

private theorem apart_cons_number (follows : Follows rest) (token : Token) : Token.Apart (token :: rest) :=
  List.isChain_cons.mpr ⟨fun next member _ => follows.head next member, follows.apart⟩

private theorem apart_cons_other (other : token.isNumber = false) (apart : Token.Apart rest) :
    Token.Apart (token :: rest) :=
  List.isChain_cons.mpr ⟨fun _ _ number => absurd (number.symm.trans other) nofun, apart⟩

private theorem follows_cons (other : token.isNumber = false) (apart : Token.Apart rest) :
    Follows (token :: rest) := by
  refine ⟨apart_cons_other other apart, ?_⟩
  rintro _ ⟨⟩
  exact other

mutual

theorem apart_tokens (value : Json) {rest : List Token} (follows : Follows rest) :
    Token.Apart (value.tokens ++ rest) := by
  match value with
  | null | bool _ | number _ | string _ => exact apart_cons_number follows _
  | array [] | object [] => exact apart_cons_other rfl (apart_cons_other rfl follows.apart)
  | array (first :: values) =>
    simp only [tokens, List.cons_append, List.append_assoc]
    exact apart_cons_other rfl (apart_tokens first (follows_elementTokens values follows))
  | object ((key, first) :: fields) =>
    simp only [tokens, List.cons_append, List.append_assoc]
    exact apart_cons_other rfl (apart_cons_other rfl (apart_cons_other rfl
      (apart_tokens first (follows_fieldTokens fields follows))))

private theorem follows_elementTokens (values : List Json) {rest : List Token} (follows : Follows rest) :
    Follows (elementTokens values ++ rest) := by
  match values with
  | [] => exact follows_cons rfl follows.apart
  | first :: values =>
    simp only [elementTokens, List.cons_append, List.append_assoc]
    exact follows_cons rfl (apart_tokens first (follows_elementTokens values follows))

private theorem follows_fieldTokens (fields : List (Option String × Json)) {rest : List Token}
    (follows : Follows rest) :
    Follows (fieldTokens fields ++ rest) := by
  match fields with
  | [] => exact follows_cons rfl follows.apart
  | (key, first) :: fields =>
    simp only [fieldTokens, List.cons_append, List.append_assoc]
    exact follows_cons rfl (apart_cons_other rfl (apart_cons_other rfl
      (apart_tokens first (follows_fieldTokens fields follows))))

end

theorem ofText?_text {value : Json} (wellFormed : ∀ token ∈ value.tokens, token.WellFormed) :
    Token.ofText? value.text.toList = some value.tokens := by
  have apart := apart_tokens value ⟨List.isChain_nil, nofun⟩
  rw [List.append_nil] at apart
  exact Token.ofText?_texts wellFormed apart

theorem read?_text {value : Json} (wellFormed : ∀ token ∈ value.tokens, token.WellFormed) :
    read? value.text = some value := by
  rw [read?, ofText?_text wellFormed, Option.bind_some, ofAllTokens?_tokens]

theorem ofText?_of_read? {text : String} {value : Json} (read : read? text = some value) :
    Token.ofText? text.toList = some value.tokens := by
  obtain ⟨shown, split, reads⟩ := Option.bind_eq_some_iff.mp read
  rw [split, eq_tokens_of_ofAllTokens? reads]

end Text

section Keeping

mutual

/-- Whether a reader that keeps values as a whole can keep this one, with room for so many levels of nesting. -/
def fits (reader : NumberReader) : Json → Nat → Bool
  | null, _ | bool _, _ => true
  | number numeral, _ => (reader numeral).isSome
  | string text?, _ => text?.isSome
  | array _, 0 | object _, 0 => false
  | array values, room + 1 => elementsFit reader values room
  | object fields, room + 1 => fieldsFit reader fields room

def elementsFit (reader : NumberReader) : List Json → Nat → Bool
  | [], _ => true
  | value :: values, room => value.fits reader room && elementsFit reader values room

def fieldsFit (reader : NumberReader) : List (Option String × Json) → Nat → Bool
  | [], _ => true
  | (key, value) :: fields, room => key.isSome && value.fits reader room && fieldsFit reader fields room

end

/-- Whether tokens at a depth can be kept. -/
def keepable (reader : NumberReader) (limit depth : Nat) (shown : List Token) : Bool :=
  shown.all (Token.isKept reader) && Token.nestsWithin limit depth shown

variable {reader : NumberReader} {limit depth room : Nat}

private theorem keepable_cons (token : Token) (rest : List Token) :
    keepable reader limit depth (token :: rest) =
    (token.isKept reader && decide (Token.depthAfter depth token ≤ limit) &&
      keepable reader limit (Token.depthAfter depth token) rest) := by
  simp only [keepable, List.all_cons, Token.nestsWithin]
  ac_rfl

private theorem keepable_open {token : Token} (opens : token = .leftBracket ∨ token = .leftBrace)
    (rest : List Token) (total : depth + room = limit) : keepable reader limit depth (token :: rest) =
      (decide (0 < room) && keepable reader limit (depth + 1) rest) := by
  have room : depth + 1 ≤ limit ↔ 0 < room := by omega
  rw [keepable_cons]
  rcases opens with rfl | rfl <;> simp [Token.isKept, Token.depthAfter, room]

private theorem keepable_close {token : Token}
    (closes : token = .rightBracket ∨ token = .rightBrace) (rest : List Token) (within : depth ≤ limit) :
    keepable reader limit (depth + 1) (token :: rest) = keepable reader limit depth rest := by
  rw [keepable_cons]
  rcases closes with rfl | rfl <;> simp [Token.isKept, Token.depthAfter, within]

private theorem keepable_flat {token : Token} (flat : Token.depthAfter depth token = depth) (rest : List Token)
    (within : depth ≤ limit) :
    keepable reader limit depth (token :: rest) = (token.isKept reader && keepable reader limit depth rest) := by
  rw [keepable_cons, flat, decide_eq_true within, Bool.and_true]

mutual

theorem keepable_tokens (value : Json) {depth room : Nat} (rest : List Token) (total : depth + room = limit) :
    keepable reader limit depth (value.tokens ++ rest) =
      (value.fits reader room && keepable reader limit depth rest) := by
  have within : depth ≤ limit := by omega
  -- The depth and the room that is left make up the limit, and only a bracket moves them.
  match value with
  | null | bool _ | number _ | string _ => exact keepable_flat rfl rest within
  | array [] =>
    rw [tokens, List.cons_append, keepable_open (.inl rfl) _ total, List.cons_append,
      keepable_close (.inl rfl) _ within]
    cases room <;> rfl
  | object [] =>
    rw [tokens, List.cons_append, keepable_open (.inr rfl) _ total, List.cons_append,
      keepable_close (.inr rfl) _ within]
    cases room <;> rfl
  | array (first :: values) =>
    simp only [tokens, List.cons_append, List.append_assoc]
    rw [keepable_open (.inl rfl) _ total]
    cases room with
    | zero => rfl
    | succ room =>
      rw [keepable_tokens first _ (show depth + 1 + room = limit by omega),
        keepable_elementTokens values rest (show depth + 1 + room = limit by omega), fits, elementsFit,
        Bool.and_assoc]
      rfl
  | object ((key, first) :: fields) =>
    simp only [tokens, List.cons_append, List.append_assoc]
    rw [keepable_open (.inr rfl) _ total]
    cases room with
    | zero => rfl
    | succ room =>
      have deeper : depth + 1 ≤ limit := by omega
      rw [keepable_flat rfl _ deeper, keepable_flat rfl _ deeper,
        keepable_tokens first _ (show depth + 1 + room = limit by omega),
        keepable_fieldTokens fields rest (show depth + 1 + room = limit by omega), fits, fieldsFit]
      simp only [Token.isKept, Bool.true_and, Bool.and_assoc]
      rfl

private theorem keepable_elementTokens (values : List Json) {depth room : Nat} (rest : List Token)
    (total : depth + 1 + room = limit) : keepable reader limit (depth + 1) (elementTokens values ++ rest) =
      (elementsFit reader values room && keepable reader limit depth rest) := by
  match values with
  | [] => exact keepable_close (.inl rfl) rest (by omega)
  | first :: values =>
    simp only [elementTokens, List.cons_append, List.append_assoc]
    rw [keepable_flat rfl _ (by omega), keepable_tokens first _ total, keepable_elementTokens values rest total,
      elementsFit, Bool.and_assoc]
    rfl

private theorem keepable_fieldTokens (fields : List (Option String × Json)) {depth room : Nat}
    (rest : List Token)
    (total : depth + 1 + room = limit) : keepable reader limit (depth + 1) (fieldTokens fields ++ rest) =
      (fieldsFit reader fields room && keepable reader limit depth rest) := by
  match fields with
  | [] => exact keepable_close (.inr rfl) rest (by omega)
  | (key, first) :: fields =>
    simp only [fieldTokens, List.cons_append, List.append_assoc]
    rw [keepable_flat rfl _ (by omega), keepable_flat rfl _ (by omega), keepable_flat rfl _ (by omega),
      keepable_tokens first _ total, keepable_fieldTokens fields rest total, fieldsFit]
    simp only [Token.isKept, Bool.true_and, Bool.and_assoc]

end

theorem fieldsFit_eq_all (fields : List (Option String × Json)) (room : Nat) :
    fieldsFit reader fields room = fields.all fun field => field.1.isSome && field.2.fits reader room := by
  induction fields with
  | nil => rfl
  | cons field fields ih => rw [List.all_cons, ← ih, fieldsFit]

/-- A reader that keeps values as a whole reads a text if there is room for the value that it stands for. -/
theorem readKept?_of_read? {text : String} {value : Json} (read : read? text = some value) :
    readKept? reader text = if value.fits reader keptDepth then some value else none := by
  have kept : keepable reader keptDepth 0 value.tokens = value.fits reader keptDepth := by
    have all : keepable reader keptDepth 0 (value.tokens ++ []) = _ :=
      keepable_tokens value [] (Nat.zero_add keptDepth)
    rw [List.append_nil] at all
    exact all.trans (Bool.and_true _)
  rw [readKept?, ofText?_of_read? read]
  simp only [← kept, ofAllTokens?_tokens]
  rfl

end Keeping
end Admission.Json
