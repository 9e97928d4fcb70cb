import Admission.Json.Token

/-! JSON values. The fields of an object keep their order and may repeat, since it is for the
reader of a record to say which repetitions it minds. -/
namespace Admission

inductive Json
  | null
  | bool (value : Bool)
  | number (numeral : Json.Numeral)
  | string (text? : Option String)
  | array (values : List Json)
  | object (fields : List (Option String × Json))
  deriving Inhabited

namespace Json

mutual

/-- Reads the value at the front of a list of tokens. -/
def ofTokens? : Nat → List Token → Option (Json × List Token)
  | 0, _ => none
  | _ + 1, .null :: rest => some (null, rest)
  | _ + 1, .bool value :: rest => some (bool value, rest)
  | _ + 1, .number numeral :: rest => some (number numeral, rest)
  | _ + 1, .string text? :: rest => some (string text?, rest)
  | _ + 1, .leftBracket :: .rightBracket :: rest => some (array [], rest)
  | fuel + 1, .leftBracket :: rest =>
    (elements? fuel rest).map fun (values, rest) => (array values, rest)
  | _ + 1, .leftBrace :: .rightBrace :: rest => some (object [], rest)
  | fuel + 1, .leftBrace :: rest =>
    (fields? fuel rest).map fun (fields, rest) => (object fields, rest)
  | _ + 1, _ => none

/-- Reads the elements of an array, at least one, and its end. -/
def elements? : Nat → List Token → Option (List Json × List Token)
  | 0, _ => none
  | fuel + 1, tokens =>
    match ofTokens? fuel tokens with
    | some (value, .comma :: rest) =>
      (elements? fuel rest).map fun (values, rest) => (value :: values, rest)
    | some (value, .rightBracket :: rest) => some ([value], rest)
    | _ => none

/-- Reads the fields of an object, at least one, and its end. -/
def fields? : Nat → List Token → Option (List (Option String × Json) × List Token)
  | 0, _ => none
  | fuel + 1, .string key :: .colon :: tokens =>
    match ofTokens? fuel tokens with
    | some (value, .comma :: rest) =>
      (fields? fuel rest).map fun (fields, rest) => ((key, value) :: fields, rest)
    | some (value, .rightBrace :: rest) => some ([(key, value)], rest)
    | _ => none
  | _ + 1, _ => none

end

/-- The value that a whole list of tokens stands for. A value takes two steps for each of its
tokens at most. -/
def ofAllTokens? (tokens : List Token) : Option Json :=
  match ofTokens? (2 * tokens.length) tokens with
  | some (value, []) => some value
  | _ => none

/-- Reads a text that holds one value and nothing else. -/
def read? (text : String) : Option Json :=
  (Token.ofText? text.toList).bind ofAllTokens?

/-- How deep a value that is kept as a whole may be nested. -/
def keptDepth : Nat := 127

/-- Reads a text for a reader that keeps the value as a whole before it looks at it. -/
def readKept? (reader : NumberReader) (text : String) : Option Json :=
  match Token.ofText? text.toList with
  | some tokens =>
    if tokens.all (Token.isKept reader) && Token.nestsWithin keptDepth 0 tokens then ofAllTokens? tokens
    else none
  | none => none

mutual

/-- The tokens of a value. -/
def tokens : Json → List Token
  | null => [.null]
  | bool value => [.bool value]
  | number numeral => [.number numeral]
  | string text? => [.string text?]
  | array [] => [.leftBracket, .rightBracket]
  | array (value :: values) => .leftBracket :: tokens value ++ elementTokens values
  | object [] => [.leftBrace, .rightBrace]
  | object ((key, value) :: fields) =>
    .leftBrace :: .string key :: .colon :: tokens value ++ fieldTokens fields

/-- The tokens of the elements after the first, and of the end of the array. -/
def elementTokens : List Json → List Token
  | [] => [.rightBracket]
  | value :: values => .comma :: tokens value ++ elementTokens values

/-- The tokens of the fields after the first, and of the end of the object. -/
def fieldTokens : List (Option String × Json) → List Token
  | [] => [.rightBrace]
  | (key, value) :: fields =>
    .comma :: .string key :: .colon :: tokens value ++ fieldTokens fields

end

/-- The text of a value without blanks. -/
def text (value : Json) : String :=
  String.join (value.tokens.map Token.text)

end Json
end Admission
