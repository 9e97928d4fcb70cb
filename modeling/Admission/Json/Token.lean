import Admission.Json.Numeral

namespace Admission.Json

/-- A string that names half of a surrogate pair is a token, but stands for no text. -/
inductive Token
  | leftBrace
  | rightBrace
  | leftBracket
  | rightBracket
  | comma
  | colon
  | null
  | bool (value : Bool)
  | number (numeral : Numeral)
  | string (text? : Option String)
  deriving DecidableEq, Repr

namespace Token

/-- What a string is made of: characters, and the UTF-16 units that escapes name. -/
inductive Piece
  | char (c : Char)
  | unit (value : Nat)
  deriving DecidableEq, Repr

def hexDigit? (c : Char) : Option Nat :=
  if c.isDigit then some (c.toNat - '0'.toNat)
  else if 'a' ≤ c ∧ c ≤ 'f' then some (c.toNat - 'a'.toNat + 10)
  else if 'A' ≤ c ∧ c ≤ 'F' then some (c.toNat - 'A'.toNat + 10)
  else none

/-- The character that an escape of one letter stands for. -/
def escaped? : Char → Option Char
  | '"' => some '"'
  | '\\' => some '\\'
  | '/' => some '/'
  | 'b' => some '\x08'
  | 'f' => some '\x0c'
  | 'n' => some '\n'
  | 'r' => some '\r'
  | 't' => some '\t'
  | _ => none

/-- The pieces of a string up to its closing quote, and what follows. -/
def pieces? : List Char → Option (List Piece × List Char)
  | [] => none
  | '"' :: rest => some ([], rest)
  | '\\' :: 'u' :: a :: b :: c :: d :: rest => do
    let a ← hexDigit? a
    let b ← hexDigit? b
    let c ← hexDigit? c
    let d ← hexDigit? d
    let (pieces, rest) ← pieces? rest
    some (.unit (((16 * a + b) * 16 + c) * 16 + d) :: pieces, rest)
  | '\\' :: letter :: rest => do
    let c ← escaped? letter
    let (pieces, rest) ← pieces? rest
    some (.char c :: pieces, rest)
  | c :: rest =>
    if c.val < 0x20 then none
    else do
      let (pieces, rest) ← pieces? rest
      some (.char c :: pieces, rest)

/-- The first unit of a surrogate pair. -/
def isLeading (unit : Nat) : Bool := 0xd800 ≤ unit && unit < 0xdc00

def isTrailing (unit : Nat) : Bool := 0xdc00 ≤ unit && unit < 0xe000

/-- The characters of a string, unless half a surrogate pair is among its pieces. -/
def chars? : List Piece → Option (List Char)
  | [] => some []
  | .char c :: rest => (chars? rest).map (c :: ·)
  | .unit u :: .unit v :: rest =>
    if isLeading u then
      if isTrailing v then
        (chars? rest).map (Char.ofNat (0x10000 + 0x400 * (u - 0xd800) + (v - 0xdc00)) :: ·)
      else none
    else if isTrailing u then none
    else (chars? (.unit v :: rest)).map (Char.ofNat u :: ·)
  | .unit u :: rest =>
    if isLeading u || isTrailing u then none else (chars? rest).map (Char.ofNat u :: ·)

def isBlank (c : Char) : Bool :=
  c = ' ' || c = '\t' || c = '\n' || c = '\r'

/-- Reads the token at the front of a text that does not start with a blank. -/
def read? : List Char → Option (Token × List Char)
  | '\x7b' :: rest => some (leftBrace, rest)
  | '\x7d' :: rest => some (rightBrace, rest)
  | '[' :: rest => some (leftBracket, rest)
  | ']' :: rest => some (rightBracket, rest)
  | ',' :: rest => some (comma, rest)
  | ':' :: rest => some (colon, rest)
  | 'n' :: 'u' :: 'l' :: 'l' :: rest => some (null, rest)
  | 't' :: 'r' :: 'u' :: 'e' :: rest => some (bool true, rest)
  | 'f' :: 'a' :: 'l' :: 's' :: 'e' :: rest => some (bool false, rest)
  | '"' :: rest =>
    (pieces? rest).map fun (pieces, rest) => (string ((chars? pieces).map String.ofList), rest)
  | text => (Numeral.read? text).map fun (numeral, rest) => (number numeral, rest)

/-- The tokens of a text, in at most `fuel` steps. -/
def readAll? : Nat → List Char → Option (List Token)
  | _, [] => some []
  | 0, _ :: _ => none
  | fuel + 1, c :: rest =>
    if isBlank c then readAll? fuel rest
    else match read? (c :: rest) with
      | some (token, rest) => (readAll? fuel rest).map (token :: ·)
      | none => none

/-- The tokens of a text. Every step takes a character, so its length bounds the steps. -/
def ofText? (text : List Char) : Option (List Token) :=
  readAll? text.length text

def hexText (n : Nat) : String :=
  String.ofList [Nat.digitChar (n / 16), Nat.digitChar (n % 16)]

/-- How a character stands in a string. -/
def charText (c : Char) : String :=
  if c = '"' then "\\\"" else if c = '\\' then "\\\\"
  else if c.val < 0x20 then "\\u00" ++ hexText c.toNat
  else String.singleton c

/-- The written form of a token. A string without a text is written as half a pair. -/
def text : Token → String
  | leftBrace => "\x7b"
  | rightBrace => "\x7d"
  | leftBracket => "["
  | rightBracket => "]"
  | comma => ","
  | colon => ":"
  | null => "null"
  | bool value => if value then "true" else "false"
  | number numeral => numeral.text
  | string (some text) => "\"" ++ String.join (text.toList.map charText) ++ "\""
  | string none => "\"\\ud800\""

/-- Whether a reader that keeps every value can keep this one: numbers are finite, and
strings have a text. -/
def isKept (reader : NumberReader) : Token → Bool
  | number numeral => (reader numeral).isSome
  | string text? => text?.isSome
  | _ => true

def depthAfter (depth : Nat) : Token → Nat
  | leftBrace | leftBracket => depth + 1
  | rightBrace | rightBracket => depth - 1
  | _ => depth

/-- Whether no token of a list is nested deeper than a limit. -/
def nestsWithin (limit : Nat) : Nat → List Token → Bool
  | _, [] => true
  | depth, token :: rest =>
    let depth := depthAfter depth token
    depth ≤ limit && nestsWithin limit depth rest

end Token
end Admission.Json
