import Admission.Json.Basic

namespace Admission.Json

/-- The values given for a name, in order. -/
def valuesOf (name : String) (fields : List (Option String × Json)) : List Json :=
  (fields.filter fun field => field.1 = some name).map (·.2)

/-- The value given for a name, if any; a name that is given twice is an error. -/
def single? : List Json → Option (Option Json)
  | [] => some none
  | [value] => some (some value)
  | _ => none

/-- The values of the declared fields, for each of them one or none. -/
def record? (names : List String) : Json → Option (List (Option Json))
  | object fields =>
    if fields.all fun field => field.1.isSome then
      names.mapM fun name => single? (valuesOf name fields)
    else none
  | array values =>
    if values.length ≤ names.length then
      some (values.map some ++ List.replicate (names.length - values.length) none)
    else none
  | _ => none

def text? : Json → Option String
  | string text? => text?
  | _ => none

def numeral? : Json → Option Numeral
  | number numeral => some numeral
  | _ => none

def uint64? (value : Json) : Option UInt64 :=
  value.numeral?.bind Numeral.toUInt64?

def uint8? (value : Json) : Option UInt8 :=
  match value.uint64? with
  | some word => if word < 256 then some word.toUInt8 else none
  | none => none

def binary64? (value : Json) : Option Binary64 :=
  value.numeral?.bind Numeral.toBinary64?

/-- One of several names: a string, or an object whose one field has the name and is null. -/
def choice? : Json → Option String
  | string text? => text?
  | object [(key, null)] => key
  | _ => none

def required? {α : Type} (read : Json → Option α) (field : Option Json) : Option α :=
  field.bind read

/-- A field that may be left out and then has a default. -/
def defaulted? {α : Type} (default : α) (read : Json → Option α) : Option Json → Option α
  | none => some default
  | some value => read value

/-- A field that may be left out or null. -/
def optional? {α : Type} (read : Json → Option α) : Option Json → Option (Option α)
  | none | some null => some none
  | some value => (read value).map some

end Admission.Json
