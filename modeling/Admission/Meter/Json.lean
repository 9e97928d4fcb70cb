import Admission.Json.Record
import Admission.Meter.Basic

namespace Admission.Meter

/-- The fields in the order in which they are declared, the name of the algorithm first. -/
def fieldNames : Algorithm → List String
  | .tokenBucket => ["algorithm", "tokens", "last_refill"]
  | .slidingWindow => ["algorithm", "window_start", "current_count", "previous_count"]

/-- The meter of an algorithm with fields of its names. -/
def ofFields? (reader : Json.NumberReader) (algorithm : Algorithm) (fields : List (Option Json)) :
    Option Meter :=
  match algorithm, fields with
  | .tokenBucket, [tag, tokens, lastRefill] => do
    let _ ← (Json.required? Json.text? tag).filter (· = algorithm.tag)
    let tokens ← Json.required? (fun v => v.numeral?.bind reader) tokens
    let lastRefill ← Json.required? Json.uint64? lastRefill
    some (.bucket { tokens, lastRefill })
  | .slidingWindow, [tag, start, current, previous] => do
    let _ ← (Json.required? Json.text? tag).filter (· = algorithm.tag)
    let start ← Json.required? Json.uint64? start
    let current ← Json.required? Json.uint64? current
    let previous ← Json.required? Json.uint64? previous
    some (.window { start, current, previous })
  | _, _ => none

def ofJsonAs? (reader : Json.NumberReader) (algorithm : Algorithm) (value : Json) : Option Meter :=
  (value.record? (fieldNames algorithm)).bind (ofFields? reader algorithm)

def ofJson? (reader : Json.NumberReader) (value : Json) : Option Meter :=
  (ofJsonAs? reader .tokenBucket value).or (ofJsonAs? reader .slidingWindow value)

/-- The fields of a meter, unless it holds a number that has no numeral. -/
def jsonFields? : Meter → Option (List (Option String × Json))
  | bucket b =>
    (Json.Numeral.ofBinary64? b.tokens).map fun tokens =>
      [(some "algorithm", .string (some Algorithm.tokenBucket.tag)),
        (some "tokens", .number tokens),
        (some "last_refill", .number (.ofUInt64 b.lastRefill))]
  | window w =>
    some
      [(some "algorithm", .string (some Algorithm.slidingWindow.tag)),
        (some "window_start", .number (.ofUInt64 w.start)),
        (some "current_count", .number (.ofUInt64 w.current)),
        (some "previous_count", .number (.ofUInt64 w.previous))]

/-- Reads a meter from a text with a reader of numbers. -/
def readWith? (reader : Json.NumberReader) (text : String) : Option Meter :=
  (Json.readKept? reader text).bind (ofJson? reader)

def read? (text : String) : Option Meter :=
  readWith? Json.Numeral.toBinary64? text

def text? (meter : Meter) : Option String :=
  meter.jsonFields?.map fun fields => (Json.object fields).text

end Admission.Meter
