import Admission.Binary64.Arithmetic

namespace Admission.Random

/-- An endless sequence of words, and how many of them have been drawn. -/
structure Stream where
  word : Nat → UInt64
  drawn : Nat := 0

namespace Stream

def next (stream : Stream) : UInt64 × Stream :=
  (stream.word stream.drawn, { stream with drawn := stream.drawn + 1 })

/-- The words of a list, and after them the last one for ever. -/
def ofList (words : List UInt64) : Stream :=
  ⟨fun i => words.getD i (words.getLastD 0), 0⟩

end Stream

/-- A number between minus one and one from the upper 52 bits of a word. -/
def symmetricUnit (word : UInt64) : Binary64 :=
  .ofNat (word >>> 12).toNat * (1 / .ofNat Binary64.binade) * 2 + -1

end Admission.Random
