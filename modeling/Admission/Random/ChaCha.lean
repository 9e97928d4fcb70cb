import Admission.Random.Stream

/-! The ChaCha stream with twelve rounds, and the keys that seeds stand for. -/
namespace Admission.Random.ChaCha

abbrev Block := Vector UInt32 16

/-- Rotates to the left by fewer than 32 bits. -/
def rotate (x : UInt32) (bits : UInt32) : UInt32 :=
  x <<< bits ||| x >>> (32 - bits)

def quarterRound (a b c d : Fin 16) (s : Block) : Block :=
  let s := s.set a (s[a] + s[b])
  let s := s.set d (rotate (s[d] ^^^ s[a]) 16)
  let s := s.set c (s[c] + s[d])
  let s := s.set b (rotate (s[b] ^^^ s[c]) 12)
  let s := s.set a (s[a] + s[b])
  let s := s.set d (rotate (s[d] ^^^ s[a]) 8)
  let s := s.set c (s[c] + s[d])
  s.set b (rotate (s[b] ^^^ s[c]) 7)

/-- A round on the columns and a round on the diagonals. -/
def doubleRound (s : Block) : Block :=
  s |> quarterRound 0 4 8 12 |> quarterRound 1 5 9 13
    |> quarterRound 2 6 10 14 |> quarterRound 3 7 11 15
    |> quarterRound 0 5 10 15 |> quarterRound 1 6 11 12
    |> quarterRound 2 7 8 13 |> quarterRound 3 4 9 14

/-- The state before the rounds: constants, key, block counter and a zero nonce. -/
def start (key : Vector UInt32 8) (counter : Nat) : Block :=
  (#v[0x61707865, 0x3320646e, 0x79622d32, 0x6b206574] : Vector UInt32 4) ++ key ++
    #v[UInt32.ofNat counter, UInt32.ofNat (counter / UInt32.size), 0, 0]

def block (key : Vector UInt32 8) (counter : Nat) : Block :=
  let s := start key counter
  (Nat.repeat doubleRound 6 s).zipWith (· + ·) s

/-- The states of the generator that spreads a seed over a key. -/
def spread (seed : UInt64) : Nat → UInt64
  | 0 => seed
  | n + 1 => spread seed n * 6364136223846793005 + 11634580027462260723

/-- The word of the key that a state of the generator gives. -/
def keyWord (state : UInt64) : UInt32 :=
  let x := (((state >>> 18) ^^^ state) >>> 27).toUInt32
  let bits := (state >>> 59).toUInt32
  x >>> bits ||| x <<< ((32 - bits) % 32)

def key (seed : UInt64) : Vector UInt32 8 :=
  Vector.ofFn fun i => keyWord (spread seed (i.val + 1))

/-- The words of the stream are pairs of block words, the lower half first. -/
def stream (seed : UInt64) : Stream :=
  let key := key seed
  { word := fun i =>
      let words := block key (i / 8)
      let low := (words.toArray.getD (2 * (i % 8)) 0).toUInt64
      let high := (words.toArray.getD (2 * (i % 8) + 1) 0).toUInt64
      high <<< 32 ||| low }

end Admission.Random.ChaCha
