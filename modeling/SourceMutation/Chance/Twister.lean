import SourceMutation.Chance.Chooser
import SourceMutation.Chance.Seed

/-!
# The seeded generator

The Mersenne Twister with 624 words of 32 bits.  A seed is an integer; its magnitude, cut into
words, least significant first, fills the state.

A number below `n` is drawn by taking as many leading bits of the next output as `n` has binary
digits, until the number they write is below `n`.
-/

namespace SourceMutation

/-- The state of the generator. -/
structure Twister where
  /-- The state words. -/
  words : Array UInt32
  /-- How many of them have been given out since the last renewal. -/
  used : Nat
  deriving Inhabited

namespace Twister

/-- How many words the state has. -/
def size : Nat := 624

/-- How many values a word has. -/
def wordRange : Nat := 4294967296

/-- The word at an index. -/
def word (words : Array UInt32) (i : Nat) : UInt32 := words.getD i 0

/-! ## Seeding -/

/-- The state that every seed starts from. -/
def initial : Array UInt32 :=
  (List.range (size - 1)).foldl
    (fun (words : Array UInt32) i =>
      let previous := word words i
      words.push ((previous ^^^ (previous >>> 30)) * 1812433253 + UInt32.ofNat (i + 1)))
    #[19650218]

/-- A word and its neighbour mixed, the neighbour weighed by a factor. -/
def mixed (words : Array UInt32) (i : Nat) (factor : UInt32) : UInt32 :=
  let previous := word words (i - 1)
  word words i ^^^ ((previous ^^^ (previous >>> 30)) * factor)

/-- Sets a word and moves on; after the last word, the first takes its value and is passed over. -/
def setAndAdvance (words : Array UInt32) (i : Nat) (value : UInt32) : Array UInt32 × Nat :=
  let words := words.setIfInBounds i value
  if i + 1 < size then (words, i + 1) else (words.setIfInBounds 0 value, 1)

/-- The magnitude of a seed in words, least significant first; zero has one word. -/
def keyWords : (fuel : Nat) → Nat → List UInt32
  | 0, _ => []
  | fuel + 1, n =>
    UInt32.ofNat n :: if n / wordRange = 0 then [] else keyWords fuel (n / wordRange)

/-- The state filled from key words. -/
def fill (key : Array UInt32) : Array UInt32 :=
  let rounds := max size key.size
  let (words, i) := (List.range rounds).foldl
    (fun (words, i) k =>
      let j := k % key.size
      setAndAdvance words i (mixed words i 1664525 + word key j + UInt32.ofNat j))
    (initial, 1)
  let (words, _) := (List.range (size - 1)).foldl
    (fun (words, i) _ => setAndAdvance words i (mixed words i 1566083941 - UInt32.ofNat i))
    (words, i)
  words.setIfInBounds 0 0x80000000

/-- The generator of a seed. -/
def ofSeed (seed : Int) : Twister :=
  let magnitude := seed.natAbs
  ⟨fill (keyWords (magnitude.log2 / 32 + 1) magnitude).toArray, size⟩

/-! ## Output -/

/-- All words renewed. -/
def renew (words : Array UInt32) : Array UInt32 :=
  (List.range size).foldl
    (fun (words : Array UInt32) i =>
      let joined :=
        (word words i &&& 0x80000000) ||| (word words ((i + 1) % size) &&& 0x7FFFFFFF)
      let twist : UInt32 := if joined &&& 1 == 0 then 0 else 0x9908B0DF
      words.setIfInBounds i (word words ((i + 397) % size) ^^^ (joined >>> 1) ^^^ twist))
    words

/-- A state word made into an output. -/
def temper (y : UInt32) : UInt32 :=
  let y := y ^^^ (y >>> 11)
  let y := y ^^^ ((y <<< 7) &&& 0x9D2C5680)
  let y := y ^^^ ((y <<< 15) &&& 0xEFC60000)
  y ^^^ (y >>> 18)

/-- The next output. -/
def next (twister : Twister) : UInt32 × Twister :=
  let twister := if twister.used < size then twister else ⟨renew twister.words, 0⟩
  (temper (word twister.words twister.used), { twister with used := twister.used + 1 })

/-- The number that the next output's `bits` leading bits write, for 1 to 32 of them. -/
def bits (bits : Nat) (twister : Twister) : Nat × Twister :=
  let (output, twister) := twister.next
  (output.toNat / Nat.pow 2 (32 - bits), twister)

/-- How many outputs may be rejected for one number.  Each is rejected with a chance of less than
one half. -/
def rejectionLimit : Nat := 10000

/-- Draws until a number is below the bound. -/
def rejecting (bound width : Nat) : (fuel : Nat) → Twister → Option (Fin bound × Twister)
  | 0, _ => none
  | fuel + 1, twister =>
    let (n, twister) := twister.bits width
    if h : n < bound then some (⟨n, h⟩, twister) else rejecting bound width fuel twister

/-- The generator as a chooser, for bounds of at most 32 binary digits. -/
instance : Chooser Twister where
  below bound twister :=
    if bound < wordRange then rejecting bound (bound.log2 + 1) rejectionLimit twister else none

/-! ## Seeds among the settings -/

/-- The generator that a setting asks for; `none` where it leaves the seed open. -/
def ofSetting (given : Value) : Except Failure (Option Twister) :=
  (fun seed? => seed?.map ofSeed) <$> Seed.ofValue given

end Twister

end SourceMutation
