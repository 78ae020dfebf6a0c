import SourceMutation.Text.Utf8

/-!
# Digests

The secure hash with 512 bits: a byte string is filled up to whole blocks of 128 bytes, and the
blocks are mixed one after another into eight words of 64 bits, which are the digest.

The constants are the leading 64 bits behind the point of the square roots of the first eight prime
numbers, and of the cube roots of the first eighty.
-/

namespace SourceMutation.Digest

/-! ## Constants -/

/-- Whether a number is prime. -/
def isPrime (n : Nat) : Bool := 2 ≤ n && (List.range n).all fun d => d < 2 || n % d != 0

/-- The prime numbers up to the eightieth. -/
def primes : List Nat := (List.range 410).filter isPrime

/-- The greatest number whose power is at most `n`, if it is at least `found` and no more than
`bits` bits are missing from it. -/
def root (power n : Nat) : (bits found : Nat) → Nat
  | 0, found => found
  | bits + 1, found =>
    let larger := found + Nat.pow 2 bits
    root power n bits (if Nat.pow larger power ≤ n then larger else found)

/-- The leading 64 bits behind the point of a root of a small number. -/
def rootBits (power n : Nat) : UInt64 :=
  UInt64.ofNat (root power (n * Nat.pow 2 (64 * power)) 70 0)

/-- The words that mixing starts from. -/
def initial : Array UInt64 := ((primes.take 8).map (rootBits 2)).toArray

/-- One word for each round of a block. -/
def roundWords : Array UInt64 := (primes.map (rootBits 3)).toArray

/-! ## Mixing -/

/-- A word turned to the right. -/
def turned (x n : UInt64) : UInt64 := (x >>> n) ||| (x <<< (64 - n))

/-- The number that bytes write, first byte most significant. -/
def number (bytes : Bytes) : Nat := bytes.foldl (fun n b => 256 * n + b.toNat) 0

/-- A number in so many bytes, most significant first. -/
def bytesOf : (size : Nat) → Nat → Bytes
  | 0, _ => []
  | size + 1, n => bytesOf size (n / 256) ++ [UInt8.ofNat n]

/-- The words of a block. -/
def blockWords (block : Bytes) : Array UInt64 :=
  ((List.range 16).map fun i => UInt64.ofNat (number ((block.drop (8 * i)).take 8))).toArray

/-- The words of a block with those made from them, one for each round. -/
def schedule (block : Bytes) : Array UInt64 :=
  (List.range 64).foldl
    (fun (words : Array UInt64) i =>
      let x := words.getD (i + 1) 0
      let y := words.getD (i + 14) 0
      let low := turned x 1 ^^^ turned x 8 ^^^ (x >>> 7)
      let high := turned y 19 ^^^ turned y 61 ^^^ (y >>> 6)
      words.push (words.getD i 0 + low + words.getD (i + 9) 0 + high))
    (blockWords block)

/-- One round, with the sum of its round word and its block word. -/
def mix (words : Array UInt64) (given : UInt64) : Array UInt64 :=
  match words.toList with
  | [a, b, c, d, e, f, g, h] =>
    let high := turned e 14 ^^^ turned e 18 ^^^ turned e 41
    let choice := (e &&& f) ^^^ (~~~e &&& g)
    let first := h + high + choice + given
    let low := turned a 28 ^^^ turned a 34 ^^^ turned a 39
    let majority := (a &&& b) ^^^ (a &&& c) ^^^ (b &&& c)
    #[first + low + majority, a, b, c, d + first, e, f, g]
  | _ => words

/-- Mixes a block into words. -/
def mixBlock (words : Array UInt64) (block : Bytes) : Array UInt64 :=
  let mixed := (Array.zipWith (· + ·) roundWords (schedule block)).foldl mix words
  Array.zipWith (· + ·) words mixed

/-! ## Digests -/

/-- Bytes filled up to whole blocks, with their length in bits at the end. -/
def filled (bytes : Bytes) : Bytes :=
  let spare := (128 - (bytes.length + 17) % 128) % 128
  bytes ++ 0x80 :: List.replicate spare 0 ++ bytesOf 16 (8 * bytes.length)

/-- Mixes all blocks of some bytes into words, at most `fuel` of them. -/
def mixAll : (fuel : Nat) → Array UInt64 → Bytes → Array UInt64
  | 0, words, _ => words
  | fuel + 1, words, bytes =>
    if bytes.isEmpty then words
    else mixAll fuel (mixBlock words (bytes.take 128)) (bytes.drop 128)

/-- The digest of bytes. -/
def ofBytes (bytes : Bytes) : Bytes :=
  let data := filled bytes
  (mixAll data.length initial data).toList.flatMap fun word => bytesOf 8 word.toNat

end SourceMutation.Digest
