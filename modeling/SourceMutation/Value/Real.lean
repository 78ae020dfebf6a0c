/-!
# Real numbers

Double-precision numbers, given and shown by the shortest decimal that reads back as them.

Between 10⁻⁴ and 10¹⁶ a number is written positionally, with at least one digit after the point;
otherwise with an exponent of at least two digits.

Whatever has to be rounded goes to the nearest value, and half to the even neighbour
(`Rounding.nearest`): to a natural number, or to the 53 leading bits that double precision keeps
(`Real.quotient`).
-/

namespace SourceMutation

/-! ## Rounding -/

namespace Rounding

/-- A quotient rounded to the nearest number; half goes to the even neighbour. -/
def nearest (n d : Nat) : Nat :=
  let rest := n % d
  let up := d < 2 * rest || (d == 2 * rest && n / d % 2 == 1)
  if up then n / d + 1 else n / d

end Rounding

/-- A double-precision number. -/
inductive Real where
  /-- No number. -/
  | nan
  /-- An infinity. -/
  | infinite (negative : Bool)
  /-- Plus or minus `digits · 10 ^ exponent`. -/
  | finite (negative : Bool) (digits : Nat) (exponent : Int)
  deriving DecidableEq, Repr, Inhabited

namespace Real

/-! ## Reading -/

/-- The decimal digits at the head of a list, as numbers, and the rest. -/
def digitRun (cs : List Char) : List Nat × List Char :=
  ((cs.takeWhile Char.isDigit).map fun c => c.toNat - 48, cs.dropWhile Char.isDigit)

/-- The number that digits write. -/
def ofDigits (ds : List Nat) : Nat := ds.foldl (fun n d => 10 * n + d) 0

/-- A signed exponent. -/
def readExponent? (cs : List Char) : Option Int :=
  let magnitude (rest : List Char) : Option Int :=
    match digitRun rest with
    | (d :: ds, []) => some (ofDigits (d :: ds))
    | _ => none
  match cs with
  | '-' :: rest => (magnitude rest).map (- ·)
  | '+' :: rest => magnitude rest
  | rest => magnitude rest

/-- An unsigned decimal: digits, perhaps a fraction, perhaps an exponent. -/
def readUnsigned? (negative : Bool) (cs : List Char) : Option Real := do
  let (whole, rest) := digitRun cs
  let (fraction, rest) :=
    match rest with
    | '.' :: rest => digitRun rest
    | _ => ([], rest)
  if whole.isEmpty then none
  let exponent ←
    match rest with
    | [] => some 0
    | c :: rest => if c = 'e' || c = 'E' then readExponent? rest else none
  return .finite negative (ofDigits (whole ++ fraction)) (exponent - fraction.length)

/-- The number that a text writes. -/
def read? (text : String) : Option Real :=
  match text with
  | "nan" => some .nan
  | "inf" => some (.infinite false)
  | "-inf" => some (.infinite true)
  | _ =>
    match text.toList with
    | '-' :: rest => readUnsigned? true rest
    | rest => readUnsigned? false rest

/-! ## Showing -/

/-- So many zeros. -/
def zeros (n : Nat) : String := String.ofList (List.replicate n '0')

/-- An exponent, with a sign and at least two digits. -/
def exponentText (e : Int) : String :=
  let magnitude := toString e.natAbs
  "e" ++ (if e < 0 then "-" else "+") ++ (if magnitude.length < 2 then "0" else "") ++ magnitude

/--
Digits with a point after the first `point` of them, or with an exponent where the point would be
far away.
-/
def digitsText (digits : String) (point : Int) : String :=
  let cs := digits.toList
  if -4 < point ∧ point ≤ 16 then
    if point ≤ 0 then "0." ++ zeros (-point).toNat ++ digits
    else if cs.length ≤ point.toNat then digits ++ zeros (point.toNat - cs.length) ++ ".0"
    else
      String.ofList (cs.take point.toNat) ++ "." ++ String.ofList (cs.drop point.toNat)
  else
    let fraction := String.ofList (cs.drop 1)
    String.ofList (cs.take 1) ++ (if fraction.isEmpty then "" else "." ++ fraction)
      ++ exponentText (point - 1)

/-- The shortest decimal of a number. -/
def text : Real → String
  | .nan => "nan"
  | .infinite negative => if negative then "-inf" else "inf"
  | .finite negative digits exponent =>
    let sign := if negative then "-" else ""
    if digits = 0 then sign ++ "0.0"
    else
      let all := (toString digits).toList
      let kept := (all.reverse.dropWhile (· == '0')).reverse
      sign ++ digitsText (String.ofList kept) (exponent + all.length)

/-! ## Arithmetic -/

/-- Whether a number is zero, of either sign. -/
def isZero : Real → Bool
  | .finite _ digits _ => digits == 0
  | _ => false

/-- Whether a number is below zero. -/
def isNegative : Real → Bool
  | .nan => false
  | .infinite negative => negative
  | .finite negative digits _ => negative && digits != 0

/--
A quotient as `m · 2 ^ e`, rounded to what double precision keeps: `m` has at most 53 bits, and `e`
is at least -1074.
-/
def quotient (n d : Nat) : Nat × Int :=
  let guess : Int := (n.log2 : Int) - d.log2 - 53
  let isLow (e : Int) : Bool :=
    n * Nat.pow 2 (-e).toNat / (d * Nat.pow 2 e.toNat) < Nat.pow 2 53
  let e := max (if isLow guess then guess else guess + 1) (-1074)
  (Rounding.nearest (n * Nat.pow 2 (-e).toNat) (d * Nat.pow 2 e.toNat), e)

/-- The magnitude `digits · 10 ^ exponent` as `m · 2 ^ e`, rounded as a quotient is. -/
def binary (digits : Nat) (exponent : Int) : Nat × Int :=
  quotient (digits * Nat.pow 10 exponent.toNat) (Nat.pow 10 (-exponent).toNat)

/--
The magnitude `digits · 10 ^ exponent` without its fraction, rounded to the 53 leading bits that
double precision keeps (half goes to the even neighbour).
-/
def wholePart (digits : Nat) (exponent : Int) : Nat :=
  let n :=
    if 0 ≤ exponent then digits * Nat.pow 10 exponent.toNat
    else digits / Nat.pow 10 (-exponent).toNat
  let spare := n.log2 + 1 - 53
  let unit := Nat.pow 2 spare
  let low := n % unit
  let high := n / unit
  let up := unit < 2 * low || (unit == 2 * low && low != 0 && high % 2 == 1)
  (if up then high + 1 else high) * unit

/-- The integer that a finite number is, if it is one. -/
def toInt? : Real → Option Int
  | .finite negative digits exponent =>
    let whole := wholePart digits exponent
    let isWhole := 0 ≤ exponent || digits % Nat.pow 10 (-exponent).toNat == 0
    if isWhole then some (if negative then -(whole : Int) else whole) else none
  | _ => none

/-- A finite number without its fraction. -/
def truncate? : Real → Option Int
  | .finite negative digits exponent =>
    let whole := wholePart digits exponent
    some (if negative then -(whole : Int) else whole)
  | _ => none

end Real

end SourceMutation
