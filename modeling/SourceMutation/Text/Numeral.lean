import SourceMutation.Text.Blank

/-!
# Numerals

Decimal integers as people write them: blanks around, a sign, digits of any script, and a single
underscore between two digits to group them.

A digit is a character of Unicode's decimal digit class; they come in runs of ten.  Of the blank
characters the four information separators do not count as blank around a numeral.  A numeral of
more than `Numeral.maxDigits` digits is not read, whatever follows it.
-/

namespace SourceMutation.Numeral

/-! ## Digits -/

/-- The code points of the digits zero; each starts a run of ten digits. -/
def zeros : List Nat :=
  [0x30, 0x660, 0x6F0, 0x7C0, 0x966, 0x9E6, 0xA66, 0xAE6, 0xB66, 0xBE6, 0xC66, 0xCE6, 0xD66, 0xDE6,
    0xE50, 0xED0, 0xF20, 0x1040, 0x1090, 0x17E0, 0x1810, 0x1946, 0x19D0, 0x1A80, 0x1A90, 0x1B50,
    0x1BB0, 0x1C40, 0x1C50, 0xA620, 0xA8D0, 0xA900, 0xA9D0, 0xA9F0, 0xAA50, 0xABF0, 0xFF10, 0x104A0,
    0x10D30, 0x11066, 0x110F0, 0x11136, 0x111D0, 0x112F0, 0x11450, 0x114D0, 0x11650, 0x116C0,
    0x11730, 0x118E0, 0x11950, 0x11C50, 0x11D50, 0x11DA0, 0x16A60, 0x16AC0, 0x16B50, 0x1D7CE,
    0x1D7D8, 0x1D7E2, 0x1D7EC, 0x1D7F6, 0x1E140, 0x1E2F0, 0x1E950, 0x1FBF0]

/-- The value of a digit. -/
def digit? (c : Char) : Option Nat :=
  (zeros.find? fun z => z ≤ c.toNat && c.toNat < z + 10).map (c.toNat - ·)

/-- Whether a character may stand around a numeral. -/
def isMargin (c : Char) : Bool := isBlank c && !(0x1C ≤ c.toNat && c.toNat ≤ 0x1F)

/-! ## Reading -/

/-- Why a text is not read as an integer. -/
inductive Fault where
  /-- It is no numeral. -/
  | malformed
  /-- It has this many digits, more than are read. -/
  | tooLong (digits : Nat)
  deriving DecidableEq, Repr

/-- The most digits that a numeral may have. -/
def maxDigits : Nat := 4300

/-- What stands at the head of a text: digit values, and the rest after them. -/
structure Run where
  /-- The values of the digits, first one first. -/
  digits : List Nat
  /-- What follows the last digit. -/
  rest : List Char

/--
The digits at the head of `cs`, with single underscores between them.  `none` where an underscore
has no digit on its right.
-/
def digitRun : List Char → Option Run
  | [] => some ⟨[], []⟩
  | '_' :: c :: rest =>
    match digit? c with
    | none => none
    | some d => (digitRun rest).map fun run => ⟨d :: run.digits, run.rest⟩
  | ['_'] => none
  | c :: rest =>
    match digit? c with
    | none => some ⟨[], c :: rest⟩
    | some d => (digitRun rest).map fun run => ⟨d :: run.digits, run.rest⟩

/-- The number that digits write. -/
def value (digits : List Nat) : Nat := digits.foldl (fun n d => 10 * n + d) 0

/-- Reads the unsigned part of a numeral and the margin after it. -/
def readMagnitude (cs : List Char) : Except Fault Nat :=
  match cs with
  | '_' :: _ => .error .malformed
  | _ =>
    match digitRun cs with
    | none => .error .malformed
    | some run =>
      if run.digits.isEmpty then .error .malformed
      else if maxDigits < run.digits.length then .error (.tooLong run.digits.length)
      else if run.rest.all isMargin then .ok (value run.digits)
      else .error .malformed

/-- The integer that a text writes. -/
def read (text : String) : Except Fault Int :=
  match text.toList.dropWhile isMargin with
  | '-' :: rest => (fun n : Nat => -(n : Int)) <$> readMagnitude rest
  | '+' :: rest => Int.ofNat <$> readMagnitude rest
  | rest => Int.ofNat <$> readMagnitude rest

/-- The integer that a text writes, if it writes one. -/
def read? (text : String) : Option Int := (read text).toOption

end SourceMutation.Numeral
