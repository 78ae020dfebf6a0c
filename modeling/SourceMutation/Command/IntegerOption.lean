import SourceMutation.Text.Numeral

/-!
# Integers as options

The value of an option that is an integer.  Its plain form is a minus sign perhaps, and digits of
which the first is no zero unless it is the only one.  Other forms are brought into the plain one:
blanks around it, a plus sign, zeros in front, a fraction of zeros, and single underscores to group
digits do not count.
-/

namespace SourceMutation.IntegerOption

/-- The most characters that a plain form may have, the sign included. -/
def maxLength : Nat := 4300

/-! ## The plain form -/

/-- The natural number of a plain form without a sign. -/
def natural? (cs : List Char) : Option Nat :=
  match cs with
  | [] => none
  | '0' :: _ :: _ => none
  | _ =>
    if cs.all Char.isDigit then some (Numeral.value (cs.map fun c => c.toNat - '0'.toNat)) else none

/-- The integer of a plain form. -/
def ofPlain? (cs : List Char) : Option Int :=
  if maxLength < cs.length then none
  else
    match cs with
    | '-' :: digits => (natural? digits).map fun n => -(n : Int)
    | digits => (natural? digits).map Int.ofNat

/-! ## Other forms -/

/-- Characters without the margins around them. -/
def trimmed (cs : List Char) : List Char :=
  ((cs.dropWhile Numeral.isMargin).reverse.dropWhile Numeral.isMargin).reverse

/-- Characters without a plus sign in front, which no minus sign may follow. -/
def withoutPlus? : List Char → Option (List Char)
  | '+' :: '-' :: _ => none
  | '+' :: rest => some rest
  | cs => some cs

/--
What follows zeros and underscores in front, the last of which is `last`.  That one stays where a
point follows or nothing does.
-/
def afterZeros? (last : Char) : List Char → Option (List Char)
  | [] => some [last]
  | '0' :: rest => afterZeros? '0' rest
  | '_' :: rest => afterZeros? '_' rest
  | '.' :: rest => some (last :: '.' :: rest)
  | c :: rest => if c.isDigit then some (c :: rest) else none

/-- Characters without zeros in front; they must start with a digit or a minus sign. -/
def withoutZeros? : List Char → Option (List Char)
  | '0' :: rest => afterZeros? '0' rest
  | c :: rest => if c.isDigit || c == '-' then some (c :: rest) else none
  | [] => none

/-- Characters without the fraction after the first point, if that is made of zeros alone. -/
def withoutFraction (cs : List Char) : List Char :=
  match cs.dropWhile (· != '.') with
  | '.' :: zero :: zeros =>
    if (zero :: zeros).all (· == '0') then cs.takeWhile (· != '.') else cs
  | _ => cs

/-- Whether two underscores stand next to each other. -/
def hasDouble : List Char → Bool
  | '_' :: '_' :: _ => true
  | _ :: rest => hasDouble rest
  | [] => false

/-- Characters without underscores, if those only stand alone and between others. -/
def withoutGroups (cs : List Char) : List Char :=
  if cs.head? = some '_' || cs.getLast? = some '_' || hasDouble cs then cs
  else cs.filter (· != '_')

/-! ## Reading -/

/-- The integer that a text writes, if it writes one. -/
def read? (text : String) : Option Int := do
  let cs ← withoutPlus? (trimmed text.toList)
  let cs ← withoutZeros? cs
  ofPlain? (withoutGroups (withoutFraction cs))

end SourceMutation.IntegerOption
