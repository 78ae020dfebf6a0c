import SourceMutation.Chance.Digest
import SourceMutation.Failure

/-!
# Seeds

A seed may be given as a value of several sorts; each stands for an integer.  Integers and truth
values stand for their number.  A text stands for the number that its bytes write with the bytes of
their digest behind them.  A real number stands for its residue, which equal numbers share.
-/

namespace SourceMutation.Seed

/-- The prime number that residues are taken by. -/
def modulus : Nat := 2305843009213693951

/-- How many numbers the residues of negative numbers are counted down from. -/
def range : Nat := 18446744073709551616

/-- The residue of an infinity. -/
def infinityResidue : Nat := 314159

/-- The residue of a negative number, from that of its magnitude.  The residue right below the range
is passed over. -/
def negated (residue : Nat) : Nat :=
  if residue = 0 then 0 else if residue = 1 then range - 2 else range - residue

/-- The residue of `m · 2 ^ e`.  The sixty-first power of two has the residue one. -/
def residueOf (m : Nat) (e : Int) : Nat := m * Nat.pow 2 (e % 61).toNat % modulus

/-- The residue of a real number; what is no number has none. -/
def residue : Real → Nat
  | .nan => 0
  | .infinite negative => if negative then negated infinityResidue else infinityResidue
  | .finite negative digits exponent =>
    let (m, e) := Real.binary digits exponent
    if negative then negated (residueOf m e) else residueOf m e

/-- The number that a text stands for. -/
def ofText (text : String) : Nat :=
  let bytes := Utf8.encode text
  Digest.number (bytes ++ Digest.ofBytes bytes)

/-- The integer that a value stands for; `none` where it leaves the seed open. -/
def ofValue : Value → Except Failure (Option Int)
  | .none => .ok none
  | .int n => .ok (some n)
  | .bool b => .ok (some (if b then 1 else 0))
  | .real x => .ok (some (residue x))
  | .text s => .ok (some (ofText s))
  | .list _ | .dict _ => .error .seedSort

end SourceMutation.Seed
