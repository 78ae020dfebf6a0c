import SourceMutation.Scan.Glob

/-!
# Expressions

The pieces of a pattern written as a regular expression.  Nothing is matched with it; it is the text
in which the place of a range that runs backwards is told.
-/

namespace SourceMutation

/-! ## Members of classes -/

/-- A character inside a class: only a backslash needs another one before it. -/
def ClassItem.spelledChar (c : Char) : List Char := if c = '\\' then ['\\', '\\'] else [c]

/-- A member of a class as it is spelled. -/
def ClassItem.spelled : ClassItem → List Char
  | .single c => spelledChar c
  | .range first last => spelledChar first ++ '-' :: spelledChar last

/-- What stands before the members of a class. -/
def CharClass.opening (cls : CharClass) : List Char := if cls.negated then ['[', '^'] else ['[']

/-! ## Pieces -/

namespace Piece

/-- The characters that mean something outside of classes. -/
def special : List Char := "()[]\x7b\x7d?*+-|^$\\.&~# \t\n\r\x0b\x0c".toList

/-- A piece as it is spelled. -/
def spelled : Piece → List Char
  | .char c => if special.contains c then ['\\', c] else [c]
  | .any => "[^/]".toList
  | .anyRun => "[^/]*".toList
  | .wholeName => "[^/]+".toList
  | .oneOf cls => cls.opening ++ cls.items.flatMap ClassItem.spelled ++ [']']
  | .leadingDirectories => "(?:.+/)?".toList
  | .innerDirectories => "(?:/.+)?".toList
  | .nameEnd => "(?:/|$)".toList

/-- The expression of a pattern's pieces: it starts with the mark that ties it to the start. -/
def expression (pieces : List Piece) : List Char := '^' :: pieces.flatMap spelled

end Piece

/-! ## Ranges that run backwards -/

/-- A range that runs backwards, by its text and where it stands. -/
structure BackwardRange where
  range : String
  position : Nat
  deriving DecidableEq, Repr

namespace BackwardRange

/-- The first range that runs backwards among members that start at a position. -/
def inItems (position : Nat) : List ClassItem → Option BackwardRange
  | [] => none
  | item :: rest =>
    if item.isBackward then some ⟨String.ofList item.spelled, position⟩
    else inItems (position + item.spelled.length) rest

/-- The first range that runs backwards among pieces that start at a position. -/
def inPieces (position : Nat) : List Piece → Option BackwardRange
  | [] => none
  | piece :: rest =>
    let here :=
      match piece with
      | .oneOf cls => inItems (position + cls.opening.length) cls.items
      | _ => none
    here.or (inPieces (position + piece.spelled.length) rest)

/-- The first range of a pattern that runs backwards. -/
def find? (pieces : List Piece) : Option BackwardRange := inPieces 1 pieces

/-- The line and the column of a position in an expression, if it has several lines. -/
def place? (expression : List Char) (position : Nat) : Option (Nat × Nat) :=
  if expression.contains '\n' then
    let before := expression.take position
    some (before.count '\n' + 1, (before.reverse.takeWhile (· != '\n')).length + 1)
  else none

end BackwardRange

end SourceMutation
