import SourceMutation.Text.Lines

/-!
# Blank characters

The white space of the Unicode standard's bidirectional classes: twenty-nine characters.  A text
of blanks alone says nothing, so it is refused where something must be said.
-/

namespace SourceMutation

/-- The code points of the blank characters. -/
def blankCodes : List Nat :=
  [0x09, 0x0A, 0x0B, 0x0C, 0x0D, 0x1C, 0x1D, 0x1E, 0x1F, 0x20, 0x85, 0xA0, 0x1680, 0x2000, 0x2001,
    0x2002, 0x2003, 0x2004, 0x2005, 0x2006, 0x2007, 0x2008, 0x2009, 0x200A, 0x2028, 0x2029, 0x202F,
    0x205F, 0x3000]

/-- Whether a character is blank. -/
def isBlank (c : Char) : Bool := blankCodes.contains c.toNat

/-- Whether a text holds nothing but blanks. -/
def isBlankText (text : String) : Bool := text.toList.all isBlank

/-- Characters without the blanks at their end. -/
def dropBlankEnd (cs : List Char) : List Char := (cs.reverse.dropWhile isBlank).reverse

/-- Characters without the blanks at both ends. -/
def trimBlanks (cs : List Char) : List Char := dropBlankEnd (cs.dropWhile isBlank)

/-- The words of a text, which stand between blanks. -/
def wordsOf (text : String) : List String :=
  let spaced := text.toList.map fun c => if isBlank c then ' ' else c
  ((Fields.split ' ' spaced).filter fun word => !word.isEmpty).map String.ofList

end SourceMutation
