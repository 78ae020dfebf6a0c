import SourceMutation.Text.Blank
import SourceMutation.Text.Columns
import SourceMutation.Text.Lines

/-!
# Paragraphs

A text laid out in lines of a given width, counted in the columns of a display.

Tabs are expanded first.  Lines break between words; a word keeps the blanks after it.  A word that
is wider than a line is cut where it overflows, or the line is cut short with an ellipsis.
-/

namespace SourceMutation.Paragraph

/-! ## Controls and tabs -/

/-- The control characters that a display acts on; they are dropped from a text. -/
def dropControls (cs : List Char) : List Char :=
  cs.filter fun c => !([7, 8, 11, 12, 13].contains c.toNat)

/-- Columns between two tab stops. -/
def tabStop : Nat := 8

/-- Characters with blanks up to the next stop for each tab, after `column` columns. -/
def expandTabs : (column : Nat) → List Char → List Char
  | _, [] => []
  | column, c :: rest =>
    if c = '\t' then
      let blanks := tabStop - column % tabStop
      List.replicate blanks ' ' ++ expandTabs (column + blanks) rest
    else c :: expandTabs (column + Columns.ofChar c) rest

/-! ## Words -/

/-- A word: the blanks before it if it is the first one, its characters, and the blanks after it. -/
def takeWord (cs : List Char) : List Char × List Char :=
  let lead := cs.takeWhile isBlank
  let rest := cs.dropWhile isBlank
  let body := rest.takeWhile fun c => !isBlank c
  let rest := rest.dropWhile fun c => !isBlank c
  (lead ++ body ++ rest.takeWhile isBlank, rest.dropWhile isBlank)

/-- The words of a line, at most `fuel` of them.  Together they are the line. -/
def wordsUpTo : (fuel : Nat) → List Char → List (List Char)
  | 0, _ => []
  | _ + 1, [] => []
  | fuel + 1, cs =>
    let (word, rest) := takeWord cs
    word :: wordsUpTo fuel rest

/-- The words of a line. -/
def words (cs : List Char) : List (List Char) := wordsUpTo cs.length cs

/-! ## Lines -/

/-- What becomes of a word that is wider than a line. -/
inductive Overflow where
  /-- It goes on in the next line. -/
  | fold
  /-- Its line is cut short with an ellipsis. -/
  | ellipsis
  deriving DecidableEq, Repr

/-- Characters in pieces of a width, at most `fuel` of them and each with a character at least. -/
def pieces (limit : Nat) : (fuel : Nat) → List Char → List (List Char)
  | 0, _ => []
  | fuel + 1, cs =>
    if Columns.count cs ≤ limit then [cs]
    else
      let size := max 1 (Columns.take limit cs).length
      cs.take size :: pieces limit fuel (cs.drop size)

/--
Lays words out.  `line` is what the current line holds; a word that does not fit starts a line of
its own.
-/
def layOut (limit : Nat) (overflow : Overflow) : (line : List Char) → List (List Char) →
    List (List Char)
  | line, [] => [line]
  | line, word :: rest =>
    let needed := Columns.count (dropBlankEnd word)
    if Columns.count line + needed ≤ limit then layOut limit overflow (line ++ word) rest
    else if limit < needed && overflow == .fold then
      let cut := pieces limit word.length word
      let before := if line.isEmpty then [] else [line]
      before ++ cut.dropLast ++ layOut limit overflow (cut.getLastD []) rest
    else if line.isEmpty then layOut limit overflow word rest
    else line :: layOut limit overflow word rest

/-- A line of more characters than the width, without as many of the blanks at its end as there are
characters too many. -/
def trimTo (limit : Nat) (line : List Char) : List Char :=
  let blanks := line.length - (dropBlankEnd line).length
  line.take (line.length - min blanks (line.length - limit))

/-- A line cut to the width, perhaps with an ellipsis where something is missing. -/
def cutTo (limit : Nat) (overflow : Overflow) (line : List Char) : List Char :=
  if limit < Columns.count line then
    match overflow with
    | .fold => Columns.cut limit line
    | .ellipsis => Columns.cut (limit - 1) line ++ ['…']
  else line

/-- The lines of a text at a width. -/
def lines (limit : Nat) (overflow : Overflow) (text : String) : List String :=
  (Fields.split '\n' (dropControls text.toList)).flatMap fun line =>
    (layOut limit overflow [] (words (expandTabs 0 line))).map fun line =>
      String.ofList (cutTo limit overflow (trimTo limit line))

end SourceMutation.Paragraph
