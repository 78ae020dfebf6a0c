import SourceMutation.Text.Emoji
import SourceMutation.Text.StyleName

/-!
# Marked text

A text for display may hold tags.  A tag is a name in square brackets that starts with a lower-case
letter or one of three signs; it asks for a style from there on, until a tag closes it whose name is
a slash and a name for the same style.  A slash alone closes the style that was opened last.  Behind
an equals sign a tag may say more.

A backslash before a tag takes its meaning from it, and two backslashes before it stand for one.  A
backslash before a bracket that starts no tag is dropped.

Here no style is shown, so that a marked text is only stripped of its tags, and pictographs are put
in the place of their names.
-/

namespace SourceMutation.Markup

/-- Why a text is not well marked. -/
inductive Fault where
  /-- A tag closes a style that is not open. -/
  | neverOpened (tag : String) (position : Nat)
  /-- A tag closes the last style, but none is open. -/
  | nothingOpen (position : Nat)
  deriving DecidableEq, Repr

/-- A fault in words. -/
def Fault.message : Fault → String
  | .neverOpened tag position =>
    s!"closing tag '[{tag}]' at position {position} doesn't match any open tag"
  | .nothingOpen position => s!"closing tag '[/]' at position {position} has nothing to close"

/-! ## Taking a text apart -/

/-- A part of a marked text. -/
inductive Part where
  /-- Characters without tags. -/
  | plain (cs : List Char)
  /-- A tag: the number of backslashes before it, its inside, and where those backslashes start. -/
  | tag (slashes : Nat) (inside : List Char) (position : Nat)
  deriving DecidableEq, Repr

/-- Whether a tag can start with a character. -/
def startsTag (c : Char) : Bool := c.isLower || c == '#' || c == '/' || c == '@'

/-- Characters up to the bracket that closes them, and those after it. -/
def untilClosed : List Char → Option (List Char × List Char)
  | [] => none
  | ']' :: rest => some ([], rest)
  | '[' :: _ => none
  | c :: rest => (untilClosed rest).map fun (inside, after) => (c :: inside, after)

/-- The inside of a tag and what follows the tag, if one starts here. -/
def tag? : List Char → Option (List Char × List Char)
  | '[' :: c :: rest => if startsTag c then untilClosed (c :: rest) else none
  | _ => none

/-- Characters without tags as a part, if there are any; they are given last one first. -/
def plainPart (reversed : List Char) : List Part :=
  if reversed.isEmpty then [] else [.plain reversed.reverse]

/--
The parts of characters that start at a position.  `before` holds the characters right before them
that belong to no part yet, last one first.  Each step takes at least one of the `fuel` characters.
-/
def partsFrom : (fuel position : Nat) → (before : List Char) → List Char → List Part
  | _, _, before, [] => plainPart before
  | 0, _, before, _ => plainPart before
  | fuel + 1, position, before, c :: rest =>
    let slashes := (c :: rest).takeWhile (· == '\\')
    match tag? ((c :: rest).drop slashes.length) with
    | some (inside, after) =>
      plainPart before ++ .tag slashes.length inside position
        :: partsFrom fuel (position + slashes.length + inside.length + 2) [] after
    | none => partsFrom fuel (position + 1) (c :: before) rest

/-- The parts of a marked text. -/
def parts (cs : List Char) : List Part := partsFrom cs.length 0 [] cs

/-- A tag as it is written. -/
def written (inside : List Char) : List Char := '[' :: inside ++ [']']

/-! ## Showing -/

/-- Characters without backslashes right before an opening bracket. -/
def dropBracketSlashes : List Char → List Char
  | '\\' :: '[' :: rest => '[' :: dropBracketSlashes rest
  | c :: rest => c :: dropBracketSlashes rest
  | [] => []

/-- What a tag at a position does to the open styles, the last one first. -/
def applyTag (inside : List Char) (position : Nat) (opened : List String) :
    Except Fault (List String) :=
  match inside.takeWhile (· != '=') with
  | '/' :: name =>
    match trimBlanks name, opened with
    | [], [] => .error (.nothingOpen position)
    | [], _ :: opened => .ok opened
    | name, opened =>
      let style := StyleName.normal (String.ofList name)
      if opened.contains style then .ok (opened.erase style)
      else .error (.neverOpened (String.ofList inside) position)
  | name => .ok (StyleName.normal (String.ofList name) :: opened)

/-- What parts show, after some styles were opened. -/
def showParts (opened : List String) : List Part → Except Fault (List Char)
  | [] => .ok []
  | .plain cs :: rest =>
    (Emoji.replace (dropBracketSlashes cs) ++ ·) <$> showParts opened rest
  | .tag slashes inside position :: rest => do
    let kept := List.replicate (slashes / 2) '\\'
    if slashes % 2 = 1 then
      return kept ++ Emoji.replace (written inside) ++ (← showParts opened rest)
    else
      let opened ← applyTag inside (position + slashes) opened
      return kept ++ (← showParts opened rest)

/-- What a marked text shows. -/
def plain (text : String) : Except Fault String :=
  String.ofList <$> showParts [] (parts text.toList)

/-! ## Escaping -/

/-- A part, with the meaning taken from its tag. -/
def escapePart : Part → List Char
  | .plain cs => cs
  | .tag slashes inside _ => List.replicate (2 * slashes + 1) '\\' ++ written inside

/-- Characters with one more backslash if they end in a single one, so that nothing behind them is
escaped. -/
def closeSlashes (cs : List Char) : List Char :=
  match cs.reverse with
  | '\\' :: '\\' :: _ => cs
  | '\\' :: _ => cs ++ ['\\']
  | _ => cs

/-- A text with the meaning taken from its tags. -/
def escape (text : String) : String :=
  String.ofList (closeSlashes ((parts text.toList).flatMap escapePart))

end SourceMutation.Markup
