import SourceMutation.Failure
import SourceMutation.Scan.Expression
import SourceMutation.Text.Lines

/-!
# Ignore patterns

Patterns that say which files and directories to pass over.  A path is given relative to where
the scan starts, a directory with a slash at its end.  The last pattern that matches decides, and
one that starts with an exclamation mark decides that the path is not ignored.

A pattern with a slash before its end is tied to the start; any other pattern matches at every
depth.  A slash at its end restricts a pattern to directories and what is in them.
-/

namespace SourceMutation

/-- What a pattern matches. -/
inductive PatternBody where
  /-- No path. -/
  | nothing
  /-- Every path. -/
  | everything
  /-- Every path with a slash in it. -/
  | anyDirectory
  /-- The paths whose start the pieces match. -/
  | pieces (pieces : List Piece)
  deriving DecidableEq, Repr

/-- An ignore pattern. -/
structure IgnorePattern where
  /-- Whether a path that matches is ignored. -/
  ignores : Bool
  /-- What it matches. -/
  body : PatternBody
  deriving DecidableEq, Repr

namespace IgnorePattern

/-! ## Matching -/

/-- Whether a pattern's body matches a path. -/
def bodyMatches (body : PatternBody) (path : List Char) : Bool :=
  match body with
  | .nothing => false
  | .everything => true
  | .anyDirectory => path.contains '/'
  | .pieces pieces => Piece.matchAll pieces path

/-- Whether a path is ignored: the last pattern that matches it decides. -/
def ignored (patterns : List IgnorePattern) (path : String) : Bool :=
  match patterns.reverse.find? fun pattern => bodyMatches pattern.body path.toList with
  | some pattern => pattern.ignores
  | none => false

/-! ## Reading -/

/-- Two asterisks: any number of directories. -/
def anyDepth : List Char := ['*', '*']

/-- Drops each run of any-depth parts but its last one. -/
def mergeAnyDepth : List (List Char) → List (List Char)
  | [] => []
  | [part] => [part]
  | part :: next :: rest =>
    if part = anyDepth ∧ next = anyDepth then mergeAnyDepth (next :: rest)
    else part :: mergeAnyDepth (next :: rest)

/-- Ties a pattern's parts to the start, or lets them match at every depth. -/
def anchored : List (List Char) → List (List Char)
  | [] => []
  | [] :: rest => rest
  | parts =>
    match parts with
    | [part] => if part = anyDepth then parts else anyDepth :: parts
    | [part, []] => if part = anyDepth then parts else anyDepth :: parts
    | _ => parts

/-- Puts any depth in the place of an empty last part. -/
def closeEnd (parts : List (List Char)) : List (List Char) :=
  if parts.getLast? = some [] then parts.dropLast ++ [anyDepth] else parts

/--
The pieces of a pattern's parts.  `first` says that no part stands before them, `slash` that a
slash is due before the next one.
-/
def piecesOf (first slash : Bool) : List (List Char) → Except Piece.PartFault (List Piece)
  | [] => .ok []
  | part :: rest => do
    if part = anyDepth then
      if first then
        return .leadingDirectories :: (← piecesOf false false rest)
      else if rest.isEmpty then return [.char '/']
      else return .innerDirectories :: (← piecesOf false true rest)
    else
      let lead : List Piece := if slash then [.char '/'] else []
      let body ← if part = ['*'] then pure [.wholeName] else Piece.readPart part.length part
      let later ← if rest.isEmpty then pure [.nameEnd] else piecesOf false true rest
      return lead ++ body ++ later

/-- What a pattern without its negation mark matches; `none` if it is not a pattern. -/
def bodyOf (text : List Char) : Option PatternBody :=
  match anchored (Fields.split '/' text) with
  | [] => none
  | parts =>
    let parts := mergeAnyDepth (closeEnd parts)
    let onlyDirectories := text.getLast? = some '/'
    if parts = [anyDepth] then some (if onlyDirectories then .anyDirectory else .everything)
    else if parts = [anyDepth, ['*']] then some .everything
    else if parts = [anyDepth, ['*'], anyDepth] then some .anyDirectory
    else
      match piecesOf true false parts with
      | .ok pieces => some (.pieces pieces)
      | .error .unclosed => some .nothing
      | .error _ => none

/-- A pattern without the blanks at its end; a blank after a backslash at the end is kept. -/
def trimmed (cs : List Char) : List Char :=
  match cs.reverse with
  | ' ' :: '\\' :: _ => cs
  | _ => dropBlankEnd cs

/-- The failure of a body in which a range runs backwards. -/
def backwardFailure? : PatternBody → Option Failure
  | .pieces pieces =>
    (BackwardRange.find? pieces).map fun found =>
      .backwardRange found.range found.position
        (BackwardRange.place? (Piece.expression pieces) found.position)
  | _ => none

/-- The pattern of a text that is read without its negation mark. -/
def ofBody (text : String) (ignores : Bool) (cs : List Char) : Except Failure IgnorePattern :=
  match bodyOf cs with
  | some body =>
    match backwardFailure? body with
    | some failure => .error failure
    | none => .ok ⟨ignores, body⟩
  | none => .error (.ignorePattern text)

/-- The pattern that a text writes. -/
def ofText (text : String) : Except Failure IgnorePattern :=
  match trimmed text.toList with
  | [] => .ok ⟨true, .nothing⟩
  | ['/'] => .ok ⟨true, .nothing⟩
  | '#' :: _ => .ok ⟨true, .nothing⟩
  | '!' :: rest => ofBody text false rest
  | cs => ofBody text true cs

/-- The patterns that texts write, in order. -/
def ofTexts (texts : List String) : Except Failure (List IgnorePattern) := texts.mapM ofText

end IgnorePattern

end SourceMutation
