import SourceMutation.Text.Lines

/-!
# Paths

A path as it is written: an anchor and the names of its parts.  Repeated slashes, a slash at the
end, and parts that are a single point do not count; parts of two points do, since what they mean
depends on the files.

A name's suffix is what follows its last point, point included, unless the point is the first or
the last character of the name.
-/

namespace SourceMutation

/-- Where a path starts. -/
inductive Anchor where
  /-- In the working directory. -/
  | relative
  /-- At the root. -/
  | root
  /-- At the root, written with two slashes, which is kept. -/
  | doubleRoot
  deriving DecidableEq, Repr, Inhabited

/-- How an anchor is written. -/
def Anchor.text : Anchor → String
  | .relative => ""
  | .root => "/"
  | .doubleRoot => "//"

/-- A path as it is written. -/
structure Path where
  /-- Where the path starts. -/
  anchor : Anchor
  /-- The names of its parts. -/
  parts : List String
  deriving DecidableEq, Repr, Inhabited

namespace Path

/-- The anchor of a written path. -/
def anchorOf : List Char → Anchor
  | '/' :: '/' :: '/' :: _ => .root
  | '/' :: '/' :: _ => .doubleRoot
  | '/' :: _ => .root
  | _ => .relative

/-- The parts of a written path that count. -/
def partsOf (text : String) : List String :=
  (Fields.ofText '/' text).filter fun part => part != "" && part != "."

/-- The path that a text writes. -/
def ofText (text : String) : Path := ⟨anchorOf text.toList, partsOf text⟩

/-- The path of the working directory, as it is reached from there. -/
def here : Path := ⟨.relative, []⟩

/-- A path as it is written, a single point for an empty one. -/
def text (path : Path) : String :=
  match path.anchor, path.parts with
  | .relative, [] => "."
  | anchor, parts => anchor.text ++ "/".intercalate parts

/-- A path below another, by its parts. -/
def below (path : Path) (parts : List String) : Path := ⟨path.anchor, path.parts ++ parts⟩

/-- Names in which two points take the name before them away, if there is one. -/
def withoutPoints (names : List String) : List String :=
  names.foldl (fun kept name => if name = ".." then kept.dropLast else kept ++ [name]) []

/-- The last part of a path. -/
def name (path : Path) : String := path.parts.getLastD ""

/-! ## Suffixes -/

/-- The characters of a name from its last point on, that point included. -/
def fromLastPoint (cs : List Char) : List Char :=
  if cs.contains '.' then '.' :: (cs.reverse.takeWhile (· != '.')).reverse else []

/-- The suffix of a name. -/
def suffixOf (name : String) : String :=
  let cs := name.toList
  let suffix := fromLastPoint cs
  if suffix.length < 2 || suffix.length == cs.length then "" else String.ofList suffix

/-- The suffix of a path's last part. -/
def suffix (path : Path) : String := suffixOf path.name

end Path

end SourceMutation
