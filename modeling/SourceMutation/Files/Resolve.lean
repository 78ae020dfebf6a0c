import SourceMutation.Files.Tree

/-!
# Following paths

A path is followed name by name from where it starts.  Two points lead to the directory above, and
a link leads on from the directory it stands in.  What is found is a location, or the directory in
which only the last name is missing; or the way is refused:

- a name is looked up in something that is no directory;
- a name has more than 255 bytes;
- a name other than the last one is missing;
- more than forty links are met;
- the path has a null character, or more than 4095 bytes.

A link's target may end in a slash, which asks for a directory.  Paths themselves do not keep a
slash at their end.

## Why nothing else is refused

These causes are all that a path can be refused for.  There are no permissions in a tree, so that no
directory is closed to a search and no file to a reading, and there is room for every file, so that
writing fails only where the path leads nowhere or to a directory.  The limits are counted in bytes,
as names and paths are encoded; a location may be deeper than any path that can be asked for, and
then it is reached by a shorter path, from a working directory or through a link.
-/

namespace SourceMutation

/-- Where a path leads. -/
inductive Landing where
  /-- To a location with an entry. -/
  | found (location : Location)
  /-- To a name that a directory does not have. -/
  | missing (directory : Location) (name : String)
  deriving DecidableEq, Repr

/-- How far a path can be followed without following a link. -/
inductive Leg where
  | landed (landing : Landing)
  | refused (cause : FileCause)
  /-- To a link that stands in a directory, with the names still to be followed after it. -/
  | link (directory : Location) (target : String) (rest : List String)
  deriving DecidableEq, Repr

namespace FileTree

/-- The most bytes that a name may have. -/
def maxNameBytes : Nat := 255

/-- The most links that are followed on the way of one path. -/
def maxLinks : Nat := 40

/-- The most bytes that a whole path may have. -/
def maxPathBytes : Nat := 4095

/-- Whether a name is too long to be looked up. -/
def isTooLong (name : String) : Bool := maxNameBytes < (Utf8.encode name).length

/-- What a path is followed for. -/
inductive Purpose where
  /-- To use what stands there. -/
  | use
  /-- To write a file there, which is made if it is missing. -/
  | write
  deriving DecidableEq, Repr

/-- The names that a link's target leads along.  A slash at its end is kept as an empty name. -/
def targetNames (target : String) : List String :=
  let names := (Fields.ofText '/' target).filter fun name => name != ""
  if target.toList.getLast? = some '/' && !names.isEmpty then names ++ [""] else names

/--
Follows names from a location up to the first link.  A single point and an empty name stay where
they are, and a file cannot be written under a name with a slash behind it.
-/
def followNames (tree : FileTree) (purpose : Purpose) : Location → List String → Leg
  | location, [] => .landed (.found location)
  | location, name :: rest =>
    if tree.entry? location ≠ some .directory then .refused .notDirectory
    else if name = "" || name = "." then tree.followNames purpose location rest
    else if name = ".." then tree.followNames purpose location.dropLast rest
    else if purpose = .write && rest = [""] then .refused .isDirectory
    else if isTooLong name then .refused .nameTooLong
    else
      match tree.entry? (location ++ [name]) with
      | none => if rest.isEmpty then .landed (.missing location name) else .refused .notFound
      | some (.link target) => .link location target rest
      | some _ => tree.followNames purpose (location ++ [name]) rest

/-- Where a text leads from, if it stands in a directory. -/
def startOf (anchor : Anchor) (directory : Location) : Location :=
  if anchor = .relative then directory else []

/-- Follows names from a location, through at most `links` links. -/
def follow (tree : FileTree) (purpose : Purpose) : (links : Nat) → Location → List String →
    Except FileCause Landing
  | links, location, names =>
    match tree.followNames purpose location names with
    | .landed landing => .ok landing
    | .refused cause => .error cause
    | .link directory target rest =>
      match links with
      | 0 => .error .linkLoop
      | links + 1 =>
        tree.follow purpose links (startOf (Path.anchorOf target.toList) directory)
          (targetNames target ++ rest)

/-- Why nothing can be asked for under a path, if nothing can. -/
def unaskable? (path : Path) : Option FileCause :=
  if path.text.toList.contains '\x00' then some .nullCharacter
  else if maxPathBytes < (Utf8.encode path.text).length then some .nameTooLong
  else none

/-- Where a path leads that is followed for a purpose. -/
def resolveFor (tree : FileTree) (purpose : Purpose) (path : Path) : Except FileCause Landing :=
  match unaskable? path with
  | some cause => .error cause
  | none => tree.follow purpose maxLinks (startOf path.anchor tree.workDirectory) path.parts

/-- Where a path leads. -/
def resolve (tree : FileTree) (path : Path) : Except FileCause Landing :=
  tree.resolveFor .use path

/-- The location that a path leads to. -/
def locate (tree : FileTree) (path : Path) : Except FileCause Location :=
  match tree.resolve path with
  | .ok (.found location) => .ok location
  | .ok (.missing _ _) => .error .notFound
  | .error cause => .error cause

/-- What stands where a path leads. -/
def entryAt (tree : FileTree) (path : Path) : Except FileCause Entry :=
  match tree.locate path with
  | .ok location =>
    match tree.entry? location with
    | some entry => .ok entry
    | none => .error .notFound
  | .error cause => .error cause

end FileTree

end SourceMutation
