import SourceMutation.Files.Fault
import SourceMutation.Files.Path
import SourceMutation.Ledger
import SourceMutation.Text.Utf8

/-!
# File trees

A tree of files is a table: each location has an entry, which is a file with its bytes, a
directory, or a link to another place.  A location is a list of names, read from the root; the root
itself is always a directory.

A location counts only if it can be reached, which means that the locations above it are
directories.  Every way into the tree checks that, so that entries in other places never show.

## What is in a tree, and what is not

- Names, paths and the targets of links are texts that can be encoded.  Bytes that are no text stand
  in files only.
- A location has one entry.  There are no hard links: writing at one location changes no other one.
- There are no owners and no permissions.  Whatever can be reached can be read, and written to.
- There is room for everything.  A write puts all of its bytes or fails and puts none, and what
  fails to be written, fails for its path (`Files/Resolve`).
- Nothing is ever removed, and nobody else writes to the tree between two operations.
- Directories and files are all there is besides links: no devices, pipes or sockets.
-/

namespace SourceMutation

/-- A place in a file tree: names from the root on. -/
abbrev Location := List String

/-- What stands at a location. -/
inductive Entry where
  | file (bytes : Bytes)
  | directory
  /-- A link, with the text of its target. -/
  | link (target : String)
  deriving DecidableEq, Repr, Inhabited

/-- Files, directories and links, and the directory that relative paths start from. -/
structure FileTree where
  /-- Where relative paths start. -/
  workDirectory : Location
  /-- What stands where. -/
  entries : Ledger Location Entry
  deriving Inhabited

namespace FileTree

/-- What stands at a location. -/
def entry? (tree : FileTree) (location : Location) : Option Entry :=
  if location = [] then some .directory else tree.entries.get? location

/-- Puts an entry at a location. -/
def put (tree : FileTree) (location : Location) (entry : Entry) : FileTree :=
  { tree with entries := tree.entries.set location entry }

/-- The name under which a location stands in a directory, if it stands there. -/
def childName? (directory : Location) (location : Location) : Option String :=
  match location.getLast? with
  | some name => if location.dropLast = directory then some name else none
  | none => none

/-- The names of the entries of a directory, in the order in which they were made. -/
def names (tree : FileTree) (directory : Location) : List String :=
  (tree.entries.keys.filterMap (childName? directory)).eraseDups

/-- The working directory's own path. -/
def workPath (tree : FileTree) : Path := ⟨.root, tree.workDirectory⟩

/-- A path as it is written from the root on, without two points.  Links are not looked at. -/
def absolute (tree : FileTree) (path : Path) : Path :=
  let whole := if path.anchor = .relative then tree.workPath.below path.parts else path
  ⟨whole.anchor, Path.withoutPoints whole.parts⟩

/-- The entries of a tree that another one does not have, in the order in which they were made.
Nothing is ever removed from a tree, so these are all the changes there can be. -/
def changesFrom (before after : FileTree) : List (Location × Entry) :=
  after.entries.entries.filter fun (location, entry) => before.entry? location != some entry

end FileTree

end SourceMutation
