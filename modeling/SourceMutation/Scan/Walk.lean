import SourceMutation.Files.Operations
import SourceMutation.Scan.Rules

/-!
# The walk

A scan goes through a directory and those below it.  In each directory the directories that are
ignored come first, then the files, then what is in the directories that are not ignored; all by
name.  A link to a directory counts as a directory and is not entered.  Any other link counts as
a file, whether it leads anywhere or not.

The walk asks for everything below its start by a path: that of the start, with the names behind it.
So the limits of paths are limits of the walk.  A directory whose path is too long cannot be listed,
and what is in it is passed over without a word.  Of a link whose path is too long, or with which
more links would be on the way than are followed, it cannot be told where it leads, so that it
counts as a file; the links on the way to the start count as well.  Neither is a failure.
-/

namespace SourceMutation

/-- What a scan meets, by the names from its start on. -/
inductive Visit where
  /-- A directory that is ignored. -/
  | ignoredDirectory (names : List String)
  /-- A file of the right suffix that is ignored. -/
  | ignoredFile (names : List String)
  /-- A file that the scan is after. -/
  | file (names : List String)
  deriving DecidableEq, Repr

namespace Visit

/-- The names of a file that the scan is after. -/
def file? : Visit → Option (List String)
  | .file names => some names
  | _ => none

end Visit

namespace FileTree

/-- Puts a name before the first one that is not smaller. -/
def insertName (name : String) : List String → List String
  | [] => [name]
  | other :: rest => if name ≤ other then name :: other :: rest else other :: insertName name rest

/-- Names in ascending order. -/
def sorted (names : List String) : List String := names.foldr insertName []

/-! ### Paths of a walk -/

/-- What a walk writes before the first slash that it puts behind its start. -/
def stem (directory : Path) : String :=
  match directory.anchor, directory.parts with
  | .root, [] => ""
  | .doubleRoot, [] => "/"
  | _, _ => directory.text

/-- The path by which a walk asks for what stands below its start.  A start that is a single point
is kept in it, unlike in the paths of the files that are found. -/
def walkedText (directory : Path) (names : List String) : String :=
  stem directory ++ String.join (names.map ("/" ++ ·))

/-- Whether this path is short enough to be asked for. -/
def canAsk (directory : Path) (names : List String) : Bool :=
  (Utf8.encode (walkedText directory names)).length ≤ maxPathBytes

/-- Whether a walk counts what stands at a location below its start as a directory: if it is one, or
if it is a link and its path leads to one. -/
def leadsToDirectory (tree : FileTree) (directory : Path) (location : Location)
    (names : List String) : Bool :=
  match tree.entry? location with
  | some .directory => true
  | some (.link _) =>
    canAsk directory names &&
      match tree.follow .use maxLinks (startOf directory.anchor tree.workDirectory)
          (directory.parts ++ names) with
      | .ok (.found target) => tree.entry? target == some .directory
      | _ => false
  | _ => false

/-! ### What is passed over -/

/-- Whether a path below the start is ignored as a directory. -/
def ignoresDirectory (rules : ScanRules) (names : List String) : Bool :=
  IgnorePattern.ignored rules.ignore ("/".intercalate names ++ "/")

/-- Whether a path below the start is ignored as a file. -/
def ignoresFile (rules : ScanRules) (names : List String) : Bool :=
  IgnorePattern.ignored rules.ignore ("/".intercalate names)

/-- What a scan makes of a file. -/
def visitFile (rules : ScanRules) (names : List String) : List Visit :=
  if rules.suffixes.contains (Path.suffixOf (names.getLastD "")) then
    if ignoresFile rules names then [.ignoredFile names] else [.file names]
  else []

/-! ### The walk itself -/

/--
What a scan meets in a directory, given by its location and its names from the start on, and down
to `depth` levels below it.
-/
def visitsIn (tree : FileTree) (rules : ScanRules) (directory : Path) :
    (depth : Nat) → Location → List String → List Visit
  | 0, _, _ => []
  | depth + 1, location, names =>
    let here := sorted (tree.names location)
    let (directories, files) := here.partition fun name =>
      tree.leadsToDirectory directory (location ++ [name]) (names ++ [name])
    let (ignored, kept) :=
      directories.partition fun name => ignoresDirectory rules (names ++ [name])
    let entered := kept.filter fun name =>
      tree.entry? (location ++ [name]) == some .directory && canAsk directory (names ++ [name])
    ignored.map (fun name => .ignoredDirectory (names ++ [name]))
      ++ files.flatMap (fun name => visitFile rules (names ++ [name]))
      ++ entered.flatMap (fun name =>
        tree.visitsIn rules directory depth (location ++ [name]) (names ++ [name]))

/-- No location has more levels than the tree has entries, if each level is an entry. -/
def depth (tree : FileTree) : Nat := tree.entries.entries.length + 1

/-- What a scan of a directory meets.  Where there is no directory it meets nothing. -/
def visits (tree : FileTree) (directory : Path) (rules : ScanRules) : List Visit :=
  match tree.locate directory with
  | .ok location =>
    if tree.entry? location = some .directory then
      tree.visitsIn rules directory tree.depth location []
    else []
  | .error _ => []

/-- The files that a scan of a directory is after, in the order in which it meets them. -/
def sourceFiles (tree : FileTree) (directory : Path) (rules : ScanRules) : List Path :=
  (tree.visits directory rules).filterMap fun visit => visit.file?.map directory.below

end FileTree

end SourceMutation
