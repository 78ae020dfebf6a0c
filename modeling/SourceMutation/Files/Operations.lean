import SourceMutation.Files.Resolve

/-!
# Operations on files

Asking, reading, writing, and making directories.  A refused operation says why and for which path.

Asking whether something stands at a path answers "no" where nothing can be reached; only a name or
path that is too long is refused even then.
-/

namespace SourceMutation.FileTree

/-- Turns a cause into the fault of a path. -/
def blame {α : Type} (path : Path) : Except FileCause α → Except FileFault α
  | .ok a => .ok a
  | .error cause => .error ⟨cause, path.text, none⟩

/-! ## Asking -/

/-- Whether what stands at a path has a property; nothing that cannot be reached has one. -/
def holdsAt (tree : FileTree) (path : Path) (property : Entry → Bool) : Except FileFault Bool :=
  match tree.entryAt path with
  | .ok entry => .ok (property entry)
  | .error cause => if cause.meansAbsent then .ok false else .error ⟨cause, path.text, none⟩

/-- Whether anything stands at a path. -/
def isPresent (tree : FileTree) (path : Path) : Except FileFault Bool :=
  tree.holdsAt path fun _ => true

/-- Whether a directory stands at a path. -/
def isDirectory (tree : FileTree) (path : Path) : Except FileFault Bool :=
  tree.holdsAt path fun entry => entry == .directory

/-! ## Reading and writing -/

/-- The bytes of the file at a path. -/
def read (tree : FileTree) (path : Path) : Except FileFault Bytes :=
  match tree.entryAt path with
  | .ok (.file bytes) => .ok bytes
  | .ok _ => .error ⟨.isDirectory, path.text, none⟩
  | .error cause => .error ⟨cause, path.text, none⟩

/-- The location that writing to a path fills. -/
def writeTarget (tree : FileTree) (path : Path) : Except FileCause Location :=
  match tree.resolveFor .write path with
  | .ok (.missing directory name) => .ok (directory ++ [name])
  | .ok (.found location) =>
    if tree.entry? location = some .directory then .error .isDirectory else .ok location
  | .error cause => .error cause

/-- Writes bytes to the file at a path, which is made if only its name is missing. -/
def write (tree : FileTree) (path : Path) (bytes : Bytes) : Except FileFault FileTree :=
  (fun location => tree.put location (.file bytes)) <$> blame path (tree.writeTarget path)

/-- Makes an empty file at a path, unless a file stands there. -/
def ensureFile (tree : FileTree) (path : Path) : Except FileFault FileTree :=
  (fun location =>
    if (tree.entry? location).isSome then tree else tree.put location (.file []))
    <$> blame path (tree.writeTarget path)

/-! ## Making directories and links -/

/-- The location at which a path's last name stands or would stand; a link there is not followed. -/
def placeOf (tree : FileTree) (path : Path) : Except FileCause Location :=
  match unaskable? path, path.parts.getLast? with
  | some cause, _ => .error cause
  | none, none => .error .exists
  | none, some name =>
    match tree.locate ⟨path.anchor, path.parts.dropLast⟩ with
    | .error cause => .error cause
    | .ok directory =>
      if tree.entry? directory ≠ some .directory then .error .notDirectory
      else if name = ".." then .error .exists
      else if isTooLong name then .error .nameTooLong
      else .ok (directory ++ [name])

/-- Makes one directory, in a directory that is there. -/
def makeDirectory (tree : FileTree) (path : Path) : Except FileFault FileTree :=
  match tree.placeOf path with
  | .error cause => .error ⟨cause, path.text, none⟩
  | .ok location =>
    match tree.entry? location with
    | some _ => .error ⟨.exists, path.text, none⟩
    | none => .ok (tree.put location .directory)

/-- Makes a link, in a directory that is there. -/
def makeLink (tree : FileTree) (target : String) (path : Path) : Except FileFault FileTree :=
  if target.toList.contains '\x00' || unaskable? path = some .nullCharacter then
    .error ⟨.nullCharacter, path.text, some target⟩
  else if target.isEmpty then .error ⟨.notFound, path.text, some target⟩
  else if maxPathBytes < (Utf8.encode target).length then
    .error ⟨.nameTooLong, path.text, some target⟩
  else
    match tree.placeOf path with
    | .error cause => .error ⟨cause, path.text, some target⟩
    | .ok location =>
      match tree.entry? location with
      | some _ => .error ⟨.exists, path.text, some target⟩
      | none => .ok (tree.put location (.link target))

/-- What making a directory comes to where a directory may be there already. -/
def settle (tree : FileTree) (path : Path) (fault : FileFault) : Except FileFault Unit × FileTree :=
  match tree.isDirectory path with
  | .ok true => (.ok (), tree)
  | .ok false => (.error fault, tree)
  | .error fault => (.error fault, tree)

/-- Makes one directory, unless it is there. -/
def ensureDirectory (tree : FileTree) (path : Path) : Except FileFault Unit × FileTree :=
  match tree.makeDirectory path with
  | .ok tree => (.ok (), tree)
  | .error fault =>
    if fault.cause = .notFound then (.error fault, tree) else tree.settle path fault

/--
Makes a directory and those above it, unless they are there.  The parts are given last one first.
The directories above a failure stay made.
-/
def ensureParents (anchor : Anchor) : (reversed : List String) → FileTree →
    Except FileFault Unit × FileTree
  | [], tree => tree.ensureDirectory ⟨anchor, []⟩
  | name :: above, tree =>
    let path : Path := ⟨anchor, (name :: above).reverse⟩
    match tree.makeDirectory path with
    | .ok tree => (.ok (), tree)
    | .error fault =>
      if fault.cause = .notFound then
        match ensureParents anchor above tree with
        | (.error fault, tree) => (.error fault, tree)
        | (.ok (), tree) => tree.ensureDirectory path
      else tree.settle path fault

/-- Makes the directory at a path and those above it, unless they are there. -/
def ensureDirectories (tree : FileTree) (path : Path) : Except FileFault Unit × FileTree :=
  ensureParents path.anchor path.parts.reverse tree

/-- Makes one directory, if no directory stands there. -/
def enter (tree : FileTree) (path : Path) : Except FileFault Unit × FileTree :=
  match tree.makeDirectory path with
  | .ok tree => (.ok (), tree)
  | .error fault =>
    if (tree.isDirectory path).toOption = some true then (.ok (), tree) else (.error fault, tree)

/--
Makes a directory where one may be already, and those above it that nothing stands at, from the
highest on.  The parts are given last one first.  What stands in the way of a directory above does
not count until the next one has to be made in it.
-/
def buildParents (anchor : Anchor) : (reversed : List String) → FileTree →
    Except FileFault Unit × FileTree
  | [], tree => (.ok (), tree)
  | name :: above, tree =>
    let path : Path := ⟨anchor, (name :: above).reverse⟩
    let (ready, tree) :=
      if (tree.isPresent ⟨anchor, above.reverse⟩).toOption = some true then (.ok (), tree)
      else buildParents anchor above tree
    match ready with
    | .error fault => if fault.cause = .exists then tree.enter path else (.error fault, tree)
    | .ok () => tree.enter path

/-- Makes the directory at a path and the missing ones above it, from the highest on. -/
def buildDirectories (tree : FileTree) (path : Path) : Except FileFault Unit × FileTree :=
  buildParents path.anchor path.parts.reverse tree

/-! ## Listing -/

/-- Whether a location stands below a directory. -/
def isBelow (directory location : Location) : Bool :=
  directory.isPrefixOf location && directory.length < location.length

/--
Everything below a directory that can be reached through directories, as names from the directory
on.
-/
def everythingBelow (tree : FileTree) (directory : Location) : List (List String × Entry) :=
  tree.entries.entries.filterMap fun (location, entry) =>
    if isBelow directory location
        && (List.range location.length).all fun n =>
          n < directory.length || tree.entry? (location.take n) == some .directory
    then some (location.drop directory.length, entry)
    else none

end SourceMutation.FileTree
