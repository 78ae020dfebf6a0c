import SourceMutation.Text.Quoted

/-!
# File faults

Why an operation on a file is refused, and for which path.
-/

namespace SourceMutation

/-- The cause of a refusal. -/
inductive FileCause where
  | notFound
  | exists
  | notDirectory
  | isDirectory
  | nameTooLong
  | linkLoop
  /-- The path has a null character, so that nothing can be asked for under it. -/
  | nullCharacter
  deriving DecidableEq, Repr

/-- A refused operation: the cause, and the path as it was given. -/
structure FileFault where
  /-- Why the operation is refused. -/
  cause : FileCause
  /-- The path it was asked for. -/
  path : String
  /-- For a link that was to be made, where it was to lead. -/
  target : Option String := none
  deriving DecidableEq, Repr

namespace FileCause

/-- The number of a cause, if it has one. -/
def number? : FileCause → Option Nat
  | .notFound => some 2
  | .exists => some 17
  | .notDirectory => some 20
  | .isDirectory => some 21
  | .nameTooLong => some 36
  | .linkLoop => some 40
  | .nullCharacter => none

/-- The words for a cause. -/
def text : FileCause → String
  | .notFound => "No such file or directory"
  | .exists => "File exists"
  | .notDirectory => "Not a directory"
  | .isDirectory => "Is a directory"
  | .nameTooLong => "File name too long"
  | .linkLoop => "Too many levels of symbolic links"
  | .nullCharacter => "embedded null byte"

/-- Whether the cause says that nothing usable stands at the path, which is an answer and no
failure when the question is whether something stands there. -/
def meansAbsent : FileCause → Bool
  | .notFound | .notDirectory | .linkLoop | .nullCharacter => true
  | _ => false

end FileCause

namespace FileFault

/-- The paths of a fault, in quotes. -/
def places (fault : FileFault) : String :=
  match fault.target with
  | none => Quoted.ofText fault.path
  | some target => s!"{Quoted.ofText target} -> {Quoted.ofText fault.path}"

/-- A fault as the program reports it. -/
def message (fault : FileFault) : String :=
  match fault.cause.number? with
  | none => fault.cause.text
  | some number => s!"[Errno {number}] {fault.cause.text}: {fault.places}"

end FileFault

end SourceMutation
