import SourceMutation.Text.LowerCase
import SourceMutation.Text.Numeral

/-!
# The environment

Named texts from outside the program.  Where a number is wanted, a text that is no integer counts
as absent.
-/

namespace SourceMutation

/-- Named texts; a name without one is absent. -/
structure Environment where
  /-- The text under a name. -/
  get? : String → Option String

namespace Environment

/-- The environment without any names. -/
def empty : Environment := ⟨fun _ => none⟩

/-- The environment of a list of names and texts; the first one of a name counts. -/
def ofList (entries : List (String × String)) : Environment :=
  ⟨fun name => List.lookup name entries⟩

/-- The text under a name, or a default. -/
def get (environment : Environment) (name default : String) : String :=
  (environment.get? name).getD default

/-- The integer that a text writes, or a default if there is no text or no integer. -/
def intOr (text : Option String) (default : Option Int) : Option Int :=
  match text with
  | none => default
  | some text => (Numeral.read? text).or default

/-- The integer under a name, or a default. -/
def int (environment : Environment) (name : String) (default : Option Int) : Option Int :=
  intOr (environment.get? name) default

/-- Whether a text means "yes", in letters of either case. -/
def isYes (text : String) : Bool :=
  ["1", "true", "yes"].contains (LowerCase.ofText text)

/-- Whether the text under a name means "yes". -/
def flag (environment : Environment) (name : String) : Bool := isYes (environment.get name "")

end Environment

end SourceMutation
