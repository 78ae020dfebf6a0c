/-!
# Mutation modes

What a mutant's span is replaced by: nothing, a snippet of the same file, or a snippet of any
eligible file, of the span's own kind or of a kind drawn at random.
-/

namespace SourceMutation

/-- What replaces a span. -/
inductive Mode where
  | deleteOnly
  | selfSplice
  | splice
  | spliceRandomKind
  deriving DecidableEq, Repr, Inhabited

namespace Mode

/-- All modes, in the order of their numbers. -/
def all : List Mode := [.deleteOnly, .selfSplice, .splice, .spliceRandomKind]

/-- The number by which a mode is asked for. -/
def number : Mode → Nat
  | .deleteOnly => 0
  | .selfSplice => 1
  | .splice => 2
  | .spliceRandomKind => 3

/-- The mode's name. -/
def name : Mode → String
  | .deleteOnly => "DELETE_ONLY"
  | .selfSplice => "SELF_SPLICE"
  | .splice => "SPLICE"
  | .spliceRandomKind => "SPLICE_RANDOM_KIND"

/-- The mode in words. -/
def label : Mode → String
  | .deleteOnly => "deletion only"
  | .selfSplice => "self splice"
  | .splice => "all-file splice"
  | .spliceRandomKind => "all-file splice with random kind"

/-- Whether snippets come from a corpus of all eligible files. -/
def usesSharedCorpus : Mode → Bool
  | .deleteOnly | .selfSplice => false
  | .splice | .spliceRandomKind => true

/-- The mode with a given number. -/
def ofNumber? (n : Int) : Option Mode := all.find? fun mode => (mode.number : Int) == n

theorem ofNumber?_number (mode : Mode) : ofNumber? mode.number = some mode := by
  cases mode <;> decide

end Mode

end SourceMutation
