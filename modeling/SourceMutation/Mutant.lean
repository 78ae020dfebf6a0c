import SourceMutation.Files.Path
import SourceMutation.Harvest

/-!
# Mutants

One accepted mutation of a source: which span was replaced, by what, and the whole text after it.

A mutant's file is named for its source and numbered from one.  The source's name is kept whole,
and its suffix is put at the end once more, so that the mutant counts as a file of the same
language.
-/

namespace SourceMutation

/-- A mutation of a source. -/
structure Mutant where
  /-- The mutant's number among those of its source, from one. -/
  index : Int
  /-- The span that was replaced. -/
  span : Span
  /-- The span's text before. -/
  replaced : String
  /-- The text put in its place. -/
  replacement : String
  /-- The kind that the replacement was taken from. -/
  replacementKind : String
  /-- The whole text after the replacement. -/
  text : String
  deriving DecidableEq, Repr, Inhabited

/-- What replaces a span: a text, and the kind it was taken from. -/
structure Replacement where
  text : String
  kind : String
  deriving DecidableEq, Repr, Inhabited

namespace Mutant

/--
A mutant in one line: its number, where it is, and what became of what.  A kind other than the
span's own is named at the end.
-/
def describe (mutant : Mutant) : String :=
  let line :=
    s!"[{mutant.index}] {mutant.span.location} {mutant.span.kind}: "
      ++ s!"{mutant.replaced} -> {mutant.replacement}"
  if mutant.replacementKind = mutant.span.kind then line
  else line ++ s!" (from {mutant.replacementKind})"

/--
The mutant of a source with a span replaced.  A replacement that names no kind counts as one of
the span's own kind.
-/
def make (harvest : Harvest) (index : Nat) (span : Span) (replacement : Replacement) :
    Except Failure Mutant := do
  let replaced ← harvest.textOf span
  let text ← harvest.substitute span replacement.text
  return {
    index, span, replaced, text
    replacement := replacement.text
    replacementKind := if replacement.kind.isEmpty then span.kind else replacement.kind }

end Mutant

/-! ## Names -/

namespace MutantName

/-- The name of a source's mutant. -/
def compose (source : String) (index : Int) : String :=
  s!"mut_{source}_{index}{(Path.ofText source).suffix}"

/-- The name of a source's mutant; numbers start at one. -/
def ofIndex (source : String) (index : Int) : Except Failure String :=
  if index < 1 then .error (.mutantIndex index) else .ok (compose source index)

end MutantName

end SourceMutation
