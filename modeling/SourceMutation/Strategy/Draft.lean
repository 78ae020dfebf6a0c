import SourceMutation.Chance.Chooser
import SourceMutation.Mutant

/-!
# Drafts

What a pass over one source has produced: the mutants made so far, in order, and how the pass
ended.  A failure ends a pass after some mutants were made; they are part of the draft, though not
of its result.
-/

namespace SourceMutation

/-- How a pass ended. -/
inductive Ending where
  /-- All mutants asked for, or all that there are, were made. -/
  | complete
  /-- No draw was accepted for too long. -/
  | gaveUp
  /-- The pass had no result. -/
  | stopped (stop : Stop)

/-- The mutants that a pass made, and how it ended. -/
structure Draft where
  /-- The mutants, in the order in which they were made. -/
  mutants : List Mutant
  /-- How the pass ended. -/
  ending : Ending

namespace Draft

/-- A complete pass without mutants. -/
def nothing : Draft := ⟨[], .complete⟩

/-- A pass that failed before its first mutant. -/
def failed (failure : Failure) : Draft := ⟨[], .stopped (.failed failure)⟩

/-- A pass with a mutant before the others. -/
def after (mutant : Mutant) (draft : Draft) : Draft := ⟨mutant :: draft.mutants, draft.ending⟩

/-- The mutants of a pass that has a result. -/
def result (draft : Draft) : Except Stop (List Mutant) :=
  match draft.ending with
  | .complete | .gaveUp => .ok draft.mutants
  | .stopped stop => .error stop

/-- Makes a mutant of each span and replacement, numbered from `index`, until one fails. -/
def ofList (harvest : Harvest) : (index : Nat) → List (Span × Replacement) → Draft
  | _, [] => nothing
  | index, (span, replacement) :: rest =>
    match Mutant.make harvest index span replacement with
    | .ok mutant => (ofList harvest (index + 1) rest).after mutant
    | .error failure => failed failure

end Draft

/-- A pass that may choose: its draft, and the state after it. -/
abbrev Pass (σ : Type) := σ → Draft × σ

/-- Goes on with what a chance yields, or ends the pass. -/
def Pass.ofChance {σ α : Type} (chance : Chance σ α) (next : α → Pass σ) : Pass σ := fun state =>
  match chance state with
  | (.ok a, state) => next a state
  | (.error stop, state) => (⟨[], .stopped stop⟩, state)

end SourceMutation
