import SourceMutation.Chance.Sample
import SourceMutation.Strategy.Draft

/-!
# Deletion

Each mutant lacks one span.  Spans without text are passed over, since nothing would change.
-/

namespace SourceMutation

/-- Refuses a count that a strategy cannot meet. -/
def checkCount (count : Int) (allowAll : Bool) : Except Failure Nat :=
  if count < 0 then .error (.mutationCount (.int count) .negative)
  else if count = 0 ∧ !allowAll then .error (.mutationCount (.int count) .zeroInSplice)
  else .ok count.toNat

namespace Deletion

/-- The spans that have a text to delete. -/
def spans (harvest : Harvest) : List Span := harvest.spans.filter fun span => 0 < span.length

/-- Nothing, in place of a span. -/
def replacement : Replacement := ⟨"", ""⟩

/-- A mutant for each span, in order. -/
def each (harvest : Harvest) (spans : List Span) : Draft :=
  Draft.ofList harvest 1 (spans.map fun span => (span, replacement))

/--
Deletes `count` distinct spans drawn at random, or all of them if there are fewer; with a count of
zero, all of them in order.
-/
def mutants {σ : Type} [Chooser σ] (patience : Nat) (harvest : Harvest) (count : Int) : Pass σ :=
  fun state =>
    match checkCount count true with
    | .error failure => (.failed failure, state)
    | .ok 0 => (each harvest (spans harvest), state)
    | .ok count =>
      let all := spans harvest
      Pass.ofChance (Sample.ofList patience all (min count all.length))
        (fun drawn state => (each harvest drawn, state)) state

end Deletion

end SourceMutation
