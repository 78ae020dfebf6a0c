import SourceMutation.Strategy.Draft

/-!
# The draw loop

Mutants by chance: a span is drawn, then something to put in its place, and the draw is accepted
if it changes the source and deletes nothing.  Draws go on until enough are accepted.

A pass gives up if its first draws are all rejected, as many of them as the stall limit says.
Once a draw has been accepted there is no such limit.
-/

namespace SourceMutation

/-- How many draws a pass may make before its first mutant; `none` sets no limit. -/
abbrev StallLimit := Option Int

/-- Whether this many draws are more than the limit allows. -/
def StallLimit.exceededBy (limit : StallLimit) (attempts : Nat) : Bool :=
  match limit with
  | none => false
  | some n => n < attempts

/-- Draws what to put in a span's place; nothing where there is nothing to draw from. -/
abbrev Draw (σ : Type) := Span → Chance σ (Option Replacement)

/-- Whether a candidate can replace a text: it is not empty, and not the text itself. -/
def isEligible (candidate own : String) : Bool := candidate != "" && candidate != own

namespace DrawLoop

/--
One draw: a span, what to put in its place, and the mutant of that, numbered `index`, if the draw
is accepted.
-/
def once {σ : Type} [Chooser σ] (harvest : Harvest) (draw : Draw σ) (index : Nat) :
    Chance σ (Option Mutant) := do
  let span ← Chance.pick harvest.spans
  match ← draw span with
  | none => return none
  | some replacement =>
    let own ← Chance.ofExcept (harvest.textOf span)
    if isEligible replacement.text own then
      return some (← Chance.ofExcept (Mutant.make harvest index span replacement))
    else return none

/--
Goes on drawing until `missing` more mutants are made, after `made` mutants and `attempts` draws.
Makes at most `fuel` draws.
-/
def more {σ : Type} [Chooser σ] (harvest : Harvest) (draw : Draw σ) (stall : StallLimit) :
    (fuel : Nat) → (missing made attempts : Nat) → Pass σ
  | _, 0, _, _ => fun state => (.nothing, state)
  | 0, _ + 1, _, _ => fun state => (⟨[], .stopped .unfinished⟩, state)
  | fuel + 1, missing + 1, made, attempts => fun state =>
    if made = 0 ∧ stall.exceededBy (attempts + 1) then (⟨[], .gaveUp⟩, state)
    else
      match once harvest draw (made + 1) state with
      | (.ok none, state) => more harvest draw stall fuel (missing + 1) made (attempts + 1) state
      | (.ok (some mutant), state) =>
        let (draft, state) := more harvest draw stall fuel missing (made + 1) (attempts + 1) state
        (draft.after mutant, state)
      | (.error stop, state) => (⟨[], .stopped stop⟩, state)

/-- Draws until `count` mutants are made.  A source without spans has none. -/
def mutants {σ : Type} [Chooser σ] (patience : Nat) (harvest : Harvest) (count : Int)
    (draw : Draw σ) (stall : StallLimit) : Pass σ :=
  if harvest.spans.isEmpty then fun state => (.nothing, state)
  else more harvest draw stall patience count.toNat 0 0

end DrawLoop

end SourceMutation
