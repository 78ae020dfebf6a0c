import SourceMutation.Failure

/-!
# Choosers

A chooser is a source of bounded numbers: asked for a number below a bound it gives one, and what
is left of the source.  It may also give none, which ends the computation that asked.

Nothing else is assumed of it.  The seeded generator is one chooser, a script of picks written in
advance is another, and whatever holds of all choosers holds of every sequence of choices.

`Chance σ` is a computation that may choose, fail, or run out, over a state that holds a chooser.
-/

namespace SourceMutation

/-- A source of bounded numbers. -/
class Chooser (σ : Type) where
  /-- A number below the bound, and the source after it. -/
  below : (bound : Nat) → σ → Option (Fin bound × σ)

/-- A chooser with more state beside it chooses as before. -/
instance {σ τ : Type} [Chooser σ] : Chooser (σ × τ) where
  below bound state :=
    (Chooser.below bound state.1).map fun (pick, source) => (pick, (source, state.2))

/-! ## Scripts -/

/-- Picks written in advance. -/
structure Script where
  /-- The picks still to be made, next one first. -/
  picks : List Nat
  deriving DecidableEq, Repr, Inhabited

/-- A script gives its next pick if that lies below the bound, and nothing otherwise. -/
instance : Chooser Script where
  below bound script :=
    match script.picks with
    | [] => none
    | pick :: rest => if h : pick < bound then some (⟨pick, h⟩, ⟨rest⟩) else none

/-! ## Computations that choose -/

/-- A computation over a state with a chooser in it; the state is kept when it stops. -/
abbrev Chance (σ : Type) := ExceptT Stop (StateM σ)

namespace Chance

variable {σ α : Type}

/-- Stops with a failure. -/
def fail (failure : Failure) : Chance σ α := throw (.failed failure)

/-- Goes on with a result, or stops with its failure. -/
def ofExcept : Except Failure α → Chance σ α
  | .ok a => pure a
  | .error failure => fail failure

/-- A number below a bound. -/
def below [Chooser σ] (bound : Nat) : Chance σ (Fin bound) := fun state =>
  match Chooser.below bound state with
  | some (pick, state) => (.ok pick, state)
  | none => (.error .unfinished, state)

/-- An item of a list, each one possible; an empty list has none to choose. -/
def pick [Chooser σ] (items : List α) : Chance σ α :=
  match items with
  | [] => fail .emptyChoice
  | items => do
    let i ← below items.length
    return items.get i

end Chance

end SourceMutation
