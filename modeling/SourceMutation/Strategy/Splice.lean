import SourceMutation.Corpus
import SourceMutation.Strategy.Deletion
import SourceMutation.Strategy.DrawLoop

/-!
# Splicing

Each mutant has one span replaced by a text of a corpus.  The corpus is the source's own or one of
many sources; the text is of the span's kind or of a kind drawn at random.

Before anything is drawn, a pass looks whether any draw could be accepted at all, and makes no
mutants if none could.

With these passes and with deletion each mode has its pass (`Mode.mutants`).
-/

namespace SourceMutation.Splice

/-! ## Whether a draw can be accepted -/

/-- Whether some span has a candidate of its own kind that can replace its text. -/
def hasSameKindCandidate (harvest : Harvest) (corpus : Corpus) :
    (spans : List Span) → Except Failure Bool
  | [] => .ok false
  | span :: rest => do
    let own ← harvest.textOf span
    if (corpus.candidates span.kind).any fun candidate => isEligible candidate own then
      return true
    else hasSameKindCandidate harvest corpus rest

/-- The texts of all kinds, without the empty one. -/
def snippets (corpus : Corpus) : List String :=
  (corpus.kinds.flatMap corpus.candidates).filter fun text => text != ""

/-- Whether some span covers another text than a given one. -/
def someTextOtherThan (harvest : Harvest) (text : String) :
    (spans : List Span) → Except Failure Bool
  | [] => .ok false
  | span :: rest => do
    let own ← harvest.textOf span
    if own = text then someTextOtherThan harvest text rest else return true

/--
Whether some span has a candidate of any kind that can replace its text.  Only a span's own text
cannot, so two different texts are enough for any span.
-/
def hasAnyKindCandidate (harvest : Harvest) (corpus : Corpus) : Except Failure Bool :=
  match snippets corpus with
  | [] => .ok false
  | text :: others =>
    if others.all (· == text) then someTextOtherThan harvest text harvest.spans else .ok true

/-! ## Draws -/

variable {σ : Type} [Chooser σ]

/-- Draws a candidate of the span's kind. -/
def drawOwnKind (corpus : Corpus) : Draw σ := fun span => do
  return some ⟨← Chance.pick (corpus.candidates span.kind), span.kind⟩

/-- Draws a candidate of the span's kind, if the kind has any. -/
def drawSameKind (corpus : Corpus) : Draw σ := fun span =>
  match corpus.candidates span.kind with
  | [] => return none
  | candidates => do return some ⟨← Chance.pick candidates, span.kind⟩

/-- Draws a kind, then a candidate of it. -/
def drawAnyKind (corpus : Corpus) : Draw σ := fun _ => do
  let kind ← Chance.pick corpus.kinds
  match corpus.candidates kind with
  | [] => return none
  | candidates => return some ⟨← Chance.pick candidates, kind⟩

/-! ## Passes -/

/-- Every span with every candidate of its kind that can replace its text. -/
def pairs (harvest : Harvest) (corpus : Corpus) :
    (spans : List Span) → Except Failure (List (Span × Replacement))
  | [] => .ok []
  | span :: rest => do
    let own ← harvest.textOf span
    let here := (corpus.candidates span.kind).filter fun candidate => isEligible candidate own
    let later ← pairs harvest corpus rest
    return here.map (fun candidate => (span, ⟨candidate, span.kind⟩)) ++ later

/-- Draws by a rule if any draw of it can be accepted. -/
def drawn (patience : Nat) (harvest : Harvest) (count : Nat) (stall : StallLimit) (draw : Draw σ)
    (possible : Except Failure Bool) : Pass σ := fun state =>
  match possible with
  | .error failure => (.failed failure, state)
  | .ok false => (.nothing, state)
  | .ok true => DrawLoop.mutants patience harvest count draw stall state

/--
Splices with texts of the same source.  With a count of zero, every span is paired once with every
other text of its kind; otherwise `count` pairs are drawn.
-/
def fromSelf (patience : Nat) (harvest : Harvest) (count : Int) (stall : StallLimit) : Pass σ :=
  fun state =>
    match checkCount count true with
    | .error failure => (.failed failure, state)
    | .ok count =>
      match Corpus.ofSource harvest with
      | .error failure => (.failed failure, state)
      | .ok corpus =>
        if count = 0 then
          match pairs harvest corpus harvest.spans with
          | .error failure => (.failed failure, state)
          | .ok pairs => (Draft.ofList harvest 1 pairs, state)
        else
          drawn patience harvest count stall (drawOwnKind corpus)
            (hasSameKindCandidate harvest corpus harvest.spans) state

/-- Splices with texts of a corpus, of the span's kind. -/
def fromCorpus (patience : Nat) (harvest : Harvest) (corpus : Corpus) (count : Int)
    (stall : StallLimit) : Pass σ := fun state =>
  match checkCount count false with
  | .error failure => (.failed failure, state)
  | .ok count =>
    drawn patience harvest count stall (drawSameKind corpus)
      (hasSameKindCandidate harvest corpus harvest.spans) state

/-- Splices with texts of a corpus, of a kind drawn at random. -/
def fromAnyKind (patience : Nat) (harvest : Harvest) (corpus : Corpus) (count : Int)
    (stall : StallLimit) : Pass σ := fun state =>
  match checkCount count false with
  | .error failure => (.failed failure, state)
  | .ok count =>
    drawn patience harvest count stall (drawAnyKind corpus)
      (hasAnyKindCandidate harvest corpus) state

end SourceMutation.Splice

namespace SourceMutation

/-! ## Passes by mode -/

/-- Makes the mutants of a source in a mode.  The modes that draw from many sources need a corpus of
them. -/
def Mode.mutants {σ : Type} [Chooser σ] (mode : Mode) (patience : Nat) (harvest : Harvest)
    (count : Int) (corpus : Option Corpus) (stall : StallLimit) : Pass σ := fun state =>
  match mode, corpus with
  | .deleteOnly, _ => Deletion.mutants patience harvest count state
  | .selfSplice, _ => Splice.fromSelf patience harvest count stall state
  | .splice, some corpus => Splice.fromCorpus patience harvest corpus count stall state
  | .spliceRandomKind, some corpus => Splice.fromAnyKind patience harvest corpus count stall state
  | mode, none => (.failed (.corpusMissing mode), state)

end SourceMutation
