import SourceMutation.Harvest
import SourceMutation.Ledger

/-!
# Corpora

The distinct texts seen for each kind of span.  The candidates of a kind start with the empty
text, which stands for deletion, and go on in the order in which the texts were first added.

A corpus holds two tables.  `candidates` is what draws and listings go by; `seen` says which texts
a kind has, and is what an addition looks at.
-/

namespace SourceMutation

/-- The distinct texts of each kind. -/
structure Corpus where
  /-- The candidates of each kind, in order. -/
  listed : Ledger String (List String)
  /-- The same texts, for looking one up. -/
  seen : Ledger String (List String)
  deriving Inhabited

namespace Corpus

/-- The corpus without kinds. -/
def empty : Corpus := ⟨.empty, .empty⟩

/-! ## Reading -/

/-- The candidates of a kind; a kind that was never met has none. -/
def candidates (corpus : Corpus) (kind : String) : List String :=
  (corpus.listed.get? kind).getD []

/-- Whether a kind was met. -/
def contains (corpus : Corpus) (kind : String) : Bool := corpus.listed.contains kind

/-- The kinds met, in order. -/
def kinds (corpus : Corpus) : List String := corpus.listed.keys

/-- How many kinds were met. -/
def size (corpus : Corpus) : Nat := corpus.kinds.length

/-- How many texts there are beside the empty ones. -/
def snippetCount (corpus : Corpus) : Nat :=
  (corpus.listed.values.map fun candidates => candidates.length - 1).foldr (· + ·) 0

/-- A corpus in one line. -/
def summary (corpus : Corpus) : String :=
  s!"Corpus(kinds={corpus.size}, snippets={corpus.snippetCount})"

/-! ## Adding -/

/-- Enters a kind, with the empty candidate, unless it was met. -/
def ensureKind (corpus : Corpus) (kind : String) : Corpus :=
  if corpus.contains kind then corpus
  else ⟨corpus.listed.set kind [""], corpus.seen.set kind [""]⟩

/-- Adds a text to a kind.  Answers whether it is new there. -/
def add (corpus : Corpus) (kind snippet : String) : Bool × Corpus :=
  let corpus := corpus.ensureKind kind
  let seen := (corpus.seen.get? kind).getD []
  if seen.contains snippet then (false, corpus)
  else
    (true, ⟨corpus.listed.set kind (corpus.candidates kind ++ [snippet]),
      corpus.seen.set kind (snippet :: seen)⟩)

/-- Adds several texts to a kind. -/
def addAll (corpus : Corpus) (kind : String) (snippets : List String) : Corpus :=
  snippets.foldl (fun corpus snippet => (corpus.add kind snippet).2) corpus

/-- Adds the text of each of some spans of a source, after `added` new ones. -/
def addSpans (harvest : Harvest) : (added : Nat) → List Span → Corpus → Except Failure Nat × Corpus
  | added, [], corpus => (.ok added, corpus)
  | added, span :: rest, corpus =>
    match harvest.textOf span with
    | .error failure => (.error failure, corpus)
    | .ok text =>
      let (isNew, corpus) := corpus.add span.kind text
      addSpans harvest (if isNew then added + 1 else added) rest corpus

/--
Adds the text of every span of a source and answers how many were new.  A span whose text cannot
be read ends the addition; the texts before it stay added.
-/
def addSource (corpus : Corpus) (harvest : Harvest) : Except Failure Nat × Corpus :=
  addSpans harvest 0 harvest.spans corpus

/-! ## Building -/

/-- The corpus of one source. -/
def ofSource (harvest : Harvest) : Except Failure Corpus :=
  match empty.addSource harvest with
  | (.ok _, corpus) => .ok corpus
  | (.error failure, _) => .error failure

/-- The corpus of a table of kinds and texts. -/
def ofLedger (table : Ledger String (List String)) : Corpus :=
  table.entries.foldl (fun corpus entry => (corpus.ensureKind entry.1).addAll entry.1 entry.2) empty

/-- The table of a corpus: each kind and its candidates. -/
def toLedger (corpus : Corpus) : Ledger String (List String) := corpus.listed

end Corpus

end SourceMutation
