import SourceMutation.Proofs.Corpora
import SourceMutation.Proofs.LostMutants

/-!
# Corpora that are built again

Two corpora are compared by their histories.  A corpus that is built from the table of another one
has the history of that one, up to touches that change nothing; so it lists the same, has seen the
same, and nothing that is done to the two tells them apart (`Corpus.Reached.rebuilt`).

- The table of a corpus, read as a history, enters each kind once and then adds its snippets
  (`Corpus.Touch.ofEntry`).  Under a kind it has the snippets that are listed there
  (`Corpus.snippetsUnder_ofEntries`).
- So the tables of a corpus tell the history of its table as well as its own
  (`Corpus.Tells.ofLedger_toLedger`).
- Two corpora that tell one history answer alike to each operation, and tell one history after it
  (`Corpus.SameHistory.perform`); by induction that goes for any operations in a row.
-/

namespace SourceMutation

theorem eraseDups_of_nodup {α : Type} [BEq α] [LawfulBEq α] {items : List α} (h : items.Nodup) :
    items.eraseDups = items := by
  induction items with
  | nil => rfl
  | cons item rest ih =>
    obtain ⟨hnew, hrest⟩ := List.nodup_cons.mp h
    have hothers : rest.filter (fun other => !other == item) = rest := by
      apply List.filter_eq_self.mpr
      intro other hmem
      simpa using ne_of_mem_of_not_mem hmem hnew
    rw [List.eraseDups_cons, hothers, ih hrest]

namespace Corpus

variable {corpus first second : Corpus} {touches : List Touch}

theorem Tells.nodup_kinds (h : corpus.Tells touches) : corpus.kinds.Nodup := by
  rw [kinds, h.listed_keys]
  exact nodup_eraseDups _

/-! ## The history of a table -/

namespace Touch

theorem kind_of_mem_ofEntry {entry : String × List String} {touched : Touch}
    (h : touched ∈ ofEntry entry) : touched.kind = entry.1 := by
  rcases List.mem_cons.mp h with rfl | hadded
  · rfl
  · obtain ⟨snippet, -, rfl⟩ := List.mem_map.mp hadded
    rfl

theorem eraseDups_kinds_ofEntry (entry : String × List String) :
    ((ofEntry entry).map Touch.kind).eraseDups = [entry.1] := by
  have hsnippets : (entry.2.map (added entry.1)).map Touch.kind = entry.2.map fun _ => entry.1 := by
    rw [List.map_map]
    rfl
  rw [ofEntry, List.map_cons, hsnippets, List.eraseDups_cons]
  simp [Touch.kind]

/-- Entries of different kinds touch each of their kinds, in order. -/
theorem eraseDups_kinds_ofEntries {entries : List (String × List String)}
    (hkeys : (entries.map (·.1)).Nodup) :
    ((entries.flatMap ofEntry).map Touch.kind).eraseDups = entries.map (·.1) := by
  induction entries with
  | nil => rfl
  | cons entry rest ih =>
    obtain ⟨hnew, hrest⟩ := List.nodup_cons.mp hkeys
    -- The later entries do not touch the kind of the first one.
    have hothers : ((rest.flatMap ofEntry).map Touch.kind).removeAll
        ((ofEntry entry).map Touch.kind) = (rest.flatMap ofEntry).map Touch.kind := by
      apply List.filter_eq_self.mpr
      intro other hother
      obtain ⟨touched, htouched, rfl⟩ := List.mem_map.mp hother
      obtain ⟨later, hlater, hmem⟩ := List.mem_flatMap.mp htouched
      have hne : later.1 ≠ entry.1 := ne_of_mem_of_not_mem (List.mem_map_of_mem hlater) hnew
      simp only [List.elem_eq_mem, List.mem_map, Bool.not_eq_true', decide_eq_false_iff_not]
      rintro ⟨own, hown, heq⟩
      rw [kind_of_mem_ofEntry hown, kind_of_mem_ofEntry hmem] at heq
      exact hne heq.symm
    rw [List.flatMap_cons, List.map_append, List.eraseDups_append, eraseDups_kinds_ofEntry, hothers,
      ih hrest]
    rfl

/-- An entry puts its snippets under its own kind, and none of them is empty. -/
theorem filterMap_ofEntry (kind : String) (entry : String × List String) :
    (ofEntry entry).filterMap (snippetUnder? kind)
      = if entry.1 = kind then entry.2.filter (· ≠ "") else [] := by
  rw [ofEntry, List.filterMap_cons_none rfl, List.filterMap_map]
  split
  case isTrue h =>
    subst h
    rw [← List.filterMap_eq_filter]
    apply List.filterMap_congr
    intro snippet _
    by_cases hempty : snippet = "" <;> simp [snippetUnder?, hempty, Option.guard]
  case isFalse h => simp [snippetUnder?, h, Function.comp_def]

end Touch

/-- A table puts under a kind what its entry for the kind lists. -/
theorem snippetsUnder_ofEntries {table : Ledger String (List String)} (hkeys : table.keys.Nodup)
    (kind : String) :
    snippetsUnder kind (table.entries.flatMap Touch.ofEntry)
      = (((table.get? kind).getD []).filter (· ≠ "")).eraseDups := by
  rw [snippetsUnder, List.filterMap_flatMap]
  simp only [Touch.filterMap_ofEntry]
  congr 1
  obtain ⟨entries⟩ := table
  induction entries with
  | nil => rfl
  | cons entry rest ih =>
    obtain ⟨hnew, hrest⟩ := List.nodup_cons.mp hkeys
    rw [List.flatMap_cons, ih hrest]
    by_cases h : entry.1 = kind
    · -- The later entries are for other kinds.
      subst h
      have hnone : Ledger.get? (⟨rest⟩ : Ledger String (List String)) entry.1 = none :=
        Ledger.get?_eq_none_iff.mpr hnew
      have hfound : Ledger.get? (⟨entry :: rest⟩ : Ledger String (List String)) entry.1
          = some entry.2 := by simp [Ledger.get?]
      rw [if_pos rfl, hnone, hfound]
      simp
    · simp [Ledger.get?, h]

/-- The candidates of a corpus, without the empty one, are the snippets of its history. -/
theorem Tells.filter_candidates (h : corpus.Tells touches) (kind : String) :
    ((corpus.candidates kind).filter (· ≠ "")).eraseDups = snippetsUnder kind touches := by
  rw [h.candidates_eq]
  split
  case isTrue =>
    have hsnippets : (snippetsUnder kind touches).filter (· ≠ "") = snippetsUnder kind touches := by
      apply List.filter_eq_self.mpr
      intro snippet hmem
      simpa using (mem_snippetsUnder.mp hmem).1
    rw [List.filter_cons_of_neg (by simp), hsnippets]
    exact eraseDups_of_nodup (nodup_eraseDups _)
  case isFalse hnot =>
    rw [snippetsUnder_eq_nil (mt h.mem_kinds_iff.mpr hnot)]
    rfl

/-- What is built from the table of a corpus is told by the history of the corpus. -/
theorem Tells.ofLedger_toLedger (h : corpus.Tells touches) :
    (ofLedger corpus.toLedger).Tells touches := by
  have hkeys : corpus.listed.keys.Nodup := h.nodup_kinds
  rw [ofLedger_eq_touchAll]
  -- The table touches each kind together and each empty candidate too, which makes no difference.
  apply (tells_touchAll _).congr
  · exact (Touch.eraseDups_kinds_ofEntries hkeys).trans h.listed_keys
  · intro kind
    exact (snippetsUnder_ofEntries hkeys kind).trans (h.filter_candidates kind)

/-! ## Corpora with one history -/

/-- A history tells what is listed, down to its order. -/
theorem Tells.listed_eq (h : first.Tells touches) (h' : second.Tells touches) :
    first.listed = second.listed := by
  have hkeys : first.listed.keys = second.listed.keys := h.listed_keys.trans h'.listed_keys.symm
  apply Ledger.eq_of_get?_eq hkeys h.nodup_kinds
  intro kind
  by_cases hkind : kind ∈ touches.map Touch.kind
  · rw [(h.get?_of_mem hkind).1, (h'.get?_of_mem hkind).1]
  · rw [Ledger.get?_eq_none_iff.mpr (mt h.mem_kinds_iff.mp hkind),
      Ledger.get?_eq_none_iff.mpr (mt h'.mem_kinds_iff.mp hkind)]

/-- Something that can be asked of a corpus, or done to it. -/
inductive Operation where
  /-- Adds a snippet to a kind. -/
  | add (kind snippet : String)
  /-- Adds the texts of a source. -/
  | addSource (harvest : Harvest)
  /-- Asks for the candidates of a kind. -/
  | candidates (kind : String)
  /-- Asks whether a kind was met. -/
  | contains (kind : String)
  /-- Asks for the kinds, in order. -/
  | kinds
  /-- Asks how many kinds there are. -/
  | size
  /-- Asks how many snippets there are. -/
  | snippetCount
  /-- Asks for the corpus in one line. -/
  | summary
  /-- Asks for the table of the corpus. -/
  | toLedger

/-- What an operation answers. -/
inductive Answer where
  | flag (value : Bool)
  | number (value : Nat)
  | line (value : String)
  | texts (value : List String)
  | table (value : Ledger String (List String))
  /-- An addition of a source is the only operation that can fail. -/
  | failed (failure : Failure)

/-- Does to a corpus what an operation says. -/
def perform (corpus : Corpus) : Operation → Answer × Corpus
  | .add kind snippet =>
    let (isNew, corpus) := corpus.add kind snippet
    (.flag isNew, corpus)
  | .addSource harvest =>
    match corpus.addSource harvest with
    | (.ok count, corpus) => (.number count, corpus)
    | (.error failure, corpus) => (.failed failure, corpus)
  | .candidates kind => (.texts (corpus.candidates kind), corpus)
  | .contains kind => (.flag (corpus.contains kind), corpus)
  | .kinds => (.texts corpus.kinds, corpus)
  | .size => (.number corpus.size, corpus)
  | .snippetCount => (.number corpus.snippetCount, corpus)
  | .summary => (.line corpus.summary, corpus)
  | .toLedger => (.table corpus.toLedger, corpus)

/-- Does some operations, one after the other, also after one that failed. -/
def performAll (corpus : Corpus) : List Operation → List Answer × Corpus
  | [] => ([], corpus)
  | operation :: rest =>
    let (answer, corpus) := corpus.perform operation
    let (answers, corpus) := corpus.performAll rest
    (answer :: answers, corpus)

/-- Whether some touches tell both of two corpora. -/
def SameHistory (first second : Corpus) : Prop :=
  ∃ touches, first.Tells touches ∧ second.Tells touches

namespace SameHistory

theorem listed_eq (h : first.SameHistory second) : first.listed = second.listed := by
  obtain ⟨touches, hfirst, hsecond⟩ := h
  exact hfirst.listed_eq hsecond

/-- Only an addition looks at what was seen, and asks nothing but whether a snippet is there. -/
theorem add (h : first.SameHistory second) (kind snippet : String) :
    (first.add kind snippet).1 = (second.add kind snippet).1 ∧
      (first.add kind snippet).2.SameHistory (second.add kind snippet).2 := by
  obtain ⟨touches, hfirst, hsecond⟩ := h
  refine ⟨?_, _, hfirst.add kind snippet, hsecond.add kind snippet⟩
  rw [Bool.eq_iff_iff, hfirst.add_eq_true_iff, hsecond.add_eq_true_iff]

theorem addSpans (h : first.SameHistory second) (harvest : Harvest) (added : Nat)
    (spans : List Span) :
    (addSpans harvest added spans first).1 = (addSpans harvest added spans second).1 ∧
      (Corpus.addSpans harvest added spans first).2.SameHistory
        (Corpus.addSpans harvest added spans second).2 := by
  induction spans generalizing added first second with
  | nil => exact ⟨rfl, h⟩
  | cons span rest ih =>
    cases htext : harvest.textOf span with
    -- Both stop at the same span.
    | error failure =>
      simp only [Corpus.addSpans, htext]
      exact ⟨trivial, h⟩
    | ok text =>
      obtain ⟨hanswer, hadded⟩ := h.add span.kind text
      rw [addSpans_cons_of_ok htext, addSpans_cons_of_ok htext, hanswer]
      exact ih hadded _

/-- Nothing that is done to two corpora with one history gives them different ones. -/
theorem perform (h : first.SameHistory second) (operation : Operation) :
    (first.perform operation).1 = (second.perform operation).1 ∧
      (first.perform operation).2.SameHistory (second.perform operation).2 := by
  cases operation with
  | add kind snippet =>
    obtain ⟨hanswer, hadded⟩ := h.add kind snippet
    exact ⟨congrArg Answer.flag hanswer, hadded⟩
  | addSource harvest =>
    obtain ⟨hanswer, hadded⟩ := h.addSpans harvest 0 harvest.spans
    simp only [Corpus.perform, Corpus.addSource]
    rcases hleft : Corpus.addSpans harvest 0 harvest.spans first with ⟨result, left⟩
    rcases hright : Corpus.addSpans harvest 0 harvest.spans second with ⟨result', right⟩
    rw [hleft, hright] at hanswer hadded
    cases hanswer
    cases result with
    | ok => exact ⟨rfl, hadded⟩
    | error => exact ⟨rfl, hadded⟩
  | _ =>
    -- Everything else only reads what is listed.
    obtain ⟨listed, seen⟩ := first
    obtain ⟨listed', seen'⟩ := second
    obtain rfl : listed = listed' := h.listed_eq
    exact ⟨rfl, h⟩

theorem performAll (h : first.SameHistory second) (operations : List Operation) :
    (first.performAll operations).1 = (second.performAll operations).1 ∧
      (first.performAll operations).2.SameHistory (second.performAll operations).2 := by
  induction operations generalizing first second with
  | nil => exact ⟨rfl, h⟩
  | cons operation rest ih =>
    obtain ⟨hanswer, hperformed⟩ := h.perform operation
    obtain ⟨hanswers, hlater⟩ := ih hperformed
    exact ⟨congrArg₂ List.cons hanswer hanswers, hlater⟩

end SameHistory

/-- Whether two corpora list the same, in order, and go on to answer the same. -/
structure Indistinct (first second : Corpus) : Prop where
  kinds : second.kinds = first.kinds
  candidates : ∀ kind, second.candidates kind = first.candidates kind
  snippetCount : second.snippetCount = first.snippetCount
  toLedger : second.toLedger = first.toLedger
  seen_kinds : second.seen.keys = first.seen.keys
  seen : ∀ kind text,
    text ∈ (second.seen.get? kind).getD [] ↔ text ∈ (first.seen.get? kind).getD []
  /-- Whatever is asked of them and done to them, in whatever order. -/
  answers : ∀ operations, (second.performAll operations).1 = (first.performAll operations).1

theorem SameHistory.indistinct (h : first.SameHistory second) : first.Indistinct second := by
  have hlisted : second.listed = first.listed := h.listed_eq.symm
  obtain ⟨touches, hfirst, hsecond⟩ := id h
  exact {
    kinds := congrArg Ledger.keys hlisted
    candidates := fun kind => congrArg (fun listed => (listed.get? kind).getD []) hlisted
    snippetCount := by rw [Corpus.snippetCount, Corpus.snippetCount, hlisted]
    toLedger := hlisted
    seen_kinds := hsecond.seen_keys.trans hfirst.seen_keys.symm
    seen := by
      intro kind text
      rw [hsecond.mem_seen_iff, hfirst.mem_seen_iff, Corpus.candidates, Corpus.candidates, hlisted]
    answers := fun operations => (h.performAll operations).1.symm }

/-- What is built from the table of a corpus cannot be told from the corpus. -/
theorem Reached.rebuilt (h : Reached touches corpus) :
    corpus.Indistinct (Corpus.ofLedger corpus.toLedger) := by
  have hsame : corpus.SameHistory (Corpus.ofLedger corpus.toLedger) :=
    ⟨touches, h.tells, h.tells.ofLedger_toLedger⟩
  exact hsame.indistinct

/-- A kind without snippets, a snippet that is listed already, and an addition that breaks off. -/
theorem cutAccent_rebuilt :
    let corpus := ((ofLedger ⟨[("word", []), ("name", ["", "x", "y"])]⟩).addSource cutAccent).2
    corpus.toLedger.entries = [("word", [""]), ("name", ["", "x", "y"])] ∧
      corpus.Indistinct (ofLedger corpus.toLedger) := by
  intro corpus
  have hreached := (Reached.ofLedger ⟨[("word", []), ("name", ["", "x", "y"])]⟩).addSource cutAccent
  exact ⟨by decide +kernel, hreached.rebuilt⟩

end Corpus
end SourceMutation
