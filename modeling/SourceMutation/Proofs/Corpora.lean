import SourceMutation.Proofs.Splicing

/-!
# Histories of corpora

A corpus is told by what was done to it: which kinds were entered and which snippets were added
under them, in order.  The two tables of a corpus, what its additions answered and the number of its
snippets all follow from that history (`Corpus.Recounts`), however the corpus came about
(`Corpus.Reached.recounts`).

## Histories

- A touch enters a kind, or adds a snippet under one (`Corpus.Touch`).  A corpus is reached by a
  history of touches from the empty corpus, from a table, or by adding sources, and a source that
  cannot be added to its end adds the spans before (`Corpus.Reached`).
- However it is reached, it is what the touches make of the empty corpus
  (`Corpus.Reached.eq_touchAll`).

## What a history tells

- One touch changes the tables at one kind (`Corpus.Tells.set`); it leaves them alone if there is
  nothing new (`Corpus.Tells.keep`).
- So the tables tell the history, by induction over it (`Corpus.Tells.touchAll`): the kinds stand in
  the order of their first touch, and under each of them the empty snippet comes first and then
  those that were added there, each of them once.
- The number of snippets grows by one for each addition that answers that it is new
  (`Corpus.Tells.snippetCount_touchAll`).
-/

namespace SourceMutation

theorem eraseDups_concat {α : Type} [DecidableEq α] (items : List α) (item : α) :
    (items ++ [item]).eraseDups
      = if item ∈ items then items.eraseDups else items.eraseDups ++ [item] := by
  rw [List.eraseDups_append]
  by_cases hmem : item ∈ items <;> simp [List.removeAll, List.eraseDups_cons, hmem]

namespace Corpus

/-! ## Touches -/

/-- What can be done to one kind of a corpus. -/
inductive Touch where
  /-- The kind is entered, without a snippet. -/
  | entered (kind : String)
  /-- A snippet is added under the kind. -/
  | added (kind snippet : String)
  deriving DecidableEq

namespace Touch

/-- The kind that is touched. -/
def kind : Touch → String
  | entered kind => kind
  | added kind _ => kind

/-- The snippet that a touch puts under a kind, if it puts one there that is not empty. -/
def snippetUnder? (kind : String) : Touch → Option String
  | entered _ => none
  | added under snippet => if under = kind ∧ snippet ≠ "" then some snippet else none

/-- What an entry of a table touches: the kind itself, then each of its snippets. -/
def ofEntry (entry : String × List String) : List Touch :=
  .entered entry.1 :: entry.2.map (.added entry.1)

/-- What adding the spans of a source touches: it goes on up to the first span without a text. -/
def ofSpans (harvest : Harvest) : List Span → List Touch
  | [] => []
  | span :: rest =>
    match harvest.textOf span with
    | .error _ => []
    | .ok text => .added span.kind text :: ofSpans harvest rest

end Touch

/-- The distinct snippets that some touches put under a kind, the first put there first. -/
def snippetsUnder (kind : String) (touches : List Touch) : List String :=
  (touches.filterMap (Touch.snippetUnder? kind)).eraseDups

/-- Does to a corpus what a touch says. -/
def touch (corpus : Corpus) : Touch → Corpus
  | .entered kind => corpus.ensureKind kind
  | .added kind snippet => (corpus.add kind snippet).2

/-- Does to a corpus what some touches say, in order. -/
def touchAll (corpus : Corpus) (touches : List Touch) : Corpus := touches.foldl touch corpus

/-- What the additions among some touches answer. -/
def answers (corpus : Corpus) : List Touch → List Bool
  | [] => []
  | .entered kind :: rest => answers (corpus.ensureKind kind) rest
  | .added kind snippet :: rest =>
    (corpus.add kind snippet).1 :: answers (corpus.add kind snippet).2 rest

/-- How a corpus comes about, and what was touched on the way. -/
inductive Reached : List Touch → Corpus → Prop
  | empty : Reached [] empty
  | ofLedger (table : Ledger String (List String)) :
      Reached (table.entries.flatMap Touch.ofEntry) (ofLedger table)
  | add {touches : List Touch} {corpus : Corpus} (kind snippet : String) :
      Reached touches corpus →
        Reached (touches ++ [.added kind snippet]) (corpus.add kind snippet).2
  /-- Also where the addition fails part way: the corpus keeps what was added before. -/
  | addSource {touches : List Touch} {corpus : Corpus} (harvest : Harvest) :
      Reached touches corpus →
        Reached (touches ++ Touch.ofSpans harvest harvest.spans) (corpus.addSource harvest).2

variable {corpus : Corpus} {touches : List Touch} {kind snippet : String}

theorem touchAll_append (corpus : Corpus) (touches later : List Touch) :
    corpus.touchAll (touches ++ later) = (corpus.touchAll touches).touchAll later :=
  List.foldl_append

theorem snippetsUnder_concat_of_none {touched : Touch} (h : touched.snippetUnder? kind = none) :
    snippetsUnder kind (touches ++ [touched]) = snippetsUnder kind touches := by
  simp [snippetsUnder, h]

/-- A snippet is listed last if it is new under its kind, and not again if it is not. -/
theorem snippetsUnder_concat_of_some {touched : Touch}
    (h : touched.snippetUnder? kind = some snippet) :
    snippetsUnder kind (touches ++ [touched])
      = if snippet ∈ snippetsUnder kind touches then snippetsUnder kind touches
        else snippetsUnder kind touches ++ [snippet] := by
  have hput : [touched].filterMap (Touch.snippetUnder? kind) = [snippet] := by simp [h]
  simp only [snippetsUnder, List.filterMap_append, hput, eraseDups_concat, List.mem_eraseDups]

theorem Touch.snippetUnder?_of_ne {touched : Touch} (h : touched.kind ≠ kind) :
    touched.snippetUnder? kind = none := by
  cases touched with
  | entered under => rfl
  | added under text => exact if_neg fun hand => h hand.1

theorem Touch.snippetUnder?_added {under text : String} :
    Touch.snippetUnder? kind (.added under text) = some snippet ↔
      (under = kind ∧ text ≠ "") ∧ text = snippet := by
  rw [Touch.snippetUnder?]
  split
  case isTrue h => exact ⟨fun heq => ⟨h, Option.some.inj heq⟩, fun hboth => congrArg some hboth.2⟩
  case isFalse h => exact ⟨fun heq => (nomatch heq), fun hboth => absurd hboth.1 h⟩

theorem mem_snippetsUnder :
    snippet ∈ snippetsUnder kind touches ↔ snippet ≠ "" ∧ .added kind snippet ∈ touches := by
  rw [snippetsUnder, List.mem_eraseDups, List.mem_filterMap]
  constructor
  · rintro ⟨touched, hmem, hsnippet⟩
    cases touched with
    | entered under => cases hsnippet
    | added under text =>
      obtain ⟨⟨rfl, hne⟩, rfl⟩ := Touch.snippetUnder?_added.mp hsnippet
      exact ⟨hne, hmem⟩
  · rintro ⟨hne, hmem⟩
    exact ⟨_, hmem, Touch.snippetUnder?_added.mpr ⟨⟨rfl, hne⟩, rfl⟩⟩

/-- No snippet was put under a kind that was never touched. -/
theorem snippetsUnder_eq_nil (h : kind ∉ touches.map Touch.kind) :
    snippetsUnder kind touches = [] := by
  apply List.eq_nil_iff_forall_not_mem.mpr
  intro snippet hmem
  exact h (List.mem_map_of_mem (f := Touch.kind) (mem_snippetsUnder.mp hmem).2)

/-! ## What a touch does to the tables

A corpus keeps its candidates in order and, beside them, the sets of what was seen.  Both tables are
told by one history (`Tells`), which each touch makes longer.
-/

/-- The two tables of a corpus are those that some touches make. -/
structure Tells (corpus : Corpus) (touches : List Touch) : Prop where
  listed_keys : corpus.listed.keys = (touches.map Touch.kind).eraseDups
  seen_keys : corpus.seen.keys = (touches.map Touch.kind).eraseDups
  listed : ∀ kind texts, corpus.listed.get? kind = some texts →
    texts = "" :: snippetsUnder kind touches
  seen : ∀ kind texts, corpus.seen.get? kind = some texts →
    ∀ text, text ∈ texts ↔ text ∈ "" :: snippetsUnder kind touches

/-- Entering a kind brings no snippet. -/
theorem snippetCount_ensureKind (corpus : Corpus) (kind : String) :
    (corpus.ensureKind kind).snippetCount = corpus.snippetCount := by
  rw [Corpus.ensureKind]
  split
  case isTrue => rfl
  case isFalse hmet =>
    have hnone : corpus.listed.get? kind = none := by
      simpa [contains, Ledger.contains] using hmet
    have hsum := Ledger.sum_values_set (fun texts => texts.length - 1) corpus.listed kind [""]
    rw [hnone] at hsum
    exact hsum

namespace Tells

theorem empty : Corpus.empty.Tells [] where
  listed_keys := rfl
  seen_keys := rfl
  listed _ _ h := by cases h
  seen _ _ h := by cases h

/-- Histories that touch the same kinds and put the same snippets there make the same tables. -/
theorem congr (h : corpus.Tells touches) {others : List Touch}
    (hkinds : (touches.map Touch.kind).eraseDups = (others.map Touch.kind).eraseDups)
    (hsnippets : ∀ kind, snippetsUnder kind touches = snippetsUnder kind others) :
    corpus.Tells others where
  listed_keys := h.listed_keys.trans hkinds
  seen_keys := h.seen_keys.trans hkinds
  listed kind texts hget := hsnippets kind ▸ h.listed kind texts hget
  seen kind texts hget := hsnippets kind ▸ h.seen kind texts hget

/-- A touch of a kind that was met, with no snippet that is new there, leaves the tables alone. -/
theorem keep (h : corpus.Tells touches) {touched : Touch}
    (hkind : touched.kind ∈ touches.map Touch.kind)
    (hsnippets : ∀ kind, snippetsUnder kind (touches ++ [touched]) = snippetsUnder kind touches) :
    corpus.Tells (touches ++ [touched]) := by
  apply h.congr _ fun kind => (hsnippets kind).symm
  rw [List.map_append, List.map_singleton, eraseDups_concat, if_pos hkind]

/-- A touch that changes a kind's snippets enters the new ones under the kind in both tables. -/
theorem set (h : corpus.Tells touches) (touched : Touch) {texts marked : List String}
    (htexts : texts = "" :: snippetsUnder touched.kind (touches ++ [touched]))
    (hmarked : ∀ text,
      text ∈ marked ↔ text ∈ "" :: snippetsUnder touched.kind (touches ++ [touched])) :
    Tells ⟨corpus.listed.set touched.kind texts, corpus.seen.set touched.kind marked⟩
      (touches ++ [touched]) := by
  -- The kind comes behind the others if it is new, in both tables.
  have hkeys : ∀ (ledger : Ledger String (List String)) (value : List String),
      ledger.keys = (touches.map Touch.kind).eraseDups →
        (ledger.set touched.kind value).keys
          = ((touches ++ [touched]).map Touch.kind).eraseDups := by
    intro ledger value hledger
    simp only [Ledger.keys_set, hledger, List.mem_eraseDups, List.map_append, List.map_singleton,
      eraseDups_concat]
  -- Under other kinds nothing was touched.
  have hother : ∀ kind, kind ≠ touched.kind →
      snippetsUnder kind (touches ++ [touched]) = snippetsUnder kind touches :=
    fun kind hne => snippetsUnder_concat_of_none (Touch.snippetUnder?_of_ne (Ne.symm hne))
  refine ⟨hkeys _ _ h.listed_keys, hkeys _ _ h.seen_keys, ?_, ?_⟩
  · intro kind others hget
    rw [Ledger.get?_set] at hget
    split at hget
    case isTrue heq => cases hget; exact heq ▸ htexts
    case isFalse hne => exact hother kind hne ▸ h.listed kind others hget
  · intro kind others hget
    rw [Ledger.get?_set] at hget
    split at hget
    case isTrue heq => cases hget; exact heq ▸ hmarked
    case isFalse hne => exact hother kind hne ▸ h.seen kind others hget

theorem contains_iff (h : corpus.Tells touches) :
    corpus.contains kind = true ↔ kind ∈ touches.map Touch.kind := by
  rw [contains, Ledger.contains, ← Ledger.mem_keys_iff, h.listed_keys, List.mem_eraseDups]

theorem mem_kinds_iff (h : corpus.Tells touches) :
    kind ∈ corpus.kinds ↔ kind ∈ touches.map Touch.kind := by
  rw [kinds, h.listed_keys, List.mem_eraseDups]

theorem ensureKind (h : corpus.Tells touches) (kind : String) :
    (corpus.ensureKind kind).Tells (touches ++ [.entered kind]) := by
  have hsnippets : ∀ other,
      snippetsUnder other (touches ++ [.entered kind]) = snippetsUnder other touches :=
    fun other => snippetsUnder_concat_of_none rfl
  rw [Corpus.ensureKind]
  split
  -- A kind that was met before is in both tables already.
  case isTrue hmet => exact h.keep (h.contains_iff.mp hmet) hsnippets
  case isFalse hmet =>
    have hnone : snippetsUnder kind touches = [] :=
      snippetsUnder_eq_nil (mt h.contains_iff.mpr hmet)
    have htexts : ([""] : List String)
        = "" :: snippetsUnder kind (touches ++ [.entered kind]) := by
      rw [hsnippets, hnone]
    exact h.set (.entered kind) htexts fun text => htexts ▸ Iff.rfl

/-- What the two tables have under a kind that was touched. -/
theorem get?_of_mem (h : corpus.Tells touches) (hkind : kind ∈ touches.map Touch.kind) :
    corpus.listed.get? kind = some ("" :: snippetsUnder kind touches) ∧
      ∃ marked, corpus.seen.get? kind = some marked ∧
        ∀ text, text ∈ marked ↔ text ∈ "" :: snippetsUnder kind touches := by
  have hlisted : kind ∈ corpus.listed.keys := by rwa [h.listed_keys, List.mem_eraseDups]
  have hseen : kind ∈ corpus.seen.keys := by rwa [h.seen_keys, List.mem_eraseDups]
  obtain ⟨texts, htexts⟩ := Option.isSome_iff_exists.mp ((Ledger.mem_keys_iff _ _).mp hlisted)
  obtain ⟨marked, hmarked⟩ := Option.isSome_iff_exists.mp ((Ledger.mem_keys_iff _ _).mp hseen)
  exact ⟨h.listed kind texts htexts ▸ htexts, marked, hmarked, h.seen kind marked hmarked⟩

/-- What both tables have under a kind that was just entered. -/
theorem get?_ensureKind (h : corpus.Tells touches) (kind : String) :
    (corpus.ensureKind kind).listed.get? kind = some ("" :: snippetsUnder kind touches) ∧
      ∃ marked, (corpus.ensureKind kind).seen.get? kind = some marked ∧
        ∀ text, text ∈ marked ↔ text ∈ "" :: snippetsUnder kind touches := by
  have hsnippets : snippetsUnder kind (touches ++ [.entered kind]) = snippetsUnder kind touches :=
    snippetsUnder_concat_of_none rfl
  have hkind : kind ∈ (touches ++ [Touch.entered kind]).map Touch.kind := by simp [Touch.kind]
  exact hsnippets ▸ (h.ensureKind kind).get?_of_mem hkind

/-- An addition answers whether its snippet is new. -/
theorem add_eq_true_iff (h : corpus.Tells touches) :
    (corpus.add kind snippet).1 = true ↔ snippet ≠ "" ∧ snippet ∉ snippetsUnder kind touches := by
  obtain ⟨-, marked, hmarked, hmem⟩ := h.get?_ensureKind kind
  have hnew : snippet ∉ marked ↔ snippet ≠ "" ∧ snippet ∉ snippetsUnder kind touches := by
    rw [hmem snippet, List.mem_cons, not_or]
  rw [← hnew]
  simp only [Corpus.add, hmarked, Option.getD_some, List.contains_iff_mem]
  split
  case isTrue hold => simp [hold]
  case isFalse hnot => simp [hnot]

/-- A snippet that the kind has already leaves the tables alone. -/
theorem keep_added (h : corpus.Tells touches) (hkind : kind ∈ touches.map Touch.kind)
    (hold : snippet ∈ "" :: snippetsUnder kind touches) :
    corpus.Tells (touches ++ [.added kind snippet]) := by
  have htouched : (Touch.added kind snippet).kind ∈ touches.map Touch.kind := hkind
  apply h.keep htouched
  intro other
  cases hother : Touch.snippetUnder? other (.added kind snippet) with
  | none => exact snippetsUnder_concat_of_none hother
  | some text =>
    obtain ⟨⟨rfl, hne⟩, rfl⟩ := Touch.snippetUnder?_added.mp hother
    rw [snippetsUnder_concat_of_some hother, if_pos]
    exact (List.mem_cons.mp hold).resolve_left hne

/-- A new snippet is entered last among the candidates of its kind. -/
theorem set_added (h : corpus.Tells touches) {marked : List String}
    (hmarked : ∀ text, text ∈ marked ↔ text ∈ "" :: snippetsUnder kind touches)
    (hnew : snippet ∉ "" :: snippetsUnder kind touches) :
    Tells ⟨corpus.listed.set kind ("" :: snippetsUnder kind touches ++ [snippet]),
      corpus.seen.set kind (snippet :: marked)⟩ (touches ++ [.added kind snippet]) := by
  rw [List.mem_cons, not_or] at hnew
  -- The snippet is new under its kind, so it comes last.
  have hlast : snippetsUnder kind (touches ++ [.added kind snippet])
      = snippetsUnder kind touches ++ [snippet] := by
    rw [snippetsUnder_concat_of_some (Touch.snippetUnder?_added.mpr ⟨⟨rfl, hnew.1⟩, rfl⟩),
      if_neg hnew.2]
  apply h.set (.added kind snippet)
  · show _ = "" :: snippetsUnder kind (touches ++ [.added kind snippet])
    rw [hlast, List.cons_append]
  · intro text
    show text ∈ snippet :: marked ↔
      text ∈ "" :: snippetsUnder kind (touches ++ [.added kind snippet])
    rw [hlast, List.mem_cons, hmarked text, ← List.cons_append, List.mem_append,
      List.mem_singleton, or_comm]

theorem add (h : corpus.Tells touches) (kind snippet : String) :
    (corpus.add kind snippet).2.Tells (touches ++ [.added kind snippet]) := by
  obtain ⟨hlisted, marked, hmarked, hmem⟩ := h.get?_ensureKind kind
  have hentered := h.ensureKind kind
  have hunder : snippetsUnder kind (touches ++ [.entered kind]) = snippetsUnder kind touches :=
    snippetsUnder_concat_of_none rfl
  have hkind : kind ∈ (touches ++ [Touch.entered kind]).map Touch.kind := by simp [Touch.kind]
  -- To add a snippet is to enter its kind and then to add it there.
  have hboth : (corpus.add kind snippet).2.Tells
      (touches ++ [.entered kind] ++ [.added kind snippet]) := by
    simp only [Corpus.add, hmarked, Option.getD_some, List.contains_iff_mem, candidates, hlisted]
    split
    case isTrue hold =>
      apply hentered.keep_added hkind
      rwa [hunder, ← hmem]
    case isFalse hnew =>
      rw [← hunder] at hmem ⊢
      exact hentered.set_added hmem (mt (hmem snippet).mpr hnew)
  apply hboth.congr
  · rw [List.map_append, List.map_singleton, eraseDups_concat]
    exact (if_pos hkind).trans (by simp only [List.map_append, List.map_singleton, Touch.kind])
  · intro other
    have hnone : [Touch.entered kind].filterMap (Touch.snippetUnder? other) = [] := rfl
    simp only [snippetsUnder, List.filterMap_append, hnone, List.append_nil]

/-- An addition brings one snippet if it answers that it is new, and none if not. -/
theorem snippetCount_add (h : corpus.Tells touches) (kind snippet : String) :
    (corpus.add kind snippet).2.snippetCount
      = corpus.snippetCount + if (corpus.add kind snippet).1 then 1 else 0 := by
  obtain ⟨hlisted, marked, hmarked, -⟩ := h.get?_ensureKind kind
  rw [← snippetCount_ensureKind corpus kind]
  simp only [Corpus.add, hmarked, Option.getD_some, List.contains_iff_mem, candidates, hlisted]
  split
  case isTrue => rfl
  case isFalse =>
    -- One snippet more in the list of its kind is one more in the sum over all kinds.
    have hsum := Ledger.sum_values_set (fun texts => texts.length - 1)
      (corpus.ensureKind kind).listed kind ("" :: snippetsUnder kind touches ++ [snippet])
    simp only [hlisted, Option.map_some, Option.getD_some, List.length_append, List.length_cons,
      List.length_nil] at hsum
    simp only [snippetCount, if_true]
    omega

end Tells

/-! ## What a history does to the tables -/

/-- A corpus told by a history, touched further, is told by the longer one. -/
theorem Tells.touchAll (h : corpus.Tells touches) (later : List Touch) :
    (corpus.touchAll later).Tells (touches ++ later) := by
  induction later generalizing corpus touches with
  | nil => rwa [List.append_nil]
  | cons touched later ih =>
    have hstep : (corpus.touch touched).Tells (touches ++ [touched]) := by
      cases touched with
      | entered kind => exact h.ensureKind kind
      | added kind snippet => exact h.add kind snippet
    have hrest := ih hstep
    rwa [List.append_assoc, List.singleton_append] at hrest

/-- As many snippets are brought as additions answer that theirs is new. -/
theorem Tells.snippetCount_touchAll (h : corpus.Tells touches) (later : List Touch) :
    (corpus.touchAll later).snippetCount
      = corpus.snippetCount + (corpus.answers later).count true := by
  induction later generalizing corpus touches with
  | nil => rfl
  | cons touched later ih =>
    cases touched with
    -- Entering a kind adds no snippet.
    | entered kind =>
      have hrest := ih (h.ensureKind kind)
      rw [snippetCount_ensureKind] at hrest
      exact hrest
    -- Adding a snippet adds one if it is new, and answers so.
    | added kind snippet =>
      have hrest := ih (h.add kind snippet)
      rw [h.snippetCount_add] at hrest
      refine hrest.trans ?_
      rw [answers, List.count_cons]
      cases (corpus.add kind snippet).1 with
      | false => simp
      | true =>
        simp only [beq_self_eq_true, if_true]
        omega

theorem addAll_eq_touchAll (corpus : Corpus) (kind : String) (snippets : List String) :
    corpus.addAll kind snippets = corpus.touchAll (snippets.map (.added kind)) := by
  rw [addAll, Corpus.touchAll, List.foldl_map]
  rfl

theorem ofLedger_eq_touchAll (table : Ledger String (List String)) :
    ofLedger table = empty.touchAll (table.entries.flatMap Touch.ofEntry) := by
  rw [ofLedger, Corpus.touchAll, List.foldl_flatMap]
  congr 1
  funext corpus entry
  rw [addAll_eq_touchAll]
  rfl

theorem addSpans_cons_of_ok {harvest : Harvest} {span : Span} {text : String}
    (h : harvest.textOf span = .ok text) (added : Nat) (rest : List Span) (corpus : Corpus) :
    addSpans harvest added (span :: rest) corpus
      = addSpans harvest (if (corpus.add span.kind text).1 then added + 1 else added) rest
          (corpus.add span.kind text).2 := by
  rw [addSpans, h]

theorem Touch.ofSpans_cons_of_ok {harvest : Harvest} {span : Span} {text : String}
    (h : harvest.textOf span = .ok text) (rest : List Span) :
    Touch.ofSpans harvest (span :: rest) = .added span.kind text :: Touch.ofSpans harvest rest := by
  rw [Touch.ofSpans, h]

/-- Spans are added after those before them. -/
theorem addSpans_append_of_ok {harvest : Harvest} {added count : Nat} {before : List Span}
    {after : Corpus} (h : addSpans harvest added before corpus = (.ok count, after))
    (rest : List Span) :
    addSpans harvest added (before ++ rest) corpus = addSpans harvest count rest after := by
  induction before generalizing added corpus with
  | nil =>
    cases h
    rfl
  | cons span before ih =>
    cases htext : harvest.textOf span with
    | error failure =>
      rw [addSpans, htext] at h
      cases h
    -- The first span was added, so the others are added to what that has left.
    | ok text =>
      rw [addSpans_cons_of_ok htext] at h
      rw [List.cons_append, addSpans_cons_of_ok htext]
      exact ih h

/-- An addition fails at a span without a text, and leaves what the spans before it add. -/
theorem addSpans_eq_error_iff {harvest : Harvest} {added : Nat} {spans : List Span}
    {failure : Failure} {after : Corpus} :
    addSpans harvest added spans corpus = (.error failure, after) ↔
      ∃ before span later count, spans = before ++ span :: later ∧
        harvest.textOf span = .error failure ∧
        addSpans harvest added before corpus = (.ok count, after) := by
  constructor
  · intro h
    induction spans generalizing added corpus with
    | nil => cases h
    | cons first rest ih =>
      cases htext : harvest.textOf first with
      -- The first span has no text, so nothing comes before it.
      | error other =>
        rw [addSpans, htext] at h
        cases h
        exact ⟨[], first, rest, added, rfl, htext, rfl⟩
      | ok text =>
        rw [addSpans_cons_of_ok htext] at h
        obtain ⟨before, span, later, count, rfl, hfails, hbefore⟩ := ih h
        rw [← addSpans_cons_of_ok htext] at hbefore
        exact ⟨first :: before, span, later, count, rfl, hfails, hbefore⟩
  · rintro ⟨before, span, later, count, rfl, hfails, hbefore⟩
    rw [addSpans_append_of_ok hbefore, addSpans, hfails]

/-- Adding spans is adding their texts, up to the first span without one. -/
theorem addSpans_snd (harvest : Harvest) (added : Nat) (spans : List Span) (corpus : Corpus) :
    (addSpans harvest added spans corpus).2 = corpus.touchAll (Touch.ofSpans harvest spans) := by
  induction spans generalizing added corpus with
  | nil => rfl
  | cons span rest ih =>
    cases htext : harvest.textOf span with
    | error =>
      rw [addSpans, Touch.ofSpans, htext]
      rfl
    | ok text =>
      rw [addSpans_cons_of_ok htext, Touch.ofSpans_cons_of_ok htext]
      exact ih _ _

/-- Spans that are all added are counted by what their additions answer. -/
theorem addSpans_fst {harvest : Harvest} {added count : Nat} {spans : List Span}
    (h : (addSpans harvest added spans corpus).1 = .ok count) :
    count = added + (corpus.answers (Touch.ofSpans harvest spans)).count true := by
  induction spans generalizing added corpus with
  | nil =>
    cases h
    rfl
  | cons span rest ih =>
    cases htext : harvest.textOf span with
    | error =>
      rw [addSpans, htext] at h
      cases h
    | ok text =>
      rw [addSpans_cons_of_ok htext] at h
      have hrest := ih h
      rw [Touch.ofSpans_cons_of_ok htext, answers, List.count_cons]
      -- The count goes up by one for each span that answers that it is new.
      generalize (corpus.add span.kind text).1 = isNew at hrest ⊢
      cases isNew <;> simp at hrest ⊢ <;> omega

/-- A source whose spans all have texts has a corpus. -/
theorem exists_addSpans {harvest : Harvest} {spans : List Span}
    (htexts : ∀ span ∈ spans, ∃ text, harvest.textOf span = .ok text) (added : Nat)
    (corpus : Corpus) : ∃ count, (addSpans harvest added spans corpus).1 = .ok count := by
  induction spans generalizing added corpus with
  | nil => exact ⟨added, rfl⟩
  | cons span rest ih =>
    obtain ⟨text, htext⟩ := htexts span List.mem_cons_self
    rw [addSpans_cons_of_ok htext]
    exact ih (fun other hmem => htexts other (List.mem_cons_of_mem _ hmem)) _ _

theorem exists_ofSource {harvest : Harvest}
    (htexts : ∀ span ∈ harvest.spans, ∃ text, harvest.textOf span = .ok text) :
    ∃ own, ofSource harvest = .ok own := by
  obtain ⟨count, hcount⟩ := exists_addSpans htexts 0 empty
  rcases hadded : empty.addSource harvest with ⟨result, own⟩
  rw [addSource] at hadded
  rw [hadded] at hcount
  cases hcount
  exact ⟨own, by rw [ofSource, addSource, hadded]⟩

/-- Spans that are all added have texts, each of which is added under its kind. -/
theorem exists_added_of_addSpans {harvest : Harvest} {added count : Nat} {spans : List Span}
    (h : (addSpans harvest added spans corpus).1 = .ok count) {span : Span} (hmem : span ∈ spans) :
    ∃ text, harvest.textOf span = .ok text ∧
      .added span.kind text ∈ Touch.ofSpans harvest spans := by
  induction spans generalizing added corpus with
  | nil => cases hmem
  | cons first rest ih =>
    cases htext : harvest.textOf first with
    -- All spans were added, so the first one has a text.
    | error => rw [addSpans, htext] at h; cases h
    | ok text =>
      rw [addSpans_cons_of_ok htext] at h
      rw [Touch.ofSpans_cons_of_ok htext]
      rcases List.mem_cons.mp hmem with rfl | hrest
      · exact ⟨text, htext, List.mem_cons_self⟩
      · obtain ⟨own, hown, hadded⟩ := ih h hrest
        exact ⟨own, hown, List.mem_cons_of_mem _ hadded⟩

/-- What adding spans puts under a kind is the text of one of them. -/
theorem Touch.exists_span_of_mem_ofSpans {harvest : Harvest} {spans : List Span}
    (h : .added kind snippet ∈ Touch.ofSpans harvest spans) :
    ∃ span ∈ spans, span.kind = kind ∧ harvest.textOf span = .ok snippet := by
  induction spans with
  | nil => cases h
  | cons first rest ih =>
    cases htext : harvest.textOf first with
    | error => rw [Touch.ofSpans, htext] at h; cases h
    | ok text =>
      rw [Touch.ofSpans_cons_of_ok htext] at h
      rcases List.mem_cons.mp h with heq | hrest
      · cases heq
        exact ⟨first, List.mem_cons_self, rfl, htext⟩
      · obtain ⟨span, hspan, hboth⟩ := ih hrest
        exact ⟨span, List.mem_cons_of_mem _ hspan, hboth⟩

theorem ofSource_eq_ok {harvest : Harvest} {own : Corpus} (h : ofSource harvest = .ok own) :
    ∃ count, empty.addSource harvest = (.ok count, own) := by
  rw [ofSource] at h
  split at h
  case h_1 count corpus hadded =>
    cases h
    exact ⟨count, hadded⟩
  case h_2 => cases h

/-! ## Corpora and their histories -/

/-- A corpus is what its history makes of the empty one. -/
theorem Reached.eq_touchAll (h : Reached touches corpus) :
    corpus = Corpus.empty.touchAll touches := by
  induction h with
  | empty => rfl
  | ofLedger table => exact ofLedger_eq_touchAll table
  | add kind snippet _ ih => rw [ih, touchAll_append]; rfl
  | addSource harvest _ ih => rw [Corpus.addSource, addSpans_snd, touchAll_append, ← ih]

theorem tells_touchAll (touches : List Touch) : (empty.touchAll touches).Tells touches :=
  Tells.empty.touchAll touches

theorem Reached.tells (h : Reached touches corpus) : corpus.Tells touches :=
  h.eq_touchAll ▸ tells_touchAll touches

theorem Tells.candidates_eq (h : corpus.Tells touches) (kind : String) :
    corpus.candidates kind
      = if kind ∈ corpus.kinds then "" :: snippetsUnder kind touches else [] := by
  rw [candidates, kinds]
  cases hget : corpus.listed.get? kind with
  | none =>
    rw [if_neg (Ledger.get?_eq_none_iff.mp hget)]
    rfl
  | some texts =>
    have hmem : kind ∈ corpus.listed.keys := by simp [Ledger.mem_keys_iff, hget]
    rw [if_pos hmem]
    exact h.listed kind texts hget

/-- What was seen of a kind is what is listed for it. -/
theorem Tells.mem_seen_iff (h : corpus.Tells touches) (kind text : String) :
    text ∈ (corpus.seen.get? kind).getD [] ↔ text ∈ corpus.candidates kind := by
  have hkeys : corpus.seen.keys = corpus.listed.keys := h.seen_keys.trans h.listed_keys.symm
  rw [h.candidates_eq, kinds, ← hkeys]
  cases hget : corpus.seen.get? kind with
  | none =>
    rw [if_neg (Ledger.get?_eq_none_iff.mp hget)]
    rfl
  | some marked =>
    have hmem : kind ∈ corpus.seen.keys := by simp [Ledger.mem_keys_iff, hget]
    rw [if_pos hmem]
    exact h.seen kind marked hget text

/-- A snippet that was put under a kind is among its candidates. -/
theorem Tells.mem_candidates (h : corpus.Tells touches) (hadded : .added kind snippet ∈ touches) :
    corpus.contains kind = true ∧ snippet ∈ corpus.candidates kind := by
  have htouched : kind ∈ touches.map Touch.kind := List.mem_map_of_mem (f := Touch.kind) hadded
  refine ⟨h.contains_iff.mpr htouched, ?_⟩
  rw [candidates, (h.get?_of_mem htouched).1, Option.getD_some, List.mem_cons]
  by_cases hempty : snippet = ""
  · exact .inl hempty
  · exact .inr (mem_snippetsUnder.mpr ⟨hempty, hadded⟩)

/-- A candidate that is not empty was put under its kind. -/
theorem Tells.added_of_mem_candidates (h : corpus.Tells touches)
    (hmem : snippet ∈ corpus.candidates kind) (hne : snippet ≠ "") :
    .added kind snippet ∈ touches := by
  rw [h.candidates_eq] at hmem
  split at hmem
  case isTrue =>
    have hunder := (List.mem_cons.mp hmem).resolve_left hne
    exact (mem_snippetsUnder.mp hunder).2
  case isFalse => cases hmem

/-- The corpus of a source is told by what its spans touch. -/
theorem tells_ofSource {harvest : Harvest} {own : Corpus} (h : ofSource harvest = .ok own) :
    own.Tells (Touch.ofSpans harvest harvest.spans) := by
  obtain ⟨count, hadded⟩ := ofSource_eq_ok h
  have hreached := Reached.empty.addSource harvest
  rw [hadded] at hreached
  exact hreached.tells

/-- In the corpus of a source, each span's text is a candidate of its kind. -/
theorem exists_mem_candidates_of_ofSource {harvest : Harvest} {own : Corpus}
    (h : ofSource harvest = .ok own) {span : Span} (hmem : span ∈ harvest.spans) :
    ∃ text, harvest.textOf span = .ok text ∧ text ∈ own.candidates span.kind := by
  obtain ⟨count, hadded⟩ := ofSource_eq_ok h
  obtain ⟨text, htext, htouched⟩ := exists_added_of_addSpans (congrArg Prod.fst hadded) hmem
  exact ⟨text, htext, ((tells_ofSource h).mem_candidates htouched).2⟩

/-- An addition answers whether its snippet is not empty and not listed yet. -/
theorem Tells.add_iff_not_listed (h : corpus.Tells touches) :
    (corpus.add kind snippet).1 = true ↔ snippet ≠ "" ∧ snippet ∉ corpus.candidates kind := by
  rw [h.add_eq_true_iff, h.candidates_eq]
  split
  case isTrue => simp
  case isFalse hnot =>
    simp [snippetsUnder_eq_nil (mt h.mem_kinds_iff.mpr hnot)]

/-- Adding a source answers by how much the number of snippets grows. -/
theorem Tells.snippetCount_addSource (h : corpus.Tells touches) {harvest : Harvest} {count : Nat}
    {later : Corpus} (hadd : corpus.addSource harvest = (.ok count, later)) :
    later.snippetCount = corpus.snippetCount + count := by
  rw [Corpus.addSource] at hadd
  have hlater : later = corpus.touchAll (Touch.ofSpans harvest harvest.spans) :=
    (congrArg Prod.snd hadd).symm.trans (addSpans_snd ..)
  have hcount : count = 0 + _ := addSpans_fst (congrArg Prod.fst hadd)
  rw [hlater, h.snippetCount_touchAll, hcount, Nat.zero_add]

/-- What a corpus is, what its additions answered and what it counts, read off its history. -/
structure Recounts (corpus : Corpus) (touches : List Touch) : Prop where
  /-- The corpus is made by the touches, one after the other. -/
  made : corpus = empty.touchAll touches
  /-- Each kind that was touched is listed once, the first touched first. -/
  kinds : corpus.kinds = (touches.map Touch.kind).eraseDups
  /-- The candidates are the empty text and the distinct snippets, the first added first. -/
  candidates : ∀ kind, corpus.candidates kind
    = if kind ∈ corpus.kinds then "" :: snippetsUnder kind touches else []
  /-- Both tables have the same kinds. -/
  seen_kinds : corpus.seen.keys = corpus.kinds
  /-- Both tables have the same texts under a kind. -/
  seen : ∀ kind text, text ∈ (corpus.seen.get? kind).getD [] ↔ text ∈ corpus.candidates kind
  /-- Each addition on the way answered whether its snippet was not empty and not yet there. -/
  answered : ∀ before kind snippet after, touches = before ++ .added kind snippet :: after →
    (((empty.touchAll before).add kind snippet).1 = true ↔
      snippet ≠ "" ∧ snippet ∉ (empty.touchAll before).candidates kind)
  /-- So does an addition to the corpus as it is now. -/
  answers : ∀ kind snippet, (corpus.add kind snippet).1 = true ↔
    snippet ≠ "" ∧ snippet ∉ corpus.candidates kind
  /-- Adding a source answers by how much the number of snippets grows. -/
  grows : ∀ harvest count later, corpus.addSource harvest = (.ok count, later) →
    later.snippetCount = corpus.snippetCount + count
  /-- There are as many snippets as additions answered that theirs is new. -/
  counted : corpus.snippetCount = (empty.answers touches).count true

/-- What touches make of the empty corpus, they tell. -/
theorem recounts_touchAll (touches : List Touch) :
    (empty.touchAll touches).Recounts touches where
  made := rfl
  kinds := (tells_touchAll touches).listed_keys
  candidates := (tells_touchAll touches).candidates_eq
  seen_kinds := (tells_touchAll touches).seen_keys.trans (tells_touchAll touches).listed_keys.symm
  seen := (tells_touchAll touches).mem_seen_iff
  answered before _ _ _ _ := (tells_touchAll before).add_iff_not_listed
  answers _ _ := (tells_touchAll touches).add_iff_not_listed
  grows _ _ _ hadd := (tells_touchAll touches).snippetCount_addSource hadd
  counted := (Tells.empty.snippetCount_touchAll touches).trans (Nat.zero_add _)

/-- However a corpus came about, its history tells it. -/
theorem Reached.recounts (h : Reached touches corpus) : corpus.Recounts touches := by
  rw [h.eq_touchAll]
  exact recounts_touchAll touches

/-- The letter `x`, and a second span that ends inside the character after it. -/
def cutAccent : Harvest where
  bytes := [0x78, 0xC3, 0xA9]
  spans := [⟨"name", 0, 1, ⟨0, 0⟩, ⟨0, 1⟩⟩, ⟨"name", 1, 2, ⟨0, 1⟩, ⟨0, 2⟩⟩]
  path := none
  language := "rust"

/-- A table, an addition under another kind, and a source whose addition fails part way. -/
def mixedTouches : List Touch :=
  [.entered "name", .added "name" "y", .added "name" "", .entered "literal", .added "literal" "x",
    .added "name" "x"]

theorem mixed_recounts :
    let corpus := ((ofLedger ⟨[("name", ["y", ""]), ("literal", [])]⟩).add "literal" "x").2
    (corpus.addSource cutAccent).1.isOk = false ∧
      Reached mixedTouches (corpus.addSource cutAccent).2 ∧
      (corpus.addSource cutAccent).2.Recounts mixedTouches := by
  intro corpus
  have hreached : Reached mixedTouches (corpus.addSource cutAccent).2 := by
    have htouches : mixedTouches = ((⟨[("name", ["y", ""]), ("literal", [])]⟩ :
        Ledger String (List String)).entries.flatMap Touch.ofEntry ++ [.added "literal" "x"])
          ++ Touch.ofSpans cutAccent cutAccent.spans := by
      decide +kernel
    rw [htouches]
    exact .addSource cutAccent (.add "literal" "x" (.ofLedger _))
  exact ⟨by decide +kernel, hreached, hreached.recounts⟩

end Corpus

end SourceMutation
