import Mathlib.Data.List.Nodup
import SourceMutation.Proofs.Boundaries
import SourceMutation.Proofs.Corpora

/-!
# Sources whose addition breaks off

The text of a span is read before anything is done to the corpus, and so an addition that fails at a
span has added the spans before it and nothing else.

## Main results

* `Corpus.addSource_breaksOff_iff`: an addition fails exactly if there is a first span without a
  text, and then `Corpus.BreaksOff` says what the failure is and what the corpus is left as;
* `Corpus.Agrees`: the two tables of a corpus are entered together, so that they agree after any
  addition if they did before;
* `Corpus.contains_addSpans`: a kind is met by the addition of spans exactly if one of them has it.

The corpus that is left need not be empty, nor the one that was there before: what is said of its
candidates is said along with the history that it had (`Corpus.Reached`).
-/

namespace SourceMutation

/-- Why a span has no text. -/
inductive Harvest.Textless (harvest : Harvest) (span : Span) : Failure → Prop
  /-- The span does not fit the source. -/
  | unfit : ¬span.Fits harvest.bytes.length → Textless harvest span (harvest.unfit span)
  /-- The span fits, and its bytes are not UTF-8. -/
  | undecodable {fault : Utf8.Fault} : span.Fits harvest.bytes.length →
      Utf8.decode (harvest.covered span) = .error fault → Textless harvest span (.decoding fault)

theorem Harvest.textless_of_textOf {harvest : Harvest} {span : Span} {failure : Failure}
    (h : harvest.textOf span = .error failure) : harvest.Textless span failure := by
  by_cases hfits : span.Fits harvest.bytes.length
  -- A span that fits can only fail for its bytes.
  · rcases except_bind_eq_error.mp h with hcheck | ⟨⟨⟩, -, hdecode⟩
    · rw [check, if_pos hfits] at hcheck
      cases hcheck
    · cases hcovered : Utf8.decode (harvest.covered span) with
      | error fault =>
        rw [hcovered] at hdecode
        cases hdecode
        exact .undecodable hfits hcovered
      | ok text =>
        rw [hcovered] at hdecode
        cases hdecode
  · rw [textOf_of_not_fits hfits] at h
    cases h
    exact .unfit hfits

/-- The source with its first spans only. -/
def Harvest.firstSpans (harvest : Harvest) (count : Nat) : Harvest :=
  { harvest with spans := harvest.spans.take count }

namespace Corpus

variable {corpus after : Corpus} {touches : List Touch} {kind : String} {harvest : Harvest}
  {failure : Failure}

/-! ## Tables that agree -/

/-- Whether the two tables of a corpus have the same kinds, and each text of a kind once. -/
structure Agrees (corpus : Corpus) : Prop where
  kinds : corpus.seen.keys = corpus.listed.keys
  distinct : ∀ kind, (corpus.candidates kind).Nodup
  seen : ∀ kind text, text ∈ (corpus.seen.get? kind).getD [] ↔ text ∈ corpus.candidates kind

namespace Agrees

theorem empty : Corpus.empty.Agrees where
  kinds := rfl
  distinct _ := .nil
  seen _ _ := Iff.rfl

/-- Tables that agree go on to do so if the same texts are entered in both. -/
theorem set (h : corpus.Agrees) (kind : String) {texts marked : List String}
    (hdistinct : texts.Nodup) (hsame : ∀ text, text ∈ marked ↔ text ∈ texts) :
    Agrees ⟨corpus.listed.set kind texts, corpus.seen.set kind marked⟩ where
  kinds := by rw [Ledger.keys_set, Ledger.keys_set, h.kinds]
  distinct other := by
    rw [candidates, Ledger.get?_set]
    split
    case isTrue => exact hdistinct
    case isFalse => exact h.distinct other
  seen other text := by
    rw [candidates, Ledger.get?_set, Ledger.get?_set]
    split
    case isTrue => exact hsame text
    case isFalse => exact h.seen other text

theorem ensureKind (h : corpus.Agrees) (kind : String) : (corpus.ensureKind kind).Agrees := by
  rw [Corpus.ensureKind]
  split
  case isTrue => exact h
  case isFalse => exact h.set kind (List.nodup_singleton "") fun _ => Iff.rfl

theorem add (h : corpus.Agrees) (kind snippet : String) : (corpus.add kind snippet).2.Agrees := by
  have hentered := h.ensureKind kind
  simp only [Corpus.add, List.contains_iff_mem]
  split
  case isTrue => exact hentered
  case isFalse hnew =>
    -- What was not seen is not listed either, so that the list stays without duplicates.
    rw [hentered.seen] at hnew
    have hdistinct := (hentered.distinct kind).concat hnew
    rw [List.concat_eq_append] at hdistinct
    apply hentered.set kind hdistinct
    intro text
    rw [List.mem_cons, hentered.seen, List.mem_append, List.mem_singleton, or_comm]

theorem touchAll (h : corpus.Agrees) (touches : List Touch) : (corpus.touchAll touches).Agrees := by
  induction touches generalizing corpus with
  | nil => exact h
  | cons touched rest ih =>
    cases touched with
    | entered kind => exact ih (h.ensureKind kind)
    | added kind snippet => exact ih (h.add kind snippet)

end Agrees

theorem Reached.agrees (h : Reached touches corpus) : corpus.Agrees := by
  rw [h.eq_touchAll]
  exact Agrees.empty.touchAll touches

/-! ## Kinds that are met -/

theorem contains_set {texts marked : List String} {other : String} :
    Corpus.contains ⟨corpus.listed.set kind texts, corpus.seen.set kind marked⟩ other = true ↔
      corpus.contains other = true ∨ kind = other := by
  rw [contains, contains, Ledger.contains, Ledger.contains, Ledger.get?_set]
  by_cases hkind : other = kind
  · simp [hkind]
  · simp [hkind, Ne.symm hkind]

theorem contains_ensureKind {other : String} :
    (corpus.ensureKind kind).contains other = true ↔
      corpus.contains other = true ∨ kind = other := by
  rw [ensureKind]
  split
  case isTrue hmet =>
    refine ⟨.inl, ?_⟩
    rintro (hother | rfl)
    · exact hother
    · exact hmet
  case isFalse => exact contains_set

theorem contains_add {snippet other : String} :
    (corpus.add kind snippet).2.contains other = true ↔
      corpus.contains other = true ∨ kind = other := by
  simp only [add]
  split
  case isTrue => exact contains_ensureKind
  case isFalse =>
    rw [contains_set, contains_ensureKind, or_assoc, or_self]

/-- The kinds of some spans are met once the spans are added. -/
theorem contains_addSpans {added count : Nat} {spans : List Span}
    (h : addSpans harvest added spans corpus = (.ok count, after)) :
    after.contains kind = true ↔
      corpus.contains kind = true ∨ ∃ span ∈ spans, span.kind = kind := by
  induction spans generalizing added corpus with
  | nil =>
    cases h
    simp
  | cons span rest ih =>
    have hmem : span ∈ span :: rest := List.mem_cons_self
    obtain ⟨text, htext, -⟩ := exists_added_of_addSpans (congrArg Prod.fst h) hmem
    rw [addSpans_cons_of_ok htext] at h
    rw [ih h, contains_add, or_assoc]
    simp

/-! ## Where an addition breaks off -/

/--
Whether the addition of a source breaks off at a place among its spans: there stands the first span
without a text, and what was added is what the spans before it add.
-/
structure BreaksOff (corpus : Corpus) (harvest : Harvest) (failure : Failure) (after : Corpus)
    (place : Nat) (span : Span) : Prop where
  here : harvest.spans[place]? = some span
  /-- The failure is that of reading the text of the span. -/
  fails : harvest.textOf span = .error failure
  textless : harvest.Textless span failure
  first : ∀ earlier ∈ harvest.spans.take place, ∃ text, harvest.textOf earlier = .ok text
  /-- The spans before the place can be added alone, and that leaves the same corpus. -/
  added : ∃ count, corpus.addSource (harvest.firstSpans place) = (.ok count, after)
  /-- The kind of the span is met only if it was before, or is that of a span before it. -/
  contains : ∀ kind, after.contains kind = true ↔
    corpus.contains kind = true ∨ ∃ earlier ∈ harvest.spans.take place, earlier.kind = kind
  agrees : corpus.Agrees → after.Agrees
  /-- The tables of any corpus that comes about agree. -/
  reached : ∀ touches, Reached touches corpus → after.Agrees
  /-- What is left behind: under each kind that was met the empty text, and after it the
  snippets that were put there up to the place, each once, in the order in which they were put
  there first. -/
  candidates : ∀ touches, Reached touches corpus → ∀ kind, after.candidates kind =
    if kind ∈ after.kinds then
      "" :: snippetsUnder kind (touches ++ Touch.ofSpans harvest (harvest.spans.take place))
    else []

/-- Of a source, its additions look at nothing but the texts of the spans that are added. -/
theorem addSpans_congr {other : Harvest} {spans : List Span}
    (htexts : ∀ span ∈ spans, other.textOf span = harvest.textOf span) (added : Nat)
    (corpus : Corpus) :
    addSpans other added spans corpus = addSpans harvest added spans corpus := by
  induction spans generalizing added corpus with
  | nil => rfl
  | cons span rest ih =>
    obtain ⟨hfirst, hrest⟩ := List.forall_mem_cons.mp htexts
    cases htext : harvest.textOf span with
    | error failure => rw [addSpans, addSpans, hfirst, htext]
    | ok text =>
      rw [addSpans_cons_of_ok htext, addSpans_cons_of_ok (hfirst.trans htext)]
      exact ih hrest _ _

theorem addSource_firstSpans (harvest : Harvest) (place : Nat) (corpus : Corpus) :
    corpus.addSource (harvest.firstSpans place)
      = addSpans harvest 0 (harvest.spans.take place) corpus := by
  have htexts : ∀ span ∈ harvest.spans.take place,
      (harvest.firstSpans place).textOf span = harvest.textOf span := fun _ _ => rfl
  exact addSpans_congr htexts 0 corpus

/--
An addition of a source fails exactly if it breaks off at the first span without a text, with the
failure of reading that.
-/
theorem addSource_breaksOff_iff :
    corpus.addSource harvest = (.error failure, after) ↔
      ∃ place span, corpus.BreaksOff harvest failure after place span := by
  constructor
  · intro h
    obtain ⟨before, span, later, count, hspans, hfails, hbefore⟩ := addSpans_eq_error_iff.mp h
    -- The place is the number of spans that were added.
    have htake : harvest.spans.take before.length = before := by rw [hspans, List.take_left]
    have hafter : after = corpus.touchAll (Touch.ofSpans harvest before) :=
      (congrArg Prod.snd hbefore).symm.trans (addSpans_snd ..)
    have hagrees : corpus.Agrees → after.Agrees := fun hcorpus => hafter ▸ hcorpus.touchAll _
    refine ⟨before.length, span, ?_⟩
    exact {
      here := by simp [hspans]
      fails := hfails
      textless := Harvest.textless_of_textOf hfails
      first := by
        rw [htake]
        intro earlier hearlier
        obtain ⟨text, htext, -⟩ :=
          exists_added_of_addSpans (congrArg Prod.fst hbefore) hearlier
        exact ⟨text, htext⟩
      added := by
        refine ⟨count, ?_⟩
        rw [addSource_firstSpans, htake, hbefore]
      contains := by
        intro kind
        rw [htake]
        exact contains_addSpans hbefore
      agrees := hagrees
      reached := fun touches hreached => hagrees hreached.agrees
      candidates := by
        intro touches hreached kind
        have htells := hreached.tells.touchAll (Touch.ofSpans harvest before)
        rw [← hafter] at htells
        rw [htake]
        exact htells.candidates_eq kind }
  · rintro ⟨place, span, hbreaks⟩
    obtain ⟨count, hadded⟩ := hbreaks.added
    rw [addSource_firstSpans] at hadded
    obtain ⟨hplace, hspan⟩ := List.getElem?_eq_some_iff.mp hbreaks.here
    have hspans : harvest.spans
        = harvest.spans.take place ++ span :: harvest.spans.drop (place + 1) := by
      rw [← hspan, ← List.drop_eq_getElem_cons hplace, List.take_append_drop]
    exact addSpans_eq_error_iff.mpr ⟨_, span, _, count, hspans, hbreaks.fails, hadded⟩

/-- A span that ends past the source, between two that fit. -/
def overrun : Harvest where
  bytes := [0x78]
  spans := [⟨"name", 0, 1, ⟨0, 0⟩, ⟨0, 1⟩⟩, ⟨"word", 0, 2, ⟨0, 0⟩, ⟨0, 2⟩⟩,
    ⟨"letter", 0, 1, ⟨0, 0⟩, ⟨0, 1⟩⟩]
  path := none
  language := "rust"

/-- What its addition leaves behind: the kind of the first span only. -/
def beforeOverrun : Corpus where
  listed := ⟨[("name", ["", "x"])]⟩
  seen := ⟨[("name", ["x", ""])]⟩

/-- An addition to the empty corpus breaks off at the second of three spans. -/
theorem overrun_breaksOff :
    empty.addSource overrun = (.error (.spanOwnership "word" 0 2 "<memory>" 1), beforeOverrun) ∧
      ∃ place span,
        empty.BreaksOff overrun (.spanOwnership "word" 0 2 "<memory>" 1) beforeOverrun place span :=
  ⟨rfl, addSource_breaksOff_iff.mp rfl⟩

end Corpus

end SourceMutation
