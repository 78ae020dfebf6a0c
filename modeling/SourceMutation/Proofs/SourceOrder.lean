import Mathlib.Algebra.Ring.Nat
import SourceMutation.Proofs.Eligibility
import SourceMutation.Proofs.RebuiltCorpora
import SourceMutation.Proofs.SharedCorpora

/-!
# The order of the sources of a corpus

What a corpus holds follows from which touches its history has, and not from their order or from how
often each is there; only the order of what is listed does.  So corpora of the same sources hold the
same, in whatever order and however often the sources are added, and as many snippets are answered
to be new in total (`Corpus.addSources_sameContents`).
-/

namespace SourceMutation

theorem Harvest.AddedIn.readable {harvest : Harvest} {touches : List Corpus.Touch}
    (h : harvest.AddedIn touches) : harvest.Readable := by
  intro span hspan
  obtain ⟨text, htext, -⟩ := h span hspan
  exact ⟨text, htext⟩

namespace Corpus

variable {corpus first second : Corpus} {touches others : List Touch} {kind snippet : String}
  {harvest : Harvest}

/-! ## What a corpus holds -/

/-- Whether two corpora hold the same, up to the order in which they list it. -/
structure SameContents (first second : Corpus) : Prop where
  kinds : first.kinds.Perm second.kinds
  candidates : ∀ kind, (first.candidates kind).Perm (second.candidates kind)
  snippetCount : first.snippetCount = second.snippetCount
  summary : first.summary = second.summary

namespace Tells

theorem snippetCount_eq (h : corpus.Tells touches) :
    corpus.snippetCount
      = (corpus.kinds.map fun kind => (corpus.candidates kind).length - 1).sum := by
  rw [snippetCount, Ledger.values_eq_map h.nodup_kinds [], List.map_map, List.sum]
  rfl

section SameTouches

variable (h : first.Tells touches) (h' : second.Tells others)
  (hsame : ∀ touched, touched ∈ touches ↔ touched ∈ others)

include h h' hsame

theorem kinds_perm : first.kinds.Perm second.kinds := by
  apply (List.perm_ext_iff_of_nodup h.nodup_kinds h'.nodup_kinds).mpr
  intro kind
  rw [h.mem_kinds_iff, h'.mem_kinds_iff, List.mem_map, List.mem_map]
  simp only [hsame]

theorem candidates_perm (kind : String) :
    (first.candidates kind).Perm (second.candidates kind) := by
  have hsnippets : (snippetsUnder kind touches).Perm (snippetsUnder kind others) := by
    apply (List.perm_ext_iff_of_nodup (nodup_eraseDups _) (nodup_eraseDups _)).mpr
    intro snippet
    change snippet ∈ snippetsUnder kind touches ↔ snippet ∈ snippetsUnder kind others
    rw [mem_snippetsUnder, mem_snippetsUnder, hsame]
  rw [h.candidates_eq, h'.candidates_eq]
  simp only [(kinds_perm h h' hsame).mem_iff]
  split
  case isTrue => exact hsnippets.cons ""
  case isFalse => exact .nil

/-- Histories with the same touches make corpora that hold the same. -/
theorem sameContents : first.SameContents second := by
  have hkinds := kinds_perm h h' hsame
  have hcandidates := candidates_perm h h' hsame
  have hcount : first.snippetCount = second.snippetCount := by
    rw [h.snippetCount_eq, h'.snippetCount_eq]
    simp only [(hcandidates _).length_eq]
    exact (hkinds.map _).sum_nat
  refine ⟨hkinds, hcandidates, hcount, ?_⟩
  unfold summary size
  rw [hkinds.length_eq, hcount]

end SameTouches

end Tells

/-! ## Adding several sources -/

/--
Adds some sources, one after the other, and answers how many snippets were new in each.  A source
that cannot be added ends the addition.
-/
def addSources (corpus : Corpus) : List Harvest → Except Failure (List Nat) × Corpus
  | [] => (.ok [], corpus)
  | harvest :: rest =>
    match corpus.addSource harvest with
    | (.error failure, corpus) => (.error failure, corpus)
    | (.ok count, corpus) =>
      let (result, corpus) := corpus.addSources rest
      (result.map (count :: ·), corpus)

/-- What adding some sources touches. -/
def Touch.ofSources (sources : List Harvest) : List Touch :=
  sources.flatMap fun harvest => ofSpans harvest harvest.spans

/-- Sources whose spans have texts are all added, and the answers are what the corpus grows by. -/
theorem Tells.addSources (h : corpus.Tells touches) {sources : List Harvest}
    (hreadable : ∀ harvest ∈ sources, harvest.Readable) :
    ∃ counts later, corpus.addSources sources = (.ok counts, later) ∧
      later.Tells (touches ++ Touch.ofSources sources) ∧
      later.snippetCount = corpus.snippetCount + counts.sum := by
  induction sources generalizing corpus touches with
  | nil => exact ⟨[], corpus, rfl, by rwa [Touch.ofSources, List.flatMap_nil, List.append_nil], rfl⟩
  | cons harvest rest ih =>
    obtain ⟨hfirst, hrest⟩ := List.forall_mem_cons.mp hreadable
    obtain ⟨count, hcount⟩ := exists_addSpans hfirst 0 corpus
    -- All spans of the source can be read, so all are added.
    have hadd : corpus.addSource harvest
        = (.ok count, corpus.touchAll (Touch.ofSpans harvest harvest.spans)) :=
      Prod.ext hcount (addSpans_snd ..)
    have htouched := h.touchAll (Touch.ofSpans harvest harvest.spans)
    obtain ⟨counts, later, hadds, htells, hgrows⟩ := ih htouched hrest
    refine ⟨count :: counts, later, ?_, ?_, ?_⟩
    · rw [Corpus.addSources, hadd]
      simp only [hadds]
      rfl
    · rwa [List.append_assoc] at htells
    · rw [hgrows, h.snippetCount_addSource hadd, List.sum_cons, Nat.add_assoc]

/-! ## Adding a source again -/

/-- A source that was added without a failure is in its own history. -/
theorem addedIn_of_addSource {count : Nat} (h : (corpus.addSource harvest).1 = .ok count) :
    harvest.AddedIn (Touch.ofSpans harvest harvest.spans) :=
  fun _ hspan => exists_added_of_addSpans h hspan

/-- A snippet that was added before is not new, and adding it changes nothing. -/
theorem Tells.add_of_added (h : corpus.Tells touches) (hadded : .added kind snippet ∈ touches) :
    corpus.add kind snippet = (false, corpus) := by
  obtain ⟨hcontains, hcandidate⟩ := h.mem_candidates hadded
  have hseen : ((corpus.seen.get? kind).getD []).contains snippet = true :=
    List.contains_iff_mem.mpr ((h.mem_seen_iff kind snippet).mpr hcandidate)
  rw [Corpus.add, Corpus.ensureKind, if_pos hcontains]
  exact if_pos hseen

theorem Tells.addSpans_of_added (h : corpus.Tells touches) {spans : List Span}
    (hadded : ∀ span ∈ spans, ∃ text, harvest.textOf span = .ok text ∧
      .added span.kind text ∈ touches) (count : Nat) :
    addSpans harvest count spans corpus = (.ok count, corpus) := by
  induction spans with
  | nil => rfl
  | cons span rest ih =>
    obtain ⟨⟨text, htext, htouched⟩, hrest⟩ := List.forall_mem_cons.mp hadded
    rw [addSpans_cons_of_ok htext, h.add_of_added htouched]
    exact ih hrest

/--
Sources that can all be read make corpora that hold the same, in whatever order and however often
they are added, and each corpus has as many snippets as the additions answered.  A source whose
spans were all added before adds nothing, and leaves everything in its place.
-/
theorem addSources_sameContents {sources others : List Harvest}
    (hreadable : ∀ harvest ∈ sources, harvest.Readable)
    (hsame : ∀ harvest, harvest ∈ sources ↔ harvest ∈ others) :
    (∃ counts counts' first second, empty.addSources sources = (.ok counts, first) ∧
      empty.addSources others = (.ok counts', second) ∧ first.SameContents second ∧
      counts.sum = first.snippetCount ∧ counts'.sum = first.snippetCount) ∧
    ∀ touches corpus harvest, Reached touches corpus → harvest.AddedIn touches →
      corpus.addSource harvest = (.ok 0, corpus) := by
  constructor
  · have hreadable' : ∀ harvest ∈ others, harvest.Readable := fun harvest hmem =>
      hreadable harvest ((hsame harvest).mpr hmem)
    obtain ⟨counts, first, hadds, hfirst, hgrows⟩ := Tells.empty.addSources hreadable
    obtain ⟨counts', second, hadds', hsecond, hgrows'⟩ := Tells.empty.addSources hreadable'
    -- The same sources touch the same, only in another order.
    have htouches : ∀ touched,
        touched ∈ [] ++ Touch.ofSources sources ↔ touched ∈ [] ++ Touch.ofSources others := by
      intro touched
      simp only [List.nil_append, Touch.ofSources, List.mem_flatMap, hsame]
    have hcontents : first.SameContents second := hfirst.sameContents hsecond htouches
    have hnone : empty.snippetCount = 0 := rfl
    rw [hnone, Nat.zero_add] at hgrows hgrows'
    exact ⟨counts, counts', first, second, hadds, hadds', hcontents, hgrows.symm,
      hgrows'.symm.trans hcontents.snippetCount.symm⟩
  · intro touches corpus harvest hreached hadded
    exact hreached.tells.addSpans_of_added hadded 0

/-- The names `x` and `y`. -/
def namesXY : Harvest where
  bytes := [0x78, 0x20, 0x79]
  spans := [⟨"name", 0, 1, ⟨0, 0⟩, ⟨0, 1⟩⟩, ⟨"name", 2, 3, ⟨0, 2⟩, ⟨0, 3⟩⟩]
  path := none
  language := "rust"

/-- The names `y` and `z`, and the word `x`. -/
def namesYZ : Harvest where
  bytes := [0x79, 0x20, 0x7A, 0x20, 0x78]
  spans := [⟨"name", 0, 1, ⟨0, 0⟩, ⟨0, 1⟩⟩, ⟨"name", 2, 3, ⟨0, 2⟩, ⟨0, 3⟩⟩,
    ⟨"word", 4, 5, ⟨0, 4⟩, ⟨0, 5⟩⟩]
  path := none
  language := "rust"

/-- In another order the additions answer differently, and in total the same. -/
theorem namesXY_namesYZ_sameContents :
    (empty.addSources [namesXY, namesYZ, namesXY]).1 = .ok [2, 2, 0] ∧
      (empty.addSources [namesYZ, namesXY]).1 = .ok [3, 1] ∧
      (empty.addSources [namesXY, namesYZ, namesXY]).2.SameContents
        (empty.addSources [namesYZ, namesXY]).2 ∧
      let corpus := (empty.addSource namesXY).2
      corpus.addSource namesXY = (.ok 0, corpus) := by
  have haddedXY : namesXY.AddedIn (Touch.ofSpans namesXY namesXY.spans) :=
    addedIn_of_addSource (show (empty.addSource namesXY).1 = .ok 2 from rfl)
  have haddedYZ : namesYZ.AddedIn (Touch.ofSpans namesYZ namesYZ.spans) :=
    addedIn_of_addSource (show (empty.addSource namesYZ).1 = .ok 3 from rfl)
  have hreadable : ∀ harvest ∈ [namesXY, namesYZ, namesXY], harvest.Readable := by
    simp only [List.forall_mem_cons]
    exact ⟨haddedXY.readable, haddedYZ.readable, haddedXY.readable, nofun⟩
  -- The lists differ in order, and in that one source comes twice.
  have hsame : ∀ harvest,
      harvest ∈ [namesXY, namesYZ, namesXY] ↔ harvest ∈ [namesYZ, namesXY] := by
    intro harvest
    simp only [List.mem_cons, List.not_mem_nil, or_false]
    tauto
  obtain ⟨⟨counts, counts', first, second, hadds, hadds', hcontents, -⟩, hagain⟩ :=
    addSources_sameContents hreadable hsame
  refine ⟨rfl, rfl, ?_, hagain _ _ namesXY (Reached.empty.addSource namesXY) haddedXY⟩
  rw [hadds, hadds']
  exact hcontents

end Corpus

end SourceMutation
