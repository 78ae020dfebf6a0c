import SourceMutation.Proofs.Tallies

/-!
# Splicing a source with its own texts

What splicing a source with texts of its own can make is told by the texts of its spans
(`Harvest.exchanges`): each span goes with the texts of its kind in the order in which they first
stand in the source, its own text and the empty one left out.  Nothing of the corpus that the pass
builds on the way is left in that.

Asked for all mutants, the pass makes each of these once and in order; asked for some, it makes none
but these (`Splice.ownSplices_of_cuts`).
-/

namespace SourceMutation

/-! ## Texts of a kind -/

namespace Harvest

/-- The texts of those among some spans that have a kind, without the empty ones. -/
def textsAmong (harvest : Harvest) (kind : String) (spans : List Span) : List String :=
  ((spans.filter fun span => span.kind = kind).filterMap fun span =>
    (harvest.textOf span).toOption).filter fun text => text ≠ ""

/-- The distinct texts of a kind in a source, without the empty one, the first met first. -/
def textsOfKind (harvest : Harvest) (kind : String) : List String :=
  (harvest.textsAmong kind harvest.spans).eraseDups

/-- The texts of its kind that a span can be exchanged for: all but its own. -/
def othersOf (harvest : Harvest) (span : Span) : List String :=
  (harvest.textsOfKind span.kind).filter fun text => (harvest.textOf span).toOption ≠ some text

/-- Each span of a source with each text of its kind that it can be exchanged for. -/
def exchanges (harvest : Harvest) : List (Span × String) :=
  harvest.spans.flatMap fun span => (harvest.othersOf span).map fun text => (span, text)

/-- How many texts a span can be exchanged for: as many as its kind has, less its own if that is not
empty. -/
def exchangeCount (harvest : Harvest) (span : Span) : Nat :=
  (harvest.textsOfKind span.kind).length
    - if (harvest.textOf span).toOption.any (· ≠ "") then 1 else 0

variable {harvest : Harvest} {span : Span} {kind own text : String}

theorem mem_textsOfKind :
    text ∈ harvest.textsOfKind kind ↔
      text ≠ "" ∧ ∃ span ∈ harvest.spans, span.kind = kind ∧ harvest.textOf span = .ok text := by
  simp only [textsOfKind, textsAmong, List.mem_eraseDups, List.mem_filter, List.mem_filterMap,
    toOption_textOf_eq_some, decide_eq_true_eq, and_assoc]
  exact and_comm

theorem othersOf_eq (hown : harvest.textOf span = .ok own) :
    harvest.othersOf span = (harvest.textsOfKind span.kind).filter fun text => text != own := by
  apply List.filter_congr
  intro text _
  simp [hown, Except.toOption, bne, Bool.beq_eq_decide_eq, eq_comm]

theorem mem_exchanges :
    (span, text) ∈ harvest.exchanges ↔ span ∈ harvest.spans ∧ text ∈ harvest.othersOf span := by
  simp [exchanges]

/-- A span's own text is one less to exchange it for, unless it is empty. -/
theorem length_othersOf (hspan : span ∈ harvest.spans) (hown : harvest.textOf span = .ok own) :
    (harvest.othersOf span).length = harvest.exchangeCount span := by
  have hnodup : (harvest.textsOfKind span.kind).Nodup := nodup_eraseDups _
  have hlisted : own ∈ harvest.textsOfKind span.kind ↔ own ≠ "" :=
    mem_textsOfKind.trans (and_iff_left ⟨span, hspan, rfl, hown⟩)
  -- Among distinct texts, leaving one out everywhere is leaving it out once.
  rw [othersOf_eq hown, ← hnodup.erase_eq_filter, List.length_erase, exchangeCount, hown]
  by_cases hempty : own = ""
  · rw [if_neg (fun hmem => hlisted.mp hmem hempty)]
    simp [Except.toOption, hempty]
  · rw [if_pos (hlisted.mpr hempty)]
    simp [Except.toOption, hempty]

theorem length_exchanges (htexts : ∀ span ∈ harvest.spans, ∃ own, harvest.textOf span = .ok own) :
    harvest.exchanges.length = (harvest.spans.map harvest.exchangeCount).foldr (· + ·) 0 := by
  have hlengths : (harvest.spans.map fun span =>
      ((harvest.othersOf span).map fun text => (span, text)).length)
        = harvest.spans.map harvest.exchangeCount := by
    apply List.map_congr_left
    intro span hspan
    obtain ⟨own, hown⟩ := htexts span hspan
    rw [List.length_map, length_othersOf hspan hown]
  rw [exchanges, List.length_flatMap, hlengths]
  rfl

end Harvest

/-! ## The corpus of a source -/

/-- What adding spans puts under a kind are the texts of that kind among them. -/
theorem Corpus.filterMap_ofSpans {harvest : Harvest} {kind : String} {spans : List Span}
    (htexts : ∀ span ∈ spans, ∃ own, harvest.textOf span = .ok own) :
    (Touch.ofSpans harvest spans).filterMap (Touch.snippetUnder? kind)
      = harvest.textsAmong kind spans := by
  induction spans with
  | nil => rfl
  | cons span rest ih =>
    obtain ⟨own, hown⟩ := htexts span List.mem_cons_self
    have hrest := ih fun other hmem => htexts other (List.mem_cons_of_mem _ hmem)
    rw [Touch.ofSpans_cons_of_ok hown, List.filterMap_cons, hrest]
    -- The text counts on both sides if the kind is the one that is asked for and it is not empty.
    by_cases hkind : span.kind = kind <;> by_cases hempty : own = "" <;>
      simp [Touch.snippetUnder?, Harvest.textsAmong, hkind, hempty, hown, Except.toOption]

/-- The candidates of a span's kind in the corpus of its source. -/
theorem Corpus.candidates_ofSource {harvest : Harvest} {own : Corpus}
    (htexts : ∀ span ∈ harvest.spans, ∃ own, harvest.textOf span = .ok own)
    (hown : ofSource harvest = .ok own) {span : Span} (hspan : span ∈ harvest.spans) :
    own.candidates span.kind = "" :: harvest.textsOfKind span.kind := by
  obtain ⟨text, -, hlisted⟩ := exists_mem_candidates_of_ofSource hown hspan
  rw [(tells_ofSource hown).candidates_eq] at hlisted ⊢
  split at hlisted
  case isFalse => cases hlisted
  case isTrue hkind =>
    rw [if_pos hkind, snippetsUnder, filterMap_ofSpans htexts]
    rfl

/-! ## Drafts of lists -/

/-- A list of which every item can be made has a complete draft, with a mutant for each item. -/
theorem Draft.exists_ofList {harvest : Harvest} {pairs : List (Span × Replacement)}
    (hmakes : ∀ pair ∈ pairs, ∀ index, ∃ mutant,
      Mutant.make harvest index pair.1 pair.2 = .ok mutant) (index : Nat) :
    ∃ made, ofList harvest index pairs = ⟨made, .complete⟩ ∧ made.length = pairs.length ∧
      ∀ (k : Nat) pair mutant, pairs[k]? = some pair → made[k]? = some mutant →
        Mutant.make harvest (index + k) pair.1 pair.2 = .ok mutant := by
  induction pairs generalizing index with
  | nil => exact ⟨[], rfl, rfl, fun k pair mutant h => by cases h⟩
  | cons pair rest ih =>
    obtain ⟨first, hfirst⟩ := hmakes pair List.mem_cons_self index
    -- The items after the first one are numbered from the next number on.
    obtain ⟨later, hlater, hlength, hmade⟩ :=
      ih (fun other hmem => hmakes other (List.mem_cons_of_mem _ hmem)) (index + 1)
    refine ⟨first :: later, ?_, congrArg (· + 1) hlength, ?_⟩
    · rw [ofList, hfirst, hlater]
      rfl
    · intro k other mutant hother hmutant
      cases k with
      | zero =>
        cases hother
        cases hmutant
        exact hfirst
      | succ k =>
        have hplace : index + (k + 1) = index + 1 + k := by omega
        rw [hplace]
        exact hmade k other mutant hother hmutant

/-- Mutants of one replacement differ in their numbers only. -/
theorem Mutant.make_reindex {harvest : Harvest} {index other : Nat} {span : Span}
    {replacement : Replacement} {first second : Mutant}
    (hfirst : make harvest index span replacement = .ok first)
    (hsecond : make harvest other span replacement = .ok second) :
    first = { second with index := first.index } := by
  obtain ⟨own, hown, hfirst⟩ := except_bind_eq_ok.mp hfirst
  obtain ⟨text, htext, hfirst⟩ := except_bind_eq_ok.mp hfirst
  rw [make, hown] at hsecond
  change (harvest.substitute span replacement.text >>= _) = _ at hsecond
  rw [htext] at hsecond
  cases hfirst
  cases hsecond
  rfl

/-! ## The pass -/

namespace Splice

/-- What splicing a source with its own texts can make: certain mutants, and others of the same
replacements. -/
structure OwnSplices (harvest : Harvest) (made : List Mutant) : Prop where
  /-- Asked for all mutants, the pass makes these, without a choice. -/
  all : ∀ {σ : Type} [Chooser σ] (patience : Nat) (stall : StallLimit) (state : σ),
    fromSelf patience harvest 0 stall state = (⟨made, .complete⟩, state)
  /-- They are what the texts of the source can be exchanged for, in order. -/
  exchanges : (made.map fun mutant => (mutant.span, mutant.replacement)) = harvest.exchanges
  /-- Each is the mutant of its exchange, numbered by its place. -/
  makes : ∀ (k : Nat) mutant, made[k]? = some mutant →
    Mutant.make harvest (k + 1) mutant.span ⟨mutant.replacement, mutant.span.kind⟩ = .ok mutant
  indices : made.map Mutant.index = (List.range made.length).map fun (k : Nat) => (k + 1 : Int)
  length : made.length = (harvest.spans.map harvest.exchangeCount).foldr (· + ·) 0
  /-- Asked for some, the pass makes none but these, under other numbers. -/
  drawn : ∀ {σ : Type} [Chooser σ] (patience count : Nat) (stall : StallLimit) (state : σ),
    1 ≤ count → ∀ mutant ∈ (fromSelf patience harvest count stall state).1.mutants,
      ∃ other ∈ made, mutant = { other with index := mutant.index }

variable {harvest : Harvest} {own : Corpus}

/-- An exchange as a replacement: the text is of the span's kind. -/
def ofExchange (exchange : Span × String) : Span × Replacement :=
  (exchange.1, ⟨exchange.2, exchange.1.kind⟩)

section OwnCorpus

variable (htexts : ∀ span ∈ harvest.spans, ∃ own, harvest.textOf span = .ok own)
  (hown : Corpus.ofSource harvest = .ok own)
include htexts hown

/-- What can replace a span are the texts that it can be exchanged for. -/
theorem eligible_ofSource {span : Span} (hspan : span ∈ harvest.spans) {text : String}
    (htext : harvest.textOf span = .ok text) :
    ((own.candidates span.kind).filter fun candidate => isEligible candidate text)
      = harvest.othersOf span := by
  -- The empty candidate is never put in the place of a span; the other ones are not empty.
  rw [Corpus.candidates_ofSource htexts hown hspan, Harvest.othersOf_eq htext,
    List.filter_cons_of_neg (by simp [isEligible])]
  apply List.filter_congr
  intro candidate hlisted
  have hempty := (Harvest.mem_textsOfKind.mp hlisted).1
  simp [isEligible, hempty]

/-- The pairs of a source and its own corpus are its exchanges. -/
theorem pairs_ofSource :
    pairs harvest own harvest.spans = .ok (harvest.exchanges.map ofExchange) := by
  -- The induction goes over the spans, with the source's own corpus kept.
  have hsome : ∀ spans ⊆ harvest.spans, pairs harvest own spans
      = .ok (spans.flatMap fun span =>
          (harvest.othersOf span).map fun text => ofExchange (span, text)) := by
    intro spans hspans
    induction spans with
    | nil => rfl
    | cons span rest ih =>
      obtain ⟨hspan, hrest⟩ := List.cons_subset.mp hspans
      obtain ⟨text, htext⟩ := htexts span hspan
      rw [pairs, htext, ih hrest]
      dsimp only [bind, Except.bind]
      rw [eligible_ofSource htexts hown hspan htext]
      rfl
  rw [hsome _ (List.Subset.refl _), Harvest.exchanges, List.map_flatMap]
  simp only [List.map_map, Function.comp_def]

end OwnCorpus

/-! ## Mutants of exchanges

All mutants of a source are made in order, and a draw makes some of them under other numbers.  So
replacements are compared, and numbers only where all are made.
-/

/-- Whether mutants are those of the exchanges of a source, one for each in order, numbered from
one. -/
structure MadeOfExchanges (harvest : Harvest) (made : List Mutant) : Prop where
  length : made.length = harvest.exchanges.length
  places : ∀ (k : Nat) exchange mutant, harvest.exchanges[k]? = some exchange →
    made[k]? = some mutant →
      Mutant.make harvest (k + 1) exchange.1 (ofExchange exchange).2 = .ok mutant

namespace MadeOfExchanges

variable {made : List Mutant} {k : Nat} {mutant : Mutant}

theorem exists_exchange (h : MadeOfExchanges harvest made) (hmutant : made[k]? = some mutant) :
    ∃ exchange, harvest.exchanges[k]? = some exchange ∧
      Mutant.make harvest (k + 1) exchange.1 (ofExchange exchange).2 = .ok mutant := by
  obtain ⟨hk, -⟩ := List.getElem?_eq_some_iff.mp hmutant
  have hexchange := List.getElem?_eq_getElem (h.length ▸ hk)
  exact ⟨_, hexchange, h.places k _ mutant hexchange hmutant⟩

theorem exists_mutant (h : MadeOfExchanges harvest made) {exchange : Span × String}
    (hmem : exchange ∈ harvest.exchanges) :
    ∃ k, ∃ mutant ∈ made,
      Mutant.make harvest (k + 1) exchange.1 (ofExchange exchange).2 = .ok mutant := by
  obtain ⟨k, hexchange⟩ := List.mem_iff_getElem?.mp hmem
  obtain ⟨hk, -⟩ := List.getElem?_eq_some_iff.mp hexchange
  have hmutant := List.getElem?_eq_getElem (h.length.symm ▸ hk)
  exact ⟨k, _, List.getElem_mem _, h.places k exchange _ hexchange hmutant⟩

/-- Such mutants name their exchanges. -/
theorem map_names (h : MadeOfExchanges harvest made) :
    (made.map fun mutant => (mutant.span, mutant.replacement)) = harvest.exchanges := by
  apply List.ext_getElem?
  intro k
  rw [List.getElem?_map]
  -- The lists are compared place by place.
  cases hmutant : made[k]? with
  | none =>
    rw [List.getElem?_eq_none_iff, h.length] at hmutant
    rw [List.getElem?_eq_none hmutant]
    rfl
  | some mutant =>
    obtain ⟨exchange, hexchange, hmake⟩ := h.exists_exchange hmutant
    obtain ⟨hspan, hreplacement⟩ := Mutant.names_of_make hmake
    rw [hexchange, Option.map_some, hspan, hreplacement]
    rfl

theorem map_index (h : MadeOfExchanges harvest made) :
    made.map Mutant.index = (List.range made.length).map fun (k : Nat) => (k + 1 : Int) := by
  apply List.ext_getElem (by simp)
  intro k hk _
  have hmutant := List.getElem?_eq_getElem (List.length_map Mutant.index ▸ hk)
  obtain ⟨exchange, -, hmake⟩ := h.exists_exchange hmutant
  rw [List.getElem_map, Mutant.index_of_make hmake]
  simp

theorem make_eq (h : MadeOfExchanges harvest made) (hmutant : made[k]? = some mutant) :
    Mutant.make harvest (k + 1) mutant.span ⟨mutant.replacement, mutant.span.kind⟩
      = .ok mutant := by
  obtain ⟨exchange, -, hmake⟩ := h.exists_exchange hmutant
  obtain ⟨hspan, hreplacement⟩ := Mutant.names_of_make hmake
  rw [hspan, hreplacement]
  exact hmake

/-- A mutant of what is offered for a span is one of them but for its number. -/
theorem exists_of_made (h : MadeOfExchanges harvest made) {mutant : Mutant}
    (htexts : ∀ span ∈ harvest.spans, ∃ own, harvest.textOf span = .ok own)
    (hown : Corpus.ofSource harvest = .ok own)
    (hmade : mutant.Made harvest (Offers harvest own.OfSameKind)) :
    ∃ other ∈ made, mutant = { other with index := mutant.index } := by
  obtain ⟨index, span, ⟨text, kind⟩, hspan, ⟨⟨hkind, hlisted⟩, hchanges⟩, hmake⟩ := hmade
  cases hkind
  obtain ⟨hempty, covered, hcovered, hother⟩ := hchanges
  have hothers : text ∈ harvest.othersOf span := by
    rw [← eligible_ofSource htexts hown hspan hcovered]
    exact List.mem_filter.mpr ⟨hlisted, isEligible_iff.mpr ⟨hempty, hother⟩⟩
  obtain ⟨k, other, hmem, hsame⟩ := h.exists_mutant (Harvest.mem_exchanges.mpr ⟨hspan, hothers⟩)
  exact ⟨other, hmem, Mutant.make_reindex hmake hsame⟩

end MadeOfExchanges

/--
On a source whose spans lie between characters, splicing with its own texts can make exactly its
exchanges: all of them in order if no number is asked for, and none but these otherwise.
-/
theorem ownSplices_of_cuts {text : String} (htext : harvest.text = .ok text)
    (hcuts : ∀ span ∈ harvest.spans, span.Cuts text) : ∃ made, OwnSplices harvest made := by
  have htexts : ∀ span ∈ harvest.spans, ∃ own, harvest.textOf span = .ok own :=
    fun span hspan => Harvest.exists_textOf htext (hcuts span hspan)
  -- A mutant can be made of every pair, since its span cuts the text.
  have hmakes : ∀ pair ∈ harvest.exchanges.map ofExchange, ∀ index, ∃ mutant,
      Mutant.make harvest index pair.1 pair.2 = .ok mutant := by
    intro pair hpair index
    obtain ⟨⟨span, other⟩, hexchange, rfl⟩ := List.mem_map.mp hpair
    exact Harvest.exists_make htext (hcuts span (Harvest.mem_exchanges.mp hexchange).1) index _
  obtain ⟨own, hown⟩ := Corpus.exists_ofSource htexts
  obtain ⟨made, hdraft, hlength, hplaces⟩ := Draft.exists_ofList hmakes 1
  have hmade : MadeOfExchanges harvest made := by
    refine ⟨hlength.trans (List.length_map _), fun k exchange mutant hexchange hmutant => ?_⟩
    rw [Nat.add_comm]
    exact hplaces k _ mutant (List.getElem?_map.trans (congrArg _ hexchange)) hmutant
  refine ⟨made, ?_, hmade.map_names, fun k mutant => hmade.make_eq, hmade.map_index, ?_, ?_⟩
  · intro σ _ patience stall state
    have hcount : checkCount 0 true = .ok 0 := rfl
    simp only [fromSelf, hcount, hown, if_true, pairs_ofSource htexts hown, hdraft]
  · exact hmade.length.trans (Harvest.length_exchanges htexts)
  · intro σ _ patience count stall state _ mutant hmem
    -- A pass that is asked for some mutants draws from the same corpus.
    obtain ⟨index, span, replacement, hspan, ⟨corpus, hcorpus, hoffers⟩, hmake⟩ :=
      made_fromSelf patience count stall state mutant hmem
    obtain rfl : own = corpus := Except.ok.inj (hown.symm.trans hcorpus)
    exact hmade.exists_of_made htexts hown ⟨index, span, replacement, hspan, hoffers, hmake⟩

/-- The names `é`, `x`, `é` and an empty one, with `x é` as a call and `x` as a pattern. -/
def nestedNames : Harvest where
  bytes := [0xC3, 0xA9, 0x20, 0x78, 0x20, 0xC3, 0xA9]
  spans := [⟨"name", 0, 2, ⟨0, 0⟩, ⟨0, 2⟩⟩, ⟨"call", 3, 7, ⟨0, 3⟩, ⟨0, 7⟩⟩,
    ⟨"name", 3, 4, ⟨0, 3⟩, ⟨0, 4⟩⟩, ⟨"pattern", 3, 4, ⟨0, 3⟩, ⟨0, 4⟩⟩,
    ⟨"name", 5, 7, ⟨0, 5⟩, ⟨0, 7⟩⟩, ⟨"name", 7, 7, ⟨0, 7⟩, ⟨0, 7⟩⟩]
  path := none
  language := "rust"

/-- Each name is exchanged for the other one, and the empty name for both. -/
theorem nestedNames_ownSplices :
    nestedNames.text = .ok "é x é" ∧ (∀ span ∈ nestedNames.spans, span.Cuts "é x é") ∧
      (nestedNames.exchanges.map fun exchange => (exchange.1.startByte, exchange.2))
        = [(0, "x"), (3, "é"), (5, "x"), (7, "é"), (7, "x")] ∧
      ∃ made, OwnSplices nestedNames made := by
  have htext : nestedNames.text = .ok "é x é" := by
    have hbytes : nestedNames.bytes = Utf8.encode "é x é" := by decide +kernel
    rw [Harvest.text, hbytes, Utf8.decode_encode]
    rfl
  have hcuts : ∀ span ∈ nestedNames.spans, span.Cuts "é x é" := by
    simp only [nestedNames, List.forall_mem_cons]
    exact ⟨⟨"", "é", " x é", by decide +kernel, by decide +kernel, by decide +kernel⟩,
      ⟨"é ", "x é", "", by decide +kernel, by decide +kernel, by decide +kernel⟩,
      ⟨"é ", "x", " é", by decide +kernel, by decide +kernel, by decide +kernel⟩,
      ⟨"é ", "x", " é", by decide +kernel, by decide +kernel, by decide +kernel⟩,
      ⟨"é x ", "é", "", by decide +kernel, by decide +kernel, by decide +kernel⟩,
      ⟨"é x é", "", "", by decide +kernel, by decide +kernel, by decide +kernel⟩,
      fun _ hnone => absurd hnone List.not_mem_nil⟩
  exact ⟨htext, hcuts, by decide +kernel, ownSplices_of_cuts htext hcuts⟩

end Splice

end SourceMutation
