import SourceMutation.Proofs.Effects

/-!
# What a pass puts in the place of what

Every mutant of a pass is made of a span of the harvest and a replacement that the mode offers for
that span (`Mode.mutants_made`), however the numbers fall and however the pass ends.

A pass is followed by the shape of the strategies: lists of pairs (`Draft.made_ofList`) and the draw
loop (`DrawLoop.made_more`), whose step is one draw (`DrawLoop.made_once`).
-/

namespace SourceMutation

variable {σ α : Type}

/-! ## Chances -/

namespace Chance

/-- What is picked is an item of the list. -/
theorem mem_of_pick [Chooser σ] {items : List α} {state state' : σ} {a : α}
    (h : (pick items : Chance σ α) state = (.ok a, state')) : a ∈ items := by
  cases items with
  | nil => cases h
  | cons item rest =>
    obtain ⟨i, between, -, h⟩ := bind_eq_ok.mp h
    cases h
    exact List.get_mem _ i

end Chance

namespace Sample

variable [Chooser σ]

/-- Taking an item out of a pool leaves items of the pool. -/
private theorem mem_of_mem_rest {pool : List α} {i : Fin pool.length} {a : α}
    (h : a ∈ match pool.getLast? with
      | some last => (pool.set i last).dropLast
      | none => []) : a ∈ pool := by
  cases hlast : pool.getLast? with
  | none =>
    rw [hlast] at h
    cases h
  | some last =>
    rw [hlast] at h
    rcases List.mem_or_eq_of_mem_set (List.dropLast_subset _ h) with hmem | rfl
    · exact hmem
    · exact List.mem_of_getLast? hlast

/-- A sample that is drawn from a pool is of the pool. -/
theorem mem_of_fromPool {k : Nat} {pool drawn : List α} {state state' : σ}
    (h : (fromPool k pool : Chance σ (List α)) state = (.ok drawn, state')) :
    ∀ a ∈ drawn, a ∈ pool := by
  induction k generalizing pool drawn state state' with
  | zero =>
    cases h
    simp
  | succ k ih =>
    obtain ⟨i, first, -, h⟩ := Chance.bind_eq_ok.mp h
    obtain ⟨others, second, hothers, h⟩ := Chance.bind_eq_ok.mp h
    cases h
    intro a ha
    rcases List.mem_cons.mp ha with rfl | ha
    · exact List.get_mem _ i
    · -- The others were drawn from what was left of the pool.
      exact mem_of_mem_rest (ih hothers a ha)

/-- A sample that is drawn by places is of the items. -/
theorem mem_of_fromUnused {patience k : Nat} {items drawn : List α} {used : List Nat}
    {state state' : σ}
    (h : (fromUnused patience items k used : Chance σ (List α)) state = (.ok drawn, state')) :
    ∀ a ∈ drawn, a ∈ items := by
  induction k generalizing used drawn state state' with
  | zero =>
    cases h
    simp
  | succ k ih =>
    obtain ⟨i, first, -, h⟩ := Chance.bind_eq_ok.mp h
    obtain ⟨others, second, hothers, h⟩ := Chance.bind_eq_ok.mp h
    cases h
    intro a ha
    rcases List.mem_cons.mp ha with rfl | ha
    · exact List.get_mem _ i
    · exact ih hothers a ha

/-- A sample of a list consists of items of the list. -/
theorem mem_of_ofList {patience k : Nat} {items drawn : List α} {state state' : σ}
    (h : (ofList patience items k : Chance σ (List α)) state = (.ok drawn, state')) :
    ∀ a ∈ drawn, a ∈ items := by
  rw [ofList] at h
  split at h
  · exact mem_of_fromPool h
  · exact mem_of_fromUnused h

end Sample

/-! ## Mutants and what they are made of -/

/-- Whether a mutant has a span of the harvest replaced by something that is offered for it. -/
def Mutant.Made (harvest : Harvest) (offered : Span → Replacement → Prop) (mutant : Mutant) :
    Prop :=
  ∃ index span replacement, span ∈ harvest.spans ∧ offered span replacement ∧
    Mutant.make harvest index span replacement = .ok mutant

/-- Whether a text differs from a span's own and is not empty. -/
def Harvest.Changes (harvest : Harvest) (span : Span) (text : String) : Prop :=
  text ≠ "" ∧ ∃ own, harvest.textOf span = .ok own ∧ text ≠ own

/-- A candidate is eligible if it is neither empty nor the text of the span. -/
theorem isEligible_iff {candidate own : String} :
    isEligible candidate own = true ↔ candidate ≠ "" ∧ candidate ≠ own := by
  simp [isEligible]

variable {harvest : Harvest} {offered : Span → Replacement → Prop}

/-- What is made of a list of pairs is made of these. -/
theorem Draft.made_ofList {index : Nat} {pairs : List (Span × Replacement)}
    (hpairs : ∀ pair ∈ pairs, pair.1 ∈ harvest.spans ∧ offered pair.1 pair.2) :
    ∀ mutant ∈ (Draft.ofList harvest index pairs).mutants, mutant.Made harvest offered := by
  induction pairs generalizing index with
  | nil => simp [Draft.ofList, Draft.nothing]
  | cons pair rest ih =>
    obtain ⟨span, replacement⟩ := pair
    obtain ⟨hspan, hoffered⟩ := hpairs _ List.mem_cons_self
    rw [Draft.ofList]
    -- The first mutant that cannot be made ends the draft.
    split
    case h_1 made hmade =>
      intro mutant hmem
      rcases List.mem_cons.mp hmem with rfl | hmem
      · exact ⟨index, span, replacement, hspan, hoffered, hmade⟩
      · exact ih (fun pair h => hpairs pair (List.mem_cons_of_mem _ h)) mutant hmem
    case h_2 => simp [Draft.failed]

/-! ## The draw loop -/

namespace DrawLoop

variable [Chooser σ] {draw : Draw σ} {candidate : Span → Replacement → Prop}

/-- Whether all that a draw yields are candidates for the span. -/
def Yields (draw : Draw σ) (candidate : Span → Replacement → Prop) : Prop :=
  ∀ span state replacement state', draw span state = (.ok (some replacement), state') →
    candidate span replacement

/-- An accepted draw replaces a span by a candidate that changes the source. -/
theorem made_once (hdraw : Yields draw candidate) {index : Nat} {state state' : σ}
    {mutant : Mutant} (h : once harvest draw index state = (.ok (some mutant), state')) :
    mutant.Made harvest fun span replacement =>
      candidate span replacement ∧ harvest.Changes span replacement.text := by
  obtain ⟨span, first, hspan, h⟩ := Chance.bind_eq_ok.mp h
  obtain ⟨drawn, second, hdrawn, h⟩ := Chance.bind_eq_ok.mp h
  cases drawn with
  | none => cases h
  -- The candidate was drawn for the span; whether it is accepted depends on the span's own text.
  | some replacement =>
    obtain ⟨own, third, hown, h⟩ := Chance.bind_eq_ok.mp h
    split at h
    case isFalse => cases h
    case isTrue heligible =>
      obtain ⟨made, fourth, hmade, h⟩ := Chance.bind_eq_ok.mp h
      cases h
      obtain ⟨hempty, hother⟩ := isEligible_iff.mp heligible
      exact ⟨index, span, replacement, Chance.mem_of_pick hspan,
        ⟨hdraw _ _ _ _ hdrawn, hempty, own, Chance.ofExcept_eq_ok hown, hother⟩,
        Chance.ofExcept_eq_ok hmade⟩

/-- Every mutant of the loop was made in one of its draws. -/
theorem made_more (hdraw : Yields draw candidate) (stall : StallLimit)
    (fuel missing made attempts : Nat) (state : σ) :
    ∀ mutant ∈ (more harvest draw stall fuel missing made attempts state).1.mutants,
      mutant.Made harvest fun span replacement =>
        candidate span replacement ∧ harvest.Changes span replacement.text := by
  -- The induction follows the draws: each spends one, whether it is accepted or not.
  induction fuel generalizing missing made attempts state with
  | zero =>
    cases missing with
    | zero => simp [more, Draft.nothing]
    | succ missing => simp [more]
  | succ fuel ih =>
    cases missing with
    | zero => simp [more, Draft.nothing]
    | succ missing =>
      rw [more]
      split
      case isTrue => simp
      case isFalse =>
        dsimp only
        split
        -- A draw that is not accepted, one that is, and one that ends the pass.
        case h_1 between _ => exact ih (missing + 1) made (attempts + 1) between
        case h_2 mutant between honce =>
          intro other hmem
          rcases List.mem_cons.mp hmem with rfl | hmem
          · exact made_once hdraw honce
          · exact ih missing (made + 1) (attempts + 1) between other hmem
        case h_3 => simp

/-- Every mutant of a pass of draws was made in one of its draws. -/
theorem made_mutants (hdraw : Yields draw candidate) (patience : Nat) (count : Int)
    (stall : StallLimit) (state : σ) :
    ∀ mutant ∈ (mutants patience harvest count draw stall state).1.mutants,
      mutant.Made harvest fun span replacement =>
        candidate span replacement ∧ harvest.Changes span replacement.text := by
  rw [mutants]
  split
  · simp [Draft.nothing]
  · exact made_more hdraw stall patience _ 0 0 state

end DrawLoop

/-! ## Candidates from a corpus -/

namespace Corpus

/-- Whether a replacement is a candidate of the span's own kind. -/
def OfSameKind (corpus : Corpus) (span : Span) (replacement : Replacement) : Prop :=
  replacement.kind = span.kind ∧ replacement.text ∈ corpus.candidates span.kind

/-- Whether a replacement is a candidate of the kind that it names. -/
def OfAnyKind (corpus : Corpus) (_ : Span) (replacement : Replacement) : Prop :=
  replacement.text ∈ corpus.candidates replacement.kind

end Corpus

namespace Splice

/-- What splicing puts in the place of a span: a candidate that changes the source. -/
def Offers (harvest : Harvest) (candidate : Span → Replacement → Prop) (span : Span)
    (replacement : Replacement) : Prop :=
  candidate span replacement ∧ harvest.Changes span replacement.text

/-- The pairs that are listed are spans with candidates of their kind that are eligible there. -/
theorem pairs_offered {corpus : Corpus} {spans : List Span} {found : List (Span × Replacement)}
    (h : pairs harvest corpus spans = .ok found) :
    ∀ pair ∈ found, pair.1 ∈ spans ∧ Offers harvest corpus.OfSameKind pair.1 pair.2 := by
  induction spans generalizing found with
  | nil =>
    cases h
    simp
  | cons span rest ih =>
    obtain ⟨own, hown, h⟩ := except_bind_eq_ok.mp h
    obtain ⟨later, hlater, h⟩ := except_bind_eq_ok.mp h
    cases h
    intro pair hmem
    -- Pairs of the first span, and pairs of the others.
    rcases List.mem_append.mp hmem with hmem | hmem
    · obtain ⟨candidate, hcandidate, rfl⟩ := List.mem_map.mp hmem
      obtain ⟨hlisted, heligible⟩ := List.mem_filter.mp hcandidate
      obtain ⟨hempty, hother⟩ := isEligible_iff.mp heligible
      exact ⟨List.mem_cons_self, ⟨rfl, hlisted⟩, hempty, own, hown, hother⟩
    · obtain ⟨hspan, hoffers⟩ := ih hlater pair hmem
      exact ⟨List.mem_cons_of_mem _ hspan, hoffers⟩

variable [Chooser σ]

/-- A draw of the own kind yields a candidate of the span's kind. -/
theorem yields_drawOwnKind (corpus : Corpus) :
    DrawLoop.Yields (drawOwnKind (σ := σ) corpus) corpus.OfSameKind := by
  intro span state replacement state' h
  obtain ⟨text, between, htext, h⟩ := Chance.bind_eq_ok.mp h
  cases h
  exact ⟨rfl, Chance.mem_of_pick htext⟩

/-- A draw of the same kind yields a candidate of the span's kind. -/
theorem yields_drawSameKind (corpus : Corpus) :
    DrawLoop.Yields (drawSameKind (σ := σ) corpus) corpus.OfSameKind := by
  intro span state replacement state' h
  rw [drawSameKind] at h
  cases hlisted : corpus.candidates span.kind with
  | nil =>
    rw [hlisted] at h
    cases h
  | cons first others =>
    rw [hlisted] at h
    obtain ⟨text, between, htext, h⟩ := Chance.bind_eq_ok.mp h
    cases h
    exact ⟨rfl, hlisted ▸ Chance.mem_of_pick htext⟩

/-- A draw of any kind yields a candidate of the kind that it drew first. -/
theorem yields_drawAnyKind (corpus : Corpus) :
    DrawLoop.Yields (drawAnyKind (σ := σ) corpus) corpus.OfAnyKind := by
  intro span state replacement state' h
  obtain ⟨kind, between, -, h⟩ := Chance.bind_eq_ok.mp h
  cases hlisted : corpus.candidates kind with
  | nil =>
    rw [hlisted] at h
    cases h
  | cons first others =>
    rw [hlisted] at h
    obtain ⟨text, between, htext, h⟩ := Chance.bind_eq_ok.mp h
    cases h
    have hmem := Chance.mem_of_pick htext
    rwa [← hlisted] at hmem

/-- A pass that looks before it draws makes mutants with the candidates of its draw. -/
theorem made_drawn {draw : Draw σ} {candidate : Span → Replacement → Prop}
    (hdraw : DrawLoop.Yields draw candidate) (patience count : Nat) (stall : StallLimit)
    (possible : Except Failure Bool) (state : σ) :
    ∀ mutant ∈ (drawn patience harvest count stall draw possible state).1.mutants,
      mutant.Made harvest (Offers harvest candidate) := by
  simp only [drawn]
  split
  · simp [Draft.failed]
  · simp [Draft.nothing]
  · exact DrawLoop.made_mutants hdraw patience count stall state

/-- Splices with a source's own texts are made with candidates of the source's own corpus. -/
theorem made_fromSelf (patience : Nat) (count : Int) (stall : StallLimit) (state : σ) :
    ∀ mutant ∈ (fromSelf patience harvest count stall state).1.mutants,
      mutant.Made harvest fun span replacement =>
        ∃ own, Corpus.ofSource harvest = .ok own ∧
          Offers harvest own.OfSameKind span replacement := by
  simp only [fromSelf]
  split
  · simp [Draft.failed]
  · split
    · simp [Draft.failed]
    case h_2 own hown =>
      split
      -- Asked for all mutants, the pass lists the pairs; asked for some, it draws them.
      · split
        · simp [Draft.failed]
        case h_2 found hfound =>
          exact Draft.made_ofList fun pair hpair =>
            ⟨(pairs_offered hfound pair hpair).1, own, hown, (pairs_offered hfound pair hpair).2⟩
      · intro mutant hmem
        obtain ⟨index, span, replacement, hspan, hoffers, hmade⟩ :=
          made_drawn (yields_drawOwnKind own) patience _ stall _ state mutant hmem
        exact ⟨index, span, replacement, hspan, ⟨own, hown, hoffers⟩, hmade⟩

end Splice

/-! ## Passes by mode -/

/-- Deletions put nothing in the place of spans that are not empty. -/
theorem Deletion.made_mutants [Chooser σ] (patience : Nat) (count : Int) (state : σ) :
    ∀ mutant ∈ (Deletion.mutants patience harvest count state).1.mutants,
      mutant.Made harvest fun span replacement =>
        0 < span.length ∧ replacement = Deletion.replacement := by
  -- All spans are deleted, or those of a sample; either way they are listed and not empty.
  have heach : ∀ chosen : List Span, (∀ span ∈ chosen, span ∈ Deletion.spans harvest) →
      ∀ mutant ∈ (Deletion.each harvest chosen).mutants,
        mutant.Made harvest fun span replacement =>
          0 < span.length ∧ replacement = Deletion.replacement := by
    intro chosen hchosen
    refine Draft.made_ofList fun pair hpair => ?_
    obtain ⟨span, hspan, rfl⟩ := List.mem_map.mp hpair
    obtain ⟨hlisted, hlength⟩ := List.mem_filter.mp (hchosen span hspan)
    exact ⟨hlisted, of_decide_eq_true hlength, rfl⟩
  simp only [Deletion.mutants]
  split
  · simp [Draft.failed]
  · exact heach _ fun span hspan => hspan
  · dsimp only [Pass.ofChance]
    split
    case h_1 chosen between hchosen => exact heach chosen (Sample.mem_of_ofList hchosen)
    case h_2 => simp

/-- What a mode may put in the place of a span of a harvest. -/
def Mode.Offers (mode : Mode) (harvest : Harvest) (corpus : Option Corpus) (span : Span)
    (replacement : Replacement) : Prop :=
  match mode, corpus with
  | .deleteOnly, _ => 0 < span.length ∧ replacement = Deletion.replacement
  | .selfSplice, _ =>
    ∃ own, Corpus.ofSource harvest = .ok own ∧
      Splice.Offers harvest own.OfSameKind span replacement
  | .splice, some corpus => Splice.Offers harvest corpus.OfSameKind span replacement
  | .spliceRandomKind, some corpus => Splice.Offers harvest corpus.OfAnyKind span replacement
  | _, none => False

/-- Every mutant of a pass replaces a span of the harvest by something that its mode offers. -/
theorem Mode.mutants_made [Chooser σ] (mode : Mode) (patience : Nat) (count : Int)
    (corpus : Option Corpus) (stall : StallLimit) (state : σ) :
    ∀ mutant ∈ (mode.mutants patience harvest count corpus stall state).1.mutants,
      mutant.Made harvest (mode.Offers harvest corpus) := by
  -- Each mode has its own strategy, and what that draws from is what the mode offers.
  cases mode with
  | deleteOnly => exact Deletion.made_mutants patience count state
  | selfSplice => exact Splice.made_fromSelf patience count stall state
  | splice =>
    cases corpus with
    | none => simp [Mode.mutants, Draft.failed]
    | some corpus =>
      simp only [Mode.mutants, Splice.fromCorpus]
      split
      · simp [Draft.failed]
      · exact Splice.made_drawn (Splice.yields_drawSameKind corpus) patience _ stall _ state
  | spliceRandomKind =>
    cases corpus with
    | none => simp [Mode.mutants, Draft.failed]
    | some corpus =>
      simp only [Mode.mutants, Splice.fromAnyKind]
      split
      · simp [Draft.failed]
      · exact Splice.made_drawn (Splice.yields_drawAnyKind corpus) patience _ stall _ state

end SourceMutation
