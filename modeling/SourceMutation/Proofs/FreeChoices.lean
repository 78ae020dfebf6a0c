import SourceMutation.Proofs.Corpora
import SourceMutation.Proofs.Scripts

/-!
# What free choices can make of a source

If every choice may fall on any item of its list, then drawing from a corpus can make exactly the
replacements that are offered, and no pass gets into a state that it cannot leave: unless it has
given up, some choices bring it to the number of mutants asked for (`Splice.Free`).

Two things carry this.

- The look at the candidates before the first draw answers whether anything is offered
  (`Splice.hasSameKindCandidate_eq`, `Splice.hasAnyKindCandidate_eq`).
- Each replacement that is offered is accepted from every state of the loop
  (`Splice.Sampled.accepted`): the draw of a candidate can fall on it (`Splice.Reaching`), and it is
  eligible there.

Free choices are modelled by scripts of picks.  A state of a pass is where it stands after a script
that has run out (`Pass.Stands`), and going on is a longer script.
-/

namespace SourceMutation

/-! ## Calls and where they stand -/

/-- Whether a call can return a list of mutants, for some choices. -/
def Pass.CanReturn (pass : Nat → Pass Script) (mutants : List Mutant) : Prop :=
  ∃ patience script, (pass patience script).1.result = .ok mutants

/--
Whether a call stands at the head of its loop: with so many draws it takes the picks, makes the
mutants and would draw again, whatever picks come next.
-/
def Pass.Stands (pass : Nat → Pass Script) (draws : Nat) (picks : List Nat)
    (made : List Mutant) : Prop :=
  ∀ later, pass draws ⟨picks ++ later⟩ = (⟨made, .stopped .unfinished⟩, ⟨later⟩)

/-- Whether the next look at the limit ends a call that has made some mutants in so many draws. -/
def StallLimit.GivesUp (stall : StallLimit) (draws : Nat) (made : List Mutant) : Prop :=
  made = [] ∧ stall.exceededBy (draws + 1) = true

namespace Splice

/-- What a call that draws `count` mutants can do if every choice is free. -/
structure Free (harvest : Harvest) (count : Nat) (stall : StallLimit)
    (offered : Span → String → Prop) (pass : Nat → Pass Script) : Prop where
  /-- Only spans of the source are replaced. -/
  within : ∀ mutants, Pass.CanReturn pass mutants →
    ∀ mutant ∈ mutants, mutant.span ∈ harvest.spans
  /-- The replacements of a span that can be returned are those that are offered for it. -/
  occurs : ∀ (i : Fin harvest.spans.length) (text : String),
    (∃ mutants, Pass.CanReturn pass mutants ∧
        ∃ mutant ∈ mutants, mutant.span = harvest.spans.get i ∧ mutant.replacement = text) ↔
      offered (harvest.spans.get i) text
  /-- A call that stands in its loop and does not give up can be brought to its end. -/
  goesOn : ∀ draws picks made, Pass.Stands pass draws picks made →
    made.length < count ∧ (¬stall.GivesUp draws made →
      ∃ patience more later,
        pass patience ⟨picks ++ more⟩ = (⟨made ++ later, .complete⟩, ⟨[]⟩) ∧
          (made ++ later).length = count)
  /-- A call that gives up does so at once, without another choice. -/
  givesUp : ∀ draws picks made, Pass.Stands pass draws picks made → stall.GivesUp draws made →
    ∀ patience later, pass (draws + (patience + 1)) ⟨picks ++ later⟩ = (⟨[], .gaveUp⟩, ⟨later⟩)

variable {harvest : Harvest} {corpus : Corpus} {count : Nat} {stall : StallLimit}

/-! ## What the look before the first draw answers

A splice looks whether a draw could be accepted before it draws anything, and stops looking at the
first text it finds.  What it answers is compared with all that is offered, span by span.
-/

/-- The look stops at the first span for which there is a candidate. -/
theorem hasSameKindCandidate_cons {span : Span} {own : String}
    (hown : harvest.textOf span = .ok own) (rest : List Span) :
    hasSameKindCandidate harvest corpus (span :: rest)
      = if (corpus.candidates span.kind).any fun candidate => isEligible candidate own then .ok true
        else hasSameKindCandidate harvest corpus rest := by
  rw [hasSameKindCandidate, hown]
  rfl

/-- The look by kind finds something if something is offered for some span. -/
theorem hasSameKindCandidate_eq (corpus : Corpus) {spans : List Span}
    (htexts : ∀ span ∈ spans, ∃ own, harvest.textOf span = .ok own) :
    ∃ found, hasSameKindCandidate harvest corpus spans = .ok found ∧
      (found = true ↔ ∃ span ∈ spans, ∃ replacement,
        Offers harvest corpus.OfSameKind span replacement) := by
  induction spans with
  | nil => exact ⟨false, rfl, by simp⟩
  | cons span rest ih =>
    obtain ⟨own, hown⟩ := htexts span List.mem_cons_self
    obtain ⟨found, hfound, hiff⟩ := ih fun other hmem => htexts other (List.mem_cons_of_mem _ hmem)
    -- The first span counts if one of its kind's candidates can replace its text.
    have hhere : ((corpus.candidates span.kind).any fun candidate => isEligible candidate own) = true
        ↔ ∃ replacement, Offers harvest corpus.OfSameKind span replacement := by
      rw [List.any_eq_true]
      constructor
      · rintro ⟨text, hlisted, heligible⟩
        obtain ⟨hempty, hother⟩ := isEligible_iff.mp heligible
        exact ⟨⟨text, span.kind⟩, ⟨rfl, hlisted⟩, hempty, own, hown, hother⟩
      · rintro ⟨replacement, ⟨-, hlisted⟩, hempty, own', hown', hother⟩
        rw [hown] at hown'
        cases hown'
        exact ⟨replacement.text, hlisted, isEligible_iff.mpr ⟨hempty, hother⟩⟩
    rw [hasSameKindCandidate_cons hown]
    split
    case isTrue hany =>
      exact ⟨true, rfl, fun _ => ⟨span, List.mem_cons_self, hhere.mp hany⟩, fun _ => rfl⟩
    case isFalse hnone =>
      refine ⟨found, hfound, hiff.trans ?_⟩
      simp only [List.mem_cons, exists_eq_or_imp, ← hhere, hnone, Bool.false_eq_true, false_or]

/-- The look stops at the first span with another text. -/
theorem someTextOtherThan_cons {span : Span} {own : String}
    (hown : harvest.textOf span = .ok own) (text : String) (rest : List Span) :
    someTextOtherThan harvest text (span :: rest)
      = if own = text then someTextOtherThan harvest text rest else .ok true := by
  rw [someTextOtherThan, hown]
  rfl

/-- The look for another text finds out whether there is one. -/
theorem someTextOtherThan_eq {spans : List Span} (text : String)
    (htexts : ∀ span ∈ spans, ∃ own, harvest.textOf span = .ok own) :
    ∃ found, someTextOtherThan harvest text spans = .ok found ∧
      (found = true ↔ ∃ span ∈ spans, ∃ own, harvest.textOf span = .ok own ∧ text ≠ own) := by
  induction spans with
  | nil => exact ⟨false, rfl, by simp⟩
  | cons span rest ih =>
    obtain ⟨own, hown⟩ := htexts span List.mem_cons_self
    obtain ⟨found, hfound, hiff⟩ := ih fun other hmem => htexts other (List.mem_cons_of_mem _ hmem)
    rw [someTextOtherThan_cons hown]
    split
    case isFalse hne =>
      exact ⟨true, rfl, fun _ => ⟨span, List.mem_cons_self, own, hown, Ne.symm hne⟩, fun _ => rfl⟩
    -- This span has the same text, so the others decide.
    case isTrue heq =>
      refine ⟨found, hfound, hiff.trans ?_⟩
      have hhere : ¬∃ own, harvest.textOf span = .ok own ∧ text ≠ own := by
        rintro ⟨own', hown', hne⟩
        rw [hown] at hown'
        cases hown'
        exact hne heq.symm
      simp only [List.mem_cons, exists_eq_or_imp, hhere, false_or]

/-- The snippets of a corpus are its candidates that are not empty. -/
theorem mem_snippets {text : String} :
    text ∈ snippets corpus ↔ text ≠ "" ∧ ∃ kind ∈ corpus.kinds, text ∈ corpus.candidates kind := by
  simp [snippets, and_comm]

/-- A kind with a candidate was met. -/
theorem mem_kinds_of_mem_candidates {kind text : String} (h : text ∈ corpus.candidates kind) :
    kind ∈ corpus.kinds := by
  rw [Corpus.kinds, Ledger.mem_keys_iff]
  cases hget : corpus.listed.get? kind with
  | none =>
    rw [Corpus.candidates, hget] at h
    cases h
  | some texts => rfl

/-- Something of any kind is offered for a span exactly if some text changes it. -/
theorem exists_offers_ofAnyKind {span : Span} :
    (∃ replacement, Offers harvest corpus.OfAnyKind span replacement) ↔
      ∃ text ∈ snippets corpus, ∃ own, harvest.textOf span = .ok own ∧ text ≠ own := by
  constructor
  · rintro ⟨replacement, hlisted, hempty, own, hown, hother⟩
    have hkind := mem_kinds_of_mem_candidates hlisted
    exact ⟨replacement.text, mem_snippets.mpr ⟨hempty, _, hkind, hlisted⟩, own, hown, hother⟩
  · rintro ⟨text, hmem, own, hown, hother⟩
    obtain ⟨hempty, kind, -, hlisted⟩ := mem_snippets.mp hmem
    exact ⟨⟨text, kind⟩, hlisted, hempty, own, hown, hother⟩

/-- The look over all kinds finds something if something is offered for some span. -/
theorem hasAnyKindCandidate_eq (hspans : harvest.spans ≠ [])
    (htexts : ∀ span ∈ harvest.spans, ∃ own, harvest.textOf span = .ok own) :
    ∃ found, hasAnyKindCandidate harvest corpus = .ok found ∧
      (found = true ↔ ∃ span ∈ harvest.spans, ∃ replacement,
        Offers harvest corpus.OfAnyKind span replacement) := by
  simp only [exists_offers_ofAnyKind]
  rw [hasAnyKindCandidate]
  cases hsnippets : snippets corpus with
  | nil => exact ⟨false, rfl, by simp⟩
  | cons text others =>
    dsimp only
    split
    case isTrue hsame =>
      -- One text only: it changes the spans that cover another.
      obtain ⟨found, hfound, hiff⟩ := someTextOtherThan_eq text htexts
      refine ⟨found, hfound, hiff.trans ?_⟩
      have hall : ∀ other, other ∈ text :: others ↔ other = text := by
        intro other
        rw [List.mem_cons]
        refine or_iff_left_of_imp fun hmem => ?_
        exact beq_iff_eq.mp (List.all_eq_true.mp hsame other hmem)
      simp only [hall, exists_eq_left]
    case isFalse hdiffer =>
      -- Of two texts, one changes whatever span comes first.
      refine ⟨true, rfl, fun _ => ?_, fun _ => rfl⟩
      obtain ⟨other, hother, hne⟩ : ∃ other ∈ others, other ≠ text := by
        simpa using hdiffer
      obtain ⟨span, hspan⟩ := List.exists_mem_of_ne_nil _ hspans
      obtain ⟨own, hown⟩ := htexts span hspan
      by_cases heq : text = own
      · exact ⟨span, hspan, other, List.mem_cons_of_mem _ hother, own, hown, heq ▸ hne⟩
      · exact ⟨span, hspan, text, List.mem_cons_self, own, hown, heq⟩

/-! ## Draws that reach all candidates -/

/-- A draw by which every candidate can be drawn, and nothing else. -/
structure Reaching (draw : Draw Script) (candidate : Span → Replacement → Prop) : Prop where
  reads : ∀ span, (draw span).Reads
  yields : DrawLoop.Yields draw candidate
  reaches : ∀ {span replacement}, candidate span replacement →
    ∃ picks, (draw span).Takes picks (some replacement)

/-- An item of a list can be picked. -/
theorem exists_takes_pick {α : Type} {items : List α} {a : α} (h : a ∈ items) :
    ∃ i, (Chance.pick items).Takes [i] a := by
  obtain ⟨i, hi, rfl⟩ := List.getElem_of_mem h
  exact ⟨i, Chance.takes_pick hi⟩

/-- A draw of the own kind can fall on every candidate of the kind. -/
theorem reaching_drawOwnKind (corpus : Corpus) :
    Reaching (drawOwnKind corpus) corpus.OfSameKind where
  reads span := (Chance.reads_pick _).bind fun _ => Chance.reads_pure _
  yields := yields_drawOwnKind corpus
  reaches {span replacement} h := by
    obtain ⟨text, kind⟩ := replacement
    obtain ⟨rfl, hlisted⟩ := h
    obtain ⟨i, htakes⟩ := exists_takes_pick hlisted
    exact ⟨[i] ++ [], htakes.bind (Chance.takes_pure _)⟩

/-- Where a kind has candidates, both draws of it are the same. -/
theorem drawSameKind_eq {σ : Type} [Chooser σ] {span : Span} (h : corpus.candidates span.kind ≠ []) :
    drawSameKind (σ := σ) corpus span = drawOwnKind corpus span := by
  rw [drawSameKind, drawOwnKind]
  cases hlisted : corpus.candidates span.kind with
  | nil => exact absurd hlisted h
  | cons => rfl

/-- A draw of the same kind can fall on every candidate of the kind. -/
theorem reaching_drawSameKind (corpus : Corpus) :
    Reaching (drawSameKind corpus) corpus.OfSameKind where
  reads span := by
    by_cases hnone : corpus.candidates span.kind = []
    · rw [drawSameKind, hnone]
      exact Chance.reads_pure none
    · rw [drawSameKind_eq hnone]
      exact (reaching_drawOwnKind corpus).reads span
  yields := yields_drawSameKind corpus
  reaches {span replacement} h := by
    rw [drawSameKind_eq (List.ne_nil_of_mem h.2)]
    exact (reaching_drawOwnKind corpus).reaches h

/-- A draw of any kind can fall on every candidate of every kind. -/
theorem reaching_drawAnyKind (corpus : Corpus) :
    Reaching (drawAnyKind corpus) corpus.OfAnyKind where
  reads span := by
    apply (Chance.reads_pick _).bind
    intro kind
    split
    · exact Chance.reads_pure none
    · exact (Chance.reads_pick _).bind fun _ => Chance.reads_pure _
  yields := yields_drawAnyKind corpus
  reaches {span replacement} h := by
    obtain ⟨text, kind⟩ := replacement
    have hlisted : text ∈ corpus.candidates kind := h
    -- One pick for the kind, and one for the text.
    obtain ⟨i, hkind⟩ := exists_takes_pick (mem_kinds_of_mem_candidates hlisted)
    obtain ⟨j, htext⟩ := exists_takes_pick hlisted
    refine ⟨[i] ++ ([j] ++ []), hkind.bind ?_⟩
    split
    case h_1 hnone => exact absurd hnone (List.ne_nil_of_mem hlisted)
    case h_2 => exact htext.bind (Chance.takes_pure _)

/-! ## Calls that draw -/

/-- A call that draws by a rule if something is offered by the rule, on a source whose spans have
texts and can be replaced. -/
structure Sampled (harvest : Harvest) (count : Nat) (stall : StallLimit)
    (candidate : Span → Replacement → Prop) (draw : Draw Script) (pass : Nat → Pass Script) :
    Prop where
  makes : ∀ span ∈ harvest.spans, ∀ index replacement,
    ∃ mutant, Mutant.make harvest index span replacement = .ok mutant
  reaching : Reaching draw candidate
  loops : (∃ span ∈ harvest.spans, ∃ replacement, Offers harvest candidate span replacement) →
    ∀ patience, pass patience = DrawLoop.more harvest draw stall patience count 0 0
  skips : (¬∃ span ∈ harvest.spans, ∃ replacement, Offers harvest candidate span replacement) →
    ∀ patience state, pass patience state = (.nothing, state)

namespace Sampled

variable {candidate : Span → Replacement → Prop} {draw : Draw Script} {pass : Nat → Pass Script}

/-- What is offered for a span can be drawn and accepted, whichever mutant is to be made. -/
theorem accepted (h : Sampled harvest count stall candidate draw pass)
    {i : Nat} (hi : i < harvest.spans.length) {replacement : Replacement}
    (hoffers : Offers harvest candidate harvest.spans[i] replacement) :
    ∃ picks, ∀ index, ∃ mutant,
      (DrawLoop.once harvest draw index).Takes picks (some mutant) ∧
        mutant.span = harvest.spans[i] ∧ mutant.replacement = replacement.text := by
  obtain ⟨hcandidate, hempty, own, hown, hother⟩ := hoffers
  obtain ⟨picks, htakes⟩ := h.reaching.reaches hcandidate
  refine ⟨i :: picks, fun index => ?_⟩
  obtain ⟨mutant, hmake⟩ := h.makes _ (List.getElem_mem hi) index replacement
  have honce := DrawLoop.takes_once hi htakes hown (isEligible_iff.mpr ⟨hempty, hother⟩) hmake
  exact ⟨mutant, honce, Mutant.names_of_make hmake⟩

/-- Where anything is offered, some picks make a mutant of it. -/
theorem accepted_of_exists (h : Sampled harvest count stall candidate draw pass)
    (hoffers : ∃ span ∈ harvest.spans, ∃ replacement,
      Offers harvest candidate span replacement) :
    ∃ picks, ∀ index, ∃ mutant,
      (DrawLoop.once harvest draw index).Takes picks (some mutant) := by
  obtain ⟨span, hspan, replacement, hoffered⟩ := hoffers
  obtain ⟨i, hi, rfl⟩ := List.getElem_of_mem hspan
  obtain ⟨picks, haccepted⟩ := h.accepted hi hoffered
  refine ⟨picks, fun index => ?_⟩
  obtain ⟨mutant, htakes, -⟩ := haccepted index
  exact ⟨mutant, htakes⟩

/-- The mutants of such a call are made of what is offered. -/
theorem made (h : Sampled harvest count stall candidate draw pass) {mutants : List Mutant}
    (hreturns : Pass.CanReturn pass mutants) :
    ∀ mutant ∈ mutants, mutant.Made harvest (Offers harvest candidate) := by
  obtain ⟨patience, script, hresult⟩ := hreturns
  have hmutants : mutants = (pass patience script).1.mutants := by
    rw [Draft.result] at hresult
    split at hresult <;> cases hresult <;> rfl
  subst hmutants
  -- Where something is offered the call goes to the loop, and else it makes nothing.
  by_cases hoffers : ∃ span ∈ harvest.spans, ∃ replacement,
      Offers harvest candidate span replacement
  · rw [h.loops hoffers]
    exact DrawLoop.made_more h.reaching.yields stall patience count 0 0 script
  · rw [h.skips hoffers]
    intro mutant hmem
    cases hmem

/-- A call that stands in its loop can be taken up there. -/
theorem resumes (h : Sampled harvest count stall candidate draw pass) {draws : Nat}
    {picks : List Nat} {made : List Mutant} (hstands : Pass.Stands pass draws picks made) :
    (∃ span ∈ harvest.spans, ∃ replacement, Offers harvest candidate span replacement) ∧
      made.length < count ∧ ∀ extra later,
        pass (draws + extra) ⟨picks ++ later⟩
          = Prod.map (Draft.afterAll made) id
              (DrawLoop.more harvest draw stall extra (count - made.length) made.length draws
                ⟨later⟩) := by
  by_cases hoffers : ∃ span ∈ harvest.spans, ∃ replacement,
      Offers harvest candidate span replacement
  -- Where nothing is offered the pass ends at once, so it stands nowhere.
  · have hzero := hstands [0]
    rw [h.loops hoffers] at hzero
    have hreads : ∀ index, (DrawLoop.once harvest draw index).Reads :=
      DrawLoop.reads_once h.reaching.reads
    obtain ⟨hlength, used, hused, hresumes⟩ := DrawLoop.more_resumes hreads hzero rfl
    have hpicks : picks = used := List.append_cancel_right hused
    refine ⟨hoffers, hlength, fun extra later => ?_⟩
    rw [h.loops hoffers, hpicks, hresumes, Nat.zero_add, Nat.zero_add]
  · have hzero := hstands [0]
    rw [h.skips hoffers] at hzero
    cases hzero

/-- What is offered for a span is in a list that can be returned. -/
theorem returns (h : Sampled harvest (count + 1) stall candidate draw pass)
    (hstall : stall.exceededBy 1 = false) {i : Nat} (hi : i < harvest.spans.length)
    {replacement : Replacement} (hoffers : Offers harvest candidate harvest.spans[i] replacement) :
    ∃ mutants, Pass.CanReturn pass mutants ∧ ∃ mutant ∈ mutants,
      mutant.span = harvest.spans[i] ∧ mutant.replacement = replacement.text := by
  obtain ⟨picks, haccepted⟩ := h.accepted hi hoffers
  obtain ⟨mutant, htakes, hnames⟩ := haccepted 1
  have hpicks : ∀ index, ∃ mutant,
      (DrawLoop.once harvest draw index).Takes picks (some mutant) := by
    intro index
    obtain ⟨other, hother, -⟩ := haccepted index
    exact ⟨other, hother⟩
  have hfirst : ¬(0 = 0 ∧ stall.exceededBy (0 + 1) = true) := by
    rw [Nat.zero_add, hstall]
    simp
  have hlater : ¬(0 + 1 = 0 ∧ stall.exceededBy (0 + 1 + 1) = true) := by simp
  -- The replacement is drawn first, and then again until there are enough mutants.
  obtain ⟨mutants, -, hcompletes⟩ := DrawLoop.more_completes count hpicks hlater
  refine ⟨mutant :: mutants, ⟨count + 1, ⟨picks ++ (List.replicate count picks).flatten⟩, ?_⟩,
    mutant, List.mem_cons_self, hnames⟩
  rw [h.loops ⟨_, List.getElem_mem hi, replacement, hoffers⟩,
    DrawLoop.more_accept hfirst (htakes _), hcompletes]
  rfl

/-- A call that is sampled is free. -/
theorem free (h : Sampled harvest count stall candidate draw pass) (hcount : 1 ≤ count)
    (hstall : stall.exceededBy 1 = false) {offered : Span → String → Prop}
    (hoffered : ∀ span text, offered span text ↔
      ∃ replacement, Offers harvest candidate span replacement ∧ replacement.text = text) :
    Free harvest count stall offered pass where
  within mutants hreturns mutant hmem := by
    obtain ⟨index, span, replacement, hspan, -, hmake⟩ := h.made hreturns mutant hmem
    rwa [(Mutant.names_of_make hmake).1]
  occurs i text := by
    rw [hoffered]
    constructor
    · rintro ⟨mutants, hreturns, mutant, hmem, hspan, htext⟩
      obtain ⟨index, span, replacement, -, hoffers, hmake⟩ := h.made hreturns mutant hmem
      obtain ⟨hspan', htext'⟩ := Mutant.names_of_make hmake
      rw [← hspan, hspan']
      exact ⟨replacement, hoffers, htext'.symm.trans htext⟩
    · rintro ⟨replacement, hoffers, rfl⟩
      -- There is a first mutant to make, and what is offered can be drawn for it.
      obtain ⟨before, rfl⟩ : ∃ before, count = before + 1 := ⟨count - 1, by omega⟩
      exact h.returns hstall i.isLt hoffers
  goesOn draws picks made hstands := by
    obtain ⟨hoffers, hlength, hresumes⟩ := h.resumes hstands
    refine ⟨hlength, fun hnot => ?_⟩
    obtain ⟨picked, haccepted⟩ := h.accepted_of_exists hoffers
    -- The loop has not given up, and does not from the first mutant on.
    have hgoes : ¬(made.length = 0 ∧ stall.exceededBy (draws + 1)) :=
      fun hgives => hnot ⟨List.length_eq_zero_iff.mp hgives.1, hgives.2⟩
    -- One replacement that is offered somewhere, drawn again and again, makes all that is missing.
    obtain ⟨later, hlater, hcompletes⟩ :=
      DrawLoop.more_completes (count - made.length) haccepted hgoes
    refine ⟨draws + (count - made.length),
      (List.replicate (count - made.length) picked).flatten, later, ?_, ?_⟩
    · rw [hresumes, hcompletes]
      rfl
    · rw [List.length_append, hlater]
      omega
  givesUp draws picks made hstands hgives patience later := by
    obtain ⟨-, hlength, hresumes⟩ := h.resumes hstands
    obtain ⟨rfl, hexceeded⟩ := hgives
    obtain ⟨before, rfl⟩ : ∃ before, count = before + 1 := ⟨count - 1, by omega⟩
    -- The loop looks at the limit before it draws.
    rw [hresumes]
    exact congrArg _ (DrawLoop.more_gaveUp ⟨rfl, hexceeded⟩)

end Sampled

/-! ## Splicing with free choices -/

/-- A call that draws after it looked whether anything is offered. -/
theorem sampled_drawn (count : Nat) (stall : StallLimit)
    {candidate : Span → Replacement → Prop} {draw : Draw Script}
    (hmakes : ∀ span ∈ harvest.spans, ∀ index replacement,
      ∃ mutant, Mutant.make harvest index span replacement = .ok mutant)
    (hreaching : Reaching draw candidate) {possible : Except Failure Bool}
    (hpossible : harvest.spans ≠ [] → ∃ found, possible = .ok found ∧ (found = true ↔
      ∃ span ∈ harvest.spans, ∃ replacement, Offers harvest candidate span replacement))
    (hnone : harvest.spans = [] → ∃ found, possible = .ok found) :
    Sampled harvest count stall candidate draw fun patience =>
      drawn patience harvest count stall draw possible where
  makes := hmakes
  reaching := hreaching
  loops hoffers patience := by
    obtain ⟨span, hspan, hoffered⟩ := hoffers
    have hspans : harvest.spans ≠ [] := List.ne_nil_of_mem hspan
    obtain ⟨found, hfound, hiff⟩ := hpossible hspans
    have htrue : found = true := hiff.mpr ⟨span, hspan, hoffered⟩
    funext state
    simp only [drawn, hfound, htrue, DrawLoop.mutants, List.isEmpty_iff, hspans, if_false,
      Int.toNat_natCast]
  skips hnot patience state := by
    by_cases hspans : harvest.spans = []
    · -- Without spans nothing is drawn, whatever the look answered.
      obtain ⟨found, hfound⟩ := hnone hspans
      cases found <;> simp [drawn, hfound, DrawLoop.mutants, hspans]
    · obtain ⟨found, hfound, hiff⟩ := hpossible hspans
      -- The look has found nothing, so nothing is drawn.
      have hfalse : found = false := by
        cases found with
        | false => rfl
        | true => exact absurd (hiff.mp rfl) hnot
      simp only [drawn, hfound, hfalse]

/-- Without spans the look for candidates of any kind answers, whatever it says. -/
theorem exists_hasAnyKindCandidate_of_nil (hspans : harvest.spans = []) :
    ∃ found, hasAnyKindCandidate harvest corpus = .ok found := by
  rw [hasAnyKindCandidate, hspans]
  split
  · exact ⟨false, rfl⟩
  · split
    · exact ⟨false, rfl⟩
    · exact ⟨true, rfl⟩

/-- A count of one or more is accepted. -/
theorem checkCount_of_pos (hcount : 1 ≤ count) (allowAll : Bool) :
    checkCount count allowAll = .ok count := by
  rw [checkCount, if_neg (by omega), if_neg (by omega)]
  rfl

section Counted

variable {σ : Type} [Chooser σ]

/-- With a count, splicing with texts of the source's own draws from its corpus. -/
theorem fromSelf_of_pos (hcount : 1 ≤ count) {own : Corpus}
    (hown : Corpus.ofSource harvest = .ok own) (patience : Nat) :
    fromSelf (σ := σ) patience harvest count stall
      = drawn patience harvest count stall (drawOwnKind own)
          (hasSameKindCandidate harvest own harvest.spans) := by
  have hne : count ≠ 0 := by omega
  funext state
  simp only [fromSelf, checkCount_of_pos hcount, hown, hne, if_false]

/-- Asked for some mutants, a splice by kind looks and then draws. -/
theorem fromCorpus_of_pos (hcount : 1 ≤ count) (patience : Nat) :
    fromCorpus (σ := σ) patience harvest corpus count stall
      = drawn patience harvest count stall (drawSameKind corpus)
          (hasSameKindCandidate harvest corpus harvest.spans) := by
  funext state
  simp only [fromCorpus, checkCount_of_pos hcount]

/-- Asked for some mutants, a splice by any kind looks and then draws. -/
theorem fromAnyKind_of_pos (hcount : 1 ≤ count) (patience : Nat) :
    fromAnyKind (σ := σ) patience harvest corpus count stall
      = drawn patience harvest count stall (drawAnyKind corpus)
          (hasAnyKindCandidate harvest corpus) := by
  funext state
  simp only [fromAnyKind, checkCount_of_pos hcount]

end Counted

/-- A stall limit that is accepted allows the first draw. -/
theorem StallLimit.exceededBy_one (hstall : ∀ n, stall = some n → 1 ≤ n) :
    stall.exceededBy 1 = false := by
  cases stall with
  | none => rfl
  | some n =>
    have hn := hstall n rfl
    simp only [StallLimit.exceededBy, decide_eq_false_iff_not]
    omega

/--
On a source whose spans lie between characters, every splice that draws can return exactly what is
offered, and is never in a state that leads nowhere: with texts of its own, with those of the span's
kind in any corpus, and with those of all kinds of it.
-/
theorem free_of_cuts {text : String} (htext : harvest.text = .ok text)
    (hcuts : ∀ span ∈ harvest.spans, span.Cuts text) (hcount : 1 ≤ count)
    (hstall : ∀ n, stall = some n → 1 ≤ n) (corpus : Corpus) :
    (∃ own, Corpus.ofSource harvest = .ok own ∧
      Free harvest count stall
        (fun span text => text ∈ own.candidates span.kind ∧ harvest.Changes span text)
        fun patience => fromSelf patience harvest count stall) ∧
    Free harvest count stall
      (fun span text => text ∈ corpus.candidates span.kind ∧ harvest.Changes span text)
      (fun patience => fromCorpus patience harvest corpus count stall) ∧
    Free harvest count stall
      (fun span text => (∃ kind ∈ corpus.kinds, text ∈ corpus.candidates kind) ∧
        harvest.Changes span text)
      (fun patience => fromAnyKind patience harvest corpus count stall) := by
  have hreadable : ∀ span ∈ harvest.spans, ∃ own, harvest.textOf span = .ok own :=
    fun span hspan => Harvest.exists_textOf htext (hcuts span hspan)
  have hmakes : ∀ span ∈ harvest.spans, ∀ index replacement,
      ∃ mutant, Mutant.make harvest index span replacement = .ok mutant :=
    fun span hspan index replacement => Harvest.exists_make htext (hcuts span hspan) index replacement
  have hlimit := StallLimit.exceededBy_one hstall
  -- Both splices by kind ask the same question before they draw.
  have hkind : ∀ (corpus : Corpus) (draw : Draw Script), Reaching draw corpus.OfSameKind →
      Free harvest count stall
        (fun span text => text ∈ corpus.candidates span.kind ∧ harvest.Changes span text)
        fun patience => drawn patience harvest count stall draw
          (hasSameKindCandidate harvest corpus harvest.spans) := by
    intro corpus draw hreaching
    have hpossible := hasSameKindCandidate_eq corpus hreadable
    have hsampled := sampled_drawn count stall hmakes hreaching (fun _ => hpossible)
      fun _ => hpossible.imp fun _ => And.left
    apply hsampled.free hcount hlimit
    intro span text
    -- What is offered is a text of the kind, or a replacement with that text.
    constructor
    · rintro ⟨hlisted, hchanges⟩
      exact ⟨⟨text, span.kind⟩, ⟨⟨rfl, hlisted⟩, hchanges⟩, rfl⟩
    · rintro ⟨replacement, ⟨⟨-, hlisted⟩, hchanges⟩, rfl⟩
      exact ⟨hlisted, hchanges⟩
  refine ⟨?_, ?_, ?_⟩
  · obtain ⟨own, hown⟩ := Corpus.exists_ofSource hreadable
    refine ⟨own, hown, ?_⟩
    simp only [fromSelf_of_pos hcount hown]
    exact hkind own _ (reaching_drawOwnKind own)
  · simp only [fromCorpus_of_pos hcount]
    exact hkind corpus _ (reaching_drawSameKind corpus)
  · simp only [fromAnyKind_of_pos hcount]
    have hsampled := sampled_drawn count stall hmakes (reaching_drawAnyKind corpus)
      (fun hspans => hasAnyKindCandidate_eq hspans hreadable) exists_hasAnyKindCandidate_of_nil
    apply hsampled.free hcount hlimit
    intro span text
    constructor
    · rintro ⟨⟨kind, -, hlisted⟩, hchanges⟩
      exact ⟨⟨text, kind⟩, ⟨hlisted, hchanges⟩, rfl⟩
    · rintro ⟨replacement, ⟨hlisted, hchanges⟩, rfl⟩
      exact ⟨⟨replacement.kind, mem_kinds_of_mem_candidates hlisted, hlisted⟩, hchanges⟩

/-- The names `é` and `b`, the first of which has two bytes. -/
def accented : Harvest where
  bytes := [0xC3, 0xA9, 0x20, 0x62]
  spans := [⟨"name", 0, 2, ⟨0, 0⟩, ⟨0, 2⟩⟩, ⟨"name", 3, 4, ⟨0, 3⟩, ⟨0, 4⟩⟩]
  path := none
  language := "rust"

/-- Two mutants of it can be drawn in every way, even if the first draw has to be accepted. -/
theorem accented_free :
    accented.text = .ok "é b" ∧ (∀ span ∈ accented.spans, span.Cuts "é b") ∧
      ∃ own, Corpus.ofSource accented = .ok own ∧ own.candidates "name" = ["", "é", "b"] ∧
        Free accented 2 (some 1)
          (fun span text => text ∈ own.candidates span.kind ∧ accented.Changes span text)
          fun patience => fromSelf patience accented 2 (some 1) := by
  have htext : accented.text = .ok "é b" := by
    have hbytes : accented.bytes = Utf8.encode "é b" := by decide +kernel
    rw [Harvest.text, hbytes, Utf8.decode_encode]
    rfl
  have hcuts : ∀ span ∈ accented.spans, span.Cuts "é b" := by
    intro span hspan
    rcases List.mem_cons.mp hspan with rfl | hspan
    · exact ⟨"", "é", " b", by decide +kernel, by decide +kernel, by decide +kernel⟩
    · obtain rfl := List.mem_singleton.mp hspan
      exact ⟨"é ", "b", "", by decide +kernel, by decide +kernel, by decide +kernel⟩
  have hstall : ∀ n : Int, (some 1 : StallLimit) = some n → 1 ≤ n := by
    rintro n ⟨⟩
    decide
  have hcount : 1 ≤ 2 := by decide
  obtain ⟨⟨own, hown, hfree⟩, -⟩ := free_of_cuts htext hcuts hcount hstall .empty
  -- The corpus of the source has both letters under their kind.
  have hlisted : (Corpus.ofSource accented).toOption.map (fun own => own.candidates "name")
      = some ["", "é", "b"] := by
    decide +kernel
  rw [hown] at hlisted
  exact ⟨htext, hcuts, own, hown, Option.some.inj hlisted, hfree⟩

end Splice

end SourceMutation
