import SourceMutation.Proofs.FreeChoices

/-!
# The look before the first draw

A splice that draws looks first whether any draw could be accepted, and abstains if none could: it
returns no mutants, and its generator is not asked for a number (`Pass.Abstains`).  The look by kind
goes over the spans with their candidates; the look over all kinds takes a short cut, since of two
texts one changes any span.

Both looks answer what a search through all spans and all candidates finds (`Splice.search`), with
one exception: the look by kind reads the text of a span before its candidates, and so fails on a
span without a text even if there are no candidates for it (`Splice.looksExactly`,
`Splice.halfAccent_fails`).
-/

namespace SourceMutation

variable {σ α β : Type}

/-! ## Counting choices

Whether a pass draws is not told by its result, since it may draw and still give up.  So the numbers
that it asks for are counted.
-/

/-- A chooser, and how many numbers it was asked for. -/
structure Counted (σ : Type) where
  source : σ
  asked : Nat

instance [Chooser σ] : Chooser (Counted σ) where
  below bound state :=
    (Chooser.below bound state.source).map fun (pick, source) => (pick, ⟨source, state.asked + 1⟩)

/-- Whether a pass returns no mutants and asks for no number. -/
def Pass.Abstains (pass : Pass (Counted σ)) (start : Counted σ) : Prop :=
  (pass start).1.result = .ok [] ∧ (pass start).2.asked = start.asked

namespace Chance

/-- Whether a computation never takes a number back. -/
def OnlyAsks (m : Chance (Counted σ) α) : Prop :=
  ∀ state a after, m state = (.ok a, after) → state.asked ≤ after.asked

variable {m : Chance (Counted σ) α} {f : α → Chance (Counted σ) β}

theorem onlyAsks_pure (a : α) : OnlyAsks (pure a : Chance (Counted σ) α) := by
  intro state b after h
  cases h
  exact Nat.le_refl _

theorem onlyAsks_ofExcept (result : Except Failure α) :
    OnlyAsks (ofExcept result : Chance (Counted σ) α) := by
  cases result with
  | error failure =>
    intro state a after h
    cases h
  | ok a => exact onlyAsks_pure a

theorem OnlyAsks.bind (hm : m.OnlyAsks) (hf : ∀ a, (f a).OnlyAsks) : (m >>= f).OnlyAsks := by
  intro state b after h
  obtain ⟨a, between, hfirst, hsecond⟩ := bind_eq_ok.mp h
  exact Nat.le_trans (hm _ _ _ hfirst) (hf a _ _ _ hsecond)

variable [Chooser σ]

/-- A pick asks for one number. -/
theorem asked_of_pick {items : List α} {state after : Counted σ} {a : α}
    (h : pick items state = (.ok a, after)) : after.asked = state.asked + 1 := by
  cases items with
  | nil => cases h
  -- Picking asks once, and returns if it is answered.
  | cons item rest =>
    obtain ⟨i, between, hbelow, hlast⟩ := bind_eq_ok.mp h
    cases hlast
    simp only [below, Chooser.below] at hbelow
    cases hsource : Chooser.below (item :: rest).length state.source with
    | none =>
      rw [hsource] at hbelow
      cases hbelow
    | some next =>
      rw [hsource] at hbelow
      cases hbelow
      rfl

theorem onlyAsks_pick (items : List α) : OnlyAsks (pick items : Chance (Counted σ) α) := by
  intro state a after h
  rw [asked_of_pick h]
  exact Nat.le_succ _

end Chance

/-! ## Passes that draw -/

/-- A draft has a result if it has one with a mutant before its own. -/
theorem Draft.result_of_after {mutant : Mutant} {draft : Draft} {made : List Mutant}
    (h : (draft.after mutant).result = .ok made) :
    ∃ others, draft.result = .ok others ∧ made = mutant :: others := by
  obtain ⟨mutants, ending⟩ := draft
  cases ending with
  | complete =>
    cases h
    exact ⟨mutants, rfl, rfl⟩
  | gaveUp =>
    cases h
    exact ⟨mutants, rfl, rfl⟩
  | stopped stop => cases h

variable [Chooser σ] {harvest : Harvest} {corpus : Corpus} {count : Nat} {stall : StallLimit}

namespace DrawLoop

variable {draw : Draw (Counted σ)}

/-- A draw of the loop asks for a number at least. -/
theorem asked_of_once (hdraw : ∀ span, (draw span).OnlyAsks) {index : Nat} {state after : Counted σ}
    {drawn : Option Mutant} (h : once harvest draw index state = (.ok drawn, after)) :
    state.asked < after.asked := by
  -- The span is picked first; what comes after that only asks for more.
  obtain ⟨span, between, hpick, hrest⟩ := Chance.bind_eq_ok.mp h
  have hrest' : between.asked ≤ after.asked := by
    refine Chance.OnlyAsks.bind (hdraw span) ?_ _ _ _ hrest
    rintro (_ | replacement)
    · exact Chance.onlyAsks_pure none
    · apply (Chance.onlyAsks_ofExcept _).bind
      intro own
      split
      · exact (Chance.onlyAsks_ofExcept _).bind fun mutant => Chance.onlyAsks_pure (some mutant)
      · exact Chance.onlyAsks_pure none
  have hasked := Chance.asked_of_pick hpick
  omega

theorem asked_le_of_more (hdraw : ∀ span, (draw span).OnlyAsks) {fuel missing made attempts : Nat}
    {state : Counted σ} {mutants : List Mutant}
    (h : (more harvest draw stall fuel missing made attempts state).1.result = .ok mutants) :
    state.asked ≤ (more harvest draw stall fuel missing made attempts state).2.asked := by
  -- The induction follows the draws; a loop that returns has not failed in any of them.
  induction fuel generalizing missing made attempts state mutants with
  | zero => cases missing <;> exact Nat.le_refl _
  | succ fuel ih =>
    cases missing with
    | zero => exact Nat.le_refl _
    | succ missing =>
      by_cases hgives : made = 0 ∧ stall.exceededBy (attempts + 1)
      · exact Nat.le_of_eq (by rw [more_gaveUp hgives])
      · rcases honce : once harvest draw (made + 1) state with ⟨stop | (_ | mutant), between⟩
        · rw [more_stop hgives honce] at h
          cases h
        · have hasked := asked_of_once hdraw honce
          rw [more_reject hgives honce] at h ⊢
          have hmore := ih h
          omega
        · have hasked := asked_of_once hdraw honce
          rw [more_accept hgives honce] at h ⊢
          obtain ⟨others, hothers, -⟩ := Draft.result_of_after h
          have hmore := ih hothers
          exact Nat.le_trans (Nat.le_of_lt hasked) hmore

/-- A loop that may draw and returns has drawn. -/
theorem asked_of_more (hdraw : ∀ span, (draw span).OnlyAsks) (hstall : stall.exceededBy 1 = false)
    {fuel missing : Nat} {state : Counted σ} {mutants : List Mutant}
    (h : (more harvest draw stall fuel (missing + 1) 0 0 state).1.result = .ok mutants) :
    state.asked < (more harvest draw stall fuel (missing + 1) 0 0 state).2.asked := by
  -- The limit allows a first draw.
  have hgoes : ¬(0 = 0 ∧ stall.exceededBy (0 + 1) = true) := by simp [hstall]
  cases fuel with
  | zero => cases h
  | succ fuel =>
    rcases honce : once harvest draw (0 + 1) state with ⟨stop | (_ | mutant), between⟩
    · rw [more_stop hgoes honce] at h
      cases h
    -- Whether or not the draw is accepted, it has asked.
    · rw [more_reject hgoes honce] at h ⊢
      exact Nat.lt_of_lt_of_le (asked_of_once hdraw honce) (asked_le_of_more hdraw h)
    · rw [more_accept hgoes honce] at h ⊢
      obtain ⟨others, hothers, -⟩ := Draft.result_of_after h
      exact Nat.lt_of_lt_of_le (asked_of_once hdraw honce) (asked_le_of_more hdraw hothers)

end DrawLoop

/-- Whether all spans of a source have texts. -/
def Harvest.Readable (harvest : Harvest) : Prop :=
  ∀ span ∈ harvest.spans, ∃ own, harvest.textOf span = .ok own

namespace Splice

/-- A pass that draws if something is possible abstains exactly if nothing is, or if there are no
spans. -/
theorem abstains_drawn_iff {draw : Draw (Counted σ)} (hdraw : ∀ span, (draw span).OnlyAsks)
    (hcount : 1 ≤ count) (hstall : stall.exceededBy 1 = false) (patience : Nat)
    (possible : Except Failure Bool) (start : Counted σ) :
    Pass.Abstains (drawn patience harvest count stall draw possible) start ↔
      possible = .ok false ∨ possible = .ok true ∧ harvest.spans = [] := by
  obtain ⟨before, rfl⟩ : ∃ before, count = before + 1 := ⟨count - 1, by omega⟩
  match possible with
  | .error failure => simp [Pass.Abstains, drawn, Draft.failed, Draft.result]
  | .ok false => simp [Pass.Abstains, drawn, Draft.nothing, Draft.result]
  | .ok true =>
    simp only [drawn, Pass.Abstains, DrawLoop.mutants]
    by_cases hspans : harvest.spans = []
    · simp [hspans, Draft.nothing, Draft.result]
    · -- There is a span to draw, and the limit allows a first draw.
      have hmust : ¬harvest.spans.isEmpty = true := by simpa using hspans
      rw [if_neg hmust, Int.toNat_natCast]
      simp only [hspans, and_false, or_false, Except.ok.injEq, Bool.true_eq_false, iff_false]
      rintro ⟨hresult, hasked⟩
      exact Nat.ne_of_gt (DrawLoop.asked_of_more hdraw hstall hresult) hasked

/-! ## Searching all pairs -/

/-- Every span of a source with every candidate for it that is not empty and not the span's text. -/
def search (harvest : Harvest) (candidates : Span → List String) : List (Span × String) :=
  harvest.spans.flatMap fun span =>
    ((candidates span).filter fun text =>
      text ≠ "" ∧ (harvest.textOf span).toOption ≠ some text).map fun text => (span, text)

/-- The candidates of a span's own kind. -/
def sameKind (corpus : Corpus) (span : Span) : List String := corpus.candidates span.kind

/-- The candidates of all kinds, whatever the span. -/
def anyKind (corpus : Corpus) (_ : Span) : List String := corpus.kinds.flatMap corpus.candidates

/-- A search finds nothing if each candidate is empty or the span's text. -/
theorem search_eq_nil_iff {candidates : Span → List String} :
    search harvest candidates = [] ↔ ∀ span ∈ harvest.spans, ∀ text ∈ candidates span,
      text ≠ "" → harvest.textOf span = .ok text := by
  simp [search, List.filter_eq_nil_iff, Harvest.toOption_textOf_eq_some]

/-- The look by kind finds nothing if all spans have texts and there is nothing to find. -/
theorem hasSameKindCandidate_eq_false_iff {spans : List Span} :
    hasSameKindCandidate harvest corpus spans = .ok false ↔
      ∀ span ∈ spans, (∃ own, harvest.textOf span = .ok own) ∧
        ∀ text ∈ sameKind corpus span, text ≠ "" → harvest.textOf span = .ok text := by
  induction spans with
  | nil => simp [hasSameKindCandidate]
  | cons span rest ih =>
    rw [List.forall_mem_cons, ← ih]
    cases hown : harvest.textOf span with
    | error failure =>
      have hfails : hasSameKindCandidate harvest corpus (span :: rest) = .error failure := by
        rw [hasSameKindCandidate, hown]
        rfl
      simp [hfails]
    | ok own =>
      -- For this span the look finds nothing if all candidates are its own text, or empty.
      have hhere : ((corpus.candidates span.kind).any fun text => isEligible text own) = false ↔
          ∀ text ∈ sameKind corpus span, text ≠ "" → own = text := by
        rw [List.any_eq_false]
        refine forall₂_congr fun text _ => ?_
        rw [isEligible_iff, not_and, ne_eq text own, Decidable.not_not, @eq_comm _ own]
      simp only [hasSameKindCandidate_cons hown, Except.ok.injEq, exists_eq', true_and]
      rw [← hhere]
      cases (corpus.candidates span.kind).any fun text => isEligible text own <;> simp

theorem someTextOtherThan_eq_false_iff {text : String} {spans : List Span} :
    someTextOtherThan harvest text spans = .ok false ↔
      ∀ span ∈ spans, harvest.textOf span = .ok text := by
  induction spans with
  | nil => simp [someTextOtherThan]
  | cons span rest ih =>
    rw [List.forall_mem_cons, ← ih]
    cases hown : harvest.textOf span with
    | error failure =>
      have hfails : someTextOtherThan harvest text (span :: rest) = .error failure := by
        rw [someTextOtherThan, hown]
        rfl
      simp [hfails]
    | ok own =>
      rw [someTextOtherThan_cons hown]
      split
      -- The span has the same text, so the look goes on.
      case isTrue heq => simp [heq]
      case isFalse hne => simp [hne]

/-- The look over all kinds and the spans find nothing together exactly if a search does. -/
theorem hasAnyKindCandidate_iff :
    (hasAnyKindCandidate harvest corpus = .ok false ∨
        hasAnyKindCandidate harvest corpus = .ok true ∧ harvest.spans = []) ↔
      search harvest (anyKind corpus) = [] := by
  have hsearch : search harvest (anyKind corpus) = [] ↔
      ∀ span ∈ harvest.spans, ∀ text ∈ snippets corpus, harvest.textOf span = .ok text := by
    rw [search_eq_nil_iff]
    simp only [anyKind, snippets, List.mem_filter, bne_iff_ne, and_imp]
  rw [hsearch, hasAnyKindCandidate]
  cases snippets corpus with
  | nil => simp
  | cons text others =>
    dsimp only
    split
    case isTrue hsame =>
      -- One text only: nothing is left of the spans that cover it.
      have hone : ∀ other ∈ text :: others, other = text :=
        List.forall_mem_cons.mpr ⟨rfl, fun other hmem =>
          beq_iff_eq.mp (List.all_eq_true.mp hsame other hmem)⟩
      have hnone : harvest.spans = [] → someTextOtherThan harvest text harvest.spans = .ok false := by
        intro hspans
        rw [hspans]
        rfl
      constructor
      · rintro (hfalse | ⟨htrue, hspans⟩)
        · intro span hspan other hother
          rw [hone other hother]
          exact someTextOtherThan_eq_false_iff.mp hfalse span hspan
        · cases (hnone hspans).symm.trans htrue
      · intro hall
        exact .inl (someTextOtherThan_eq_false_iff.mpr fun span hspan =>
          hall span hspan text List.mem_cons_self)
    case isFalse hdiffer =>
      -- Of two texts, a span covers one at most.
      obtain ⟨other, hother, hne⟩ : ∃ other ∈ others, other ≠ text := by
        simpa using hdiffer
      constructor
      · rintro (hfalse | ⟨-, hspans⟩)
        · cases hfalse
        · simp [hspans]
      · intro hall
        refine .inr ⟨rfl, List.eq_nil_iff_forall_not_mem.mpr fun span hspan => hne ?_⟩
        have hfirst := hall span hspan text List.mem_cons_self
        have hsecond := hall span hspan other (List.mem_cons_of_mem _ hother)
        exact Except.ok.inj (hsecond.symm.trans hfirst)

/-! ## Draws that only ask -/

theorem onlyAsks_drawOwnKind (corpus : Corpus) (span : Span) :
    (drawOwnKind (σ := Counted σ) corpus span).OnlyAsks :=
  (Chance.onlyAsks_pick _).bind fun _ => Chance.onlyAsks_pure _

theorem onlyAsks_drawSameKind (corpus : Corpus) (span : Span) :
    (drawSameKind (σ := Counted σ) corpus span).OnlyAsks := by
  by_cases hnone : corpus.candidates span.kind = []
  · rw [drawSameKind, hnone]
    exact Chance.onlyAsks_pure none
  · rw [drawSameKind_eq hnone]
    exact onlyAsks_drawOwnKind corpus span

theorem onlyAsks_drawAnyKind (corpus : Corpus) (span : Span) :
    (drawAnyKind (σ := Counted σ) corpus span).OnlyAsks := by
  apply (Chance.onlyAsks_pick _).bind
  intro kind
  split
  · exact Chance.onlyAsks_pure none
  · exact (Chance.onlyAsks_pick _).bind fun _ => Chance.onlyAsks_pure _

/-! ## When a splice abstains -/

/-- A splice by kind abstains exactly if all spans have texts and a search finds nothing. -/
theorem abstains_sameKind_iff {draw : Draw (Counted σ)} (hdraw : ∀ span, (draw span).OnlyAsks)
    (hcount : 1 ≤ count) (hstall : stall.exceededBy 1 = false) (patience : Nat)
    (start : Counted σ) :
    Pass.Abstains (drawn patience harvest count stall draw
        (hasSameKindCandidate harvest corpus harvest.spans)) start ↔
      harvest.Readable ∧ search harvest (sameKind corpus) = [] := by
  -- Without spans the look finds nothing, so the second way to abstain falls away.
  have hnone : harvest.spans = [] →
      hasSameKindCandidate harvest corpus harvest.spans ≠ .ok true := by
    intro hspans
    rw [hspans]
    exact fun htrue => nomatch htrue
  rw [abstains_drawn_iff hdraw hcount hstall,
    or_iff_left fun hboth => hnone hboth.2 hboth.1, hasSameKindCandidate_eq_false_iff,
    search_eq_nil_iff, Harvest.Readable]
  simp only [forall_and]

/-- When the splices of a source abstain, for a count and a limit. -/
structure LooksExactly (σ : Type) [Chooser σ] (harvest : Harvest) (corpus : Corpus) (count : Nat)
    (stall : StallLimit) : Prop where
  /-- A source whose spans have texts has a corpus of its own. -/
  own : harvest.Readable → ∃ own, Corpus.ofSource harvest = .ok own
  fromSelf : ∀ patience (start : Counted σ),
    Pass.Abstains (fromSelf patience harvest count stall) start ↔
      harvest.Readable ∧
        ∃ own, Corpus.ofSource harvest = .ok own ∧ search harvest (sameKind own) = []
  fromCorpus : ∀ patience (start : Counted σ),
    Pass.Abstains (fromCorpus patience harvest corpus count stall) start ↔
      harvest.Readable ∧ search harvest (sameKind corpus) = []
  /-- Here it makes no difference whether the spans have texts. -/
  fromAnyKind : ∀ patience (start : Counted σ),
    Pass.Abstains (fromAnyKind patience harvest corpus count stall) start ↔
      search harvest (anyKind corpus) = []

/--
A splice that may draw abstains exactly if a search through all spans and their candidates finds
nothing to put in the place of any; a splice by kind, moreover, only where all spans have texts.
-/
theorem looksExactly (σ : Type) [Chooser σ] (harvest : Harvest) (corpus : Corpus) (hcount : 1 ≤ count)
    (hstall : ∀ n, stall = some n → 1 ≤ n) : LooksExactly σ harvest corpus count stall := by
  have hlimit := StallLimit.exceededBy_one hstall
  refine ⟨Corpus.exists_ofSource, fun patience start => ?_, fun patience start => ?_,
    fun patience start => ?_⟩
  · cases hown : Corpus.ofSource harvest with
    | error failure =>
      -- Without a corpus the pass fails.
      have hfails : (Splice.fromSelf patience harvest count stall start).1.result
          = .error (.failed failure) := by
        rw [Splice.fromSelf, checkCount_of_pos hcount, hown]
        rfl
      simp [Pass.Abstains, hfails]
    | ok own =>
      rw [fromSelf_of_pos hcount hown,
        abstains_sameKind_iff (onlyAsks_drawOwnKind own) hcount hlimit]
      simp
  · rw [fromCorpus_of_pos hcount]
    exact abstains_sameKind_iff (onlyAsks_drawSameKind corpus) hcount hlimit patience start
  · rw [fromAnyKind_of_pos hcount,
      abstains_drawn_iff (onlyAsks_drawAnyKind corpus) hcount hlimit]
    exact hasAnyKindCandidate_iff

/-- The text `é`, as a word. -/
def accentWord : Corpus := Corpus.ofLedger ⟨[("word", ["é"])]⟩

/-- For the names `é` and `b` there is no other name, but the word changes the second one. -/
theorem accented_looksExactly :
    LooksExactly Script accented accentWord 1 (some 1) ∧
      search accented (sameKind accentWord) = [] ∧
      search accented (anyKind accentWord) = [(⟨"name", 3, 4, ⟨0, 3⟩, ⟨0, 4⟩⟩, "é")] := by
  have hstall : ∀ n : Int, (some 1 : StallLimit) = some n → 1 ≤ n := by
    rintro n ⟨⟩
    decide
  exact ⟨looksExactly Script accented accentWord (by decide) hstall, by decide +kernel,
    by decide +kernel⟩

/-- The first byte of `é`, as a name. -/
def halfAccent : Harvest where
  bytes := [0xC3, 0xA9]
  spans := [⟨"name", 0, 1, ⟨0, 0⟩, ⟨0, 1⟩⟩]
  path := none
  language := "rust"

/-- There is no candidate for this name at all, but its text is read before that shows. -/
theorem halfAccent_fails :
    accentWord.candidates "name" = [] ∧ search halfAccent (sameKind accentWord) = [] ∧
      ∀ patience (start : Counted Script),
        ¬Pass.Abstains (fromCorpus patience halfAccent accentWord (1 : Nat) (some 100)) start := by
  -- A first byte alone is no text.
  have hunreadable : ¬halfAccent.Readable := by
    intro hreadable
    obtain ⟨own, hown⟩ := hreadable _ List.mem_cons_self
    have hnone : (halfAccent.textOf ⟨"name", 0, 1, ⟨0, 0⟩, ⟨0, 1⟩⟩).toOption = none := by
      decide +kernel
    rw [hown] at hnone
    cases hnone
  refine ⟨by decide +kernel, by decide +kernel, fun patience start habstains => hunreadable ?_⟩
  rw [fromCorpus_of_pos (Nat.le_refl 1)] at habstains
  exact ((abstains_sameKind_iff (onlyAsks_drawSameKind accentWord) (Nat.le_refl 1) rfl patience
    start).mp habstains).1

end Splice

end SourceMutation
