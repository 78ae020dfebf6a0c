import SourceMutation.Proofs.FreeChoices

/-!
# How a pass over a source fails

A pass is refused before it does anything, which leaves the source of numbers as it was
(`Mode.mutants_of_refusal`), or else it fails only where the text of a span cannot be read or
replaced (`Mode.failsBy_mutants`).  In particular it never chooses from nothing: the looks before
the first draw see to that.

So a pass over spans between characters fails only if it is refused, and a bad count is a refusal.

## How it is shown

The ways to fail are a set that is passed on from part to part.

- A computation with chance fails in some ways only if its parts do (`Chance.failsBy_bind`).
  Choosing from a list does not fail at all if there is something in it (`Chance.failsBy_pick`).
- A harvest fails in the ways in which mutants of its spans cannot be made (`Harvest.FailsBy`).
- The looks before the first draw fail where the text of a span cannot be read
  (`failure_of_hasSameKindCandidate` and those behind it), and if they succeed, there is something
  to choose from.
-/

namespace SourceMutation

variable {σ α β : Type} {S : Failure → Prop}

/-! ## Computations that fail in some ways only

A failure is followed from where it arises: a computation fails as one of its parts does, where that
part is reached.
-/

namespace Chance

/-- Whether a computation fails only in some ways, wherever it starts. -/
def FailsBy (S : Failure → Prop) (m : Chance σ α) : Prop :=
  ∀ state failure, (m state).1 = .error (.failed failure) → S failure

theorem failsBy_pure (a : α) : FailsBy S (pure a : Chance σ α) := nofun

/-- The second part matters for what the first one can return. -/
theorem failsBy_bind {m : Chance σ α} {f : α → Chance σ β} (hm : FailsBy S m)
    (hf : ∀ a, (∃ state state', m state = (.ok a, state')) → FailsBy S (f a)) :
    FailsBy S (m >>= f) := by
  intro state failure h
  rw [bind_apply] at h
  cases hrun : m state with
  | mk result between =>
    rw [hrun] at h
    cases result with
    | error stop =>
      cases h
      apply hm state failure
      rw [hrun]
    | ok a => exact hf a ⟨state, between, hrun⟩ between failure h

/-- Failing in one of the ways is failing in these ways only. -/
theorem failsBy_fail {failure : Failure} (h : S failure) :
    FailsBy S (fail failure : Chance σ α) := by
  intro state other heq
  cases heq
  exact h

/-- A result that is given fails as it fails. -/
theorem failsBy_ofExcept {result : Except Failure α} (h : ∀ failure, result = .error failure →
    S failure) : FailsBy S (ofExcept result : Chance σ α) := by
  cases result with
  | error failure => exact failsBy_fail (h failure rfl)
  | ok a => exact failsBy_pure a

variable [Chooser σ]

/-- Drawing a number does not fail. -/
theorem failsBy_below (bound : Nat) : FailsBy S (below bound : Chance σ (Fin bound)) := by
  intro state failure h
  rw [below] at h
  split at h <;> cases h

/-- Something can be picked wherever there is something. -/
theorem failsBy_pick {items : List α} (hitems : items ≠ []) :
    FailsBy S (pick items : Chance σ α) := by
  cases items with
  | nil => exact absurd rfl hitems
  | cons item rest => exact failsBy_bind (failsBy_below _) fun i _ => failsBy_pure _

end Chance

namespace Sample

variable [Chooser σ]

/-- Drawing from a pool does not fail, since the pool has as many places as are drawn from. -/
theorem failsBy_fromPool (k : Nat) (pool : List α) :
    (fromPool k pool : Chance σ (List α)).FailsBy S := by
  induction k generalizing pool with
  | zero => exact Chance.failsBy_pure []
  | succ k ih =>
    refine Chance.failsBy_bind (Chance.failsBy_below _) fun i _ => ?_
    exact Chance.failsBy_bind (ih _) fun rest _ => Chance.failsBy_pure _

/-- Looking for an unused place does not fail. -/
theorem failsBy_unusedPlace (size : Nat) (used : List Nat) (fuel : Nat) :
    (unusedPlace size used fuel : Chance σ (Fin size)).FailsBy S := by
  induction fuel with
  | zero => exact nofun
  | succ fuel ih =>
    refine Chance.failsBy_bind (Chance.failsBy_below _) fun i _ => ?_
    split
    · exact ih
    · exact Chance.failsBy_pure i

/-- A sample may run out of numbers, and that is all. -/
theorem failsBy_ofList (patience : Nat) (items : List α) (k : Nat) :
    (ofList patience items k : Chance σ (List α)).FailsBy S := by
  have hunused : ∀ k used, (fromUnused patience items k used : Chance σ (List α)).FailsBy S := by
    intro k
    induction k with
    | zero => exact fun used => Chance.failsBy_pure []
    | succ k ih =>
      intro used
      refine Chance.failsBy_bind (failsBy_unusedPlace _ _ _) fun i _ => ?_
      exact Chance.failsBy_bind (ih _) fun rest _ => Chance.failsBy_pure _
  rw [ofList]
  split
  · exact failsBy_fromPool k items
  · exact hunused k []

end Sample

/-! ## Spans that can be read and replaced -/

/-- Whether the spans of a harvest fail only in some ways to be read and replaced. -/
def Harvest.FailsBy (S : Failure → Prop) (harvest : Harvest) : Prop :=
  ∀ span ∈ harvest.spans, ∀ index replacement failure,
    Mutant.make harvest index span replacement = .error failure → S failure

namespace Harvest

variable {harvest : Harvest} {span : Span} {failure : Failure}

/-- A span that cannot be read cannot be replaced, either. -/
theorem FailsBy.textOf (h : harvest.FailsBy S) (hspan : span ∈ harvest.spans)
    (htext : harvest.textOf span = .error failure) : S failure := by
  apply h span hspan 0 default failure
  rw [Mutant.make, htext]
  rfl

/-- A text that is checked for a span and then decoded fails for the span or for the bytes. -/
theorem category_of_check_bind {bytes : Bytes}
    (h : (do harvest.check span; (Utf8.decode bytes).mapError .decoding : Except Failure String)
      = .error failure) : failure.category = .spanOwnership ∨ failure.category = .decoding := by
  rw [check] at h
  split at h
  · cases hdecode : Utf8.decode bytes with
    | ok text =>
      rw [hdecode] at h
      cases h
    | error fault =>
      rw [hdecode] at h
      cases h
      exact .inr rfl
  · cases h
    exact .inl rfl

/-- A span that does not fit is refused as such, and bytes that are no text as these. -/
theorem failsBy_category (harvest : Harvest) :
    harvest.FailsBy fun failure =>
      failure.category = .spanOwnership ∨ failure.category = .decoding := by
  intro span _ index replacement failure hmake
  rw [Mutant.make] at hmake
  -- A mutant is made of the text of its span and of the text with the span replaced.
  cases htext : harvest.textOf span with
  | error other =>
    rw [htext] at hmake
    cases hmake
    exact category_of_check_bind htext
  | ok own =>
    cases hsubstitute : harvest.substitute span replacement.text with
    | error other =>
      rw [htext, hsubstitute] at hmake
      cases hmake
      exact category_of_check_bind hsubstitute
    | ok text =>
      rw [htext, hsubstitute] at hmake
      cases hmake

/-- Spans between characters can all be read and replaced. -/
theorem failsBy_of_cuts {text : String} (htext : harvest.text = .ok text)
    (hcuts : ∀ span ∈ harvest.spans, span.Cuts text) : harvest.FailsBy fun _ => False := by
  intro span hspan index replacement failure hmake
  obtain ⟨mutant, hmutant⟩ := exists_make htext (hcuts span hspan) index replacement
  cases hmutant.symm.trans hmake

end Harvest

/-- A list of pairs fails where the mutant of a pair cannot be made. -/
theorem Draft.failure_of_ofList {harvest : Harvest} {index : Nat}
    {pairs : List (Span × Replacement)} {failure : Failure}
    (h : (ofList harvest index pairs).ending = .stopped (.failed failure)) :
    ∃ pair ∈ pairs, ∃ index, Mutant.make harvest index pair.1 pair.2 = .error failure := by
  induction pairs generalizing index with
  | nil => cases h
  | cons pair rest ih =>
    obtain ⟨span, replacement⟩ := pair
    rw [ofList] at h
    cases hmake : Mutant.make harvest index span replacement with
    | error other =>
      rw [hmake] at h
      cases h
      exact ⟨_, List.mem_cons_self, index, hmake⟩
    -- This mutant was made, so it is a later one that cannot be.
    | ok mutant =>
      rw [hmake] at h
      obtain ⟨pair, hpair, hfails⟩ := ih h
      exact ⟨pair, List.mem_cons_of_mem _ hpair, hfails⟩

/-! ## Passes that fail in some ways only -/

/-- Whether a pass fails only in some ways, wherever it starts. -/
def Pass.FailsBy (S : Failure → Prop) (pass : Pass σ) : Prop :=
  ∀ state failure, (pass state).1.ending = .stopped (.failed failure) → S failure

/-- A pass that goes on from a computation fails as that computation does, or as what comes next. -/
theorem Pass.failsBy_ofChance {m : Chance σ α} {next : α → Pass σ} (hm : m.FailsBy S)
    (hnext : ∀ a, (∃ state state', m state = (.ok a, state')) → (next a).FailsBy S) :
    (Pass.ofChance m next).FailsBy S := by
  intro state failure h
  rw [Pass.ofChance] at h
  cases hrun : m state with
  | mk result between =>
    rw [hrun] at h
    cases result with
    | error stop =>
      cases h
      apply hm state failure
      rw [hrun]
    | ok a => exact hnext a ⟨state, between, hrun⟩ between failure h

namespace DrawLoop

variable [Chooser σ] {harvest : Harvest} {draw : Draw σ}

/-- One draw fails as the draw of a candidate does, or as the making of a mutant. -/
theorem failsBy_once (hharvest : harvest.FailsBy S) (hspans : harvest.spans ≠ [])
    (hdraw : ∀ span ∈ harvest.spans, (draw span).FailsBy S) (index : Nat) :
    (once harvest draw index).FailsBy S := by
  refine Chance.failsBy_bind (Chance.failsBy_pick hspans) fun span hpicked => ?_
  obtain ⟨state, state', hpick⟩ := hpicked
  have hspan : span ∈ harvest.spans := Chance.mem_of_pick hpick
  refine Chance.failsBy_bind (hdraw span hspan) fun drawn _ => ?_
  -- Without a candidate nothing is made.
  cases drawn with
  | none => exact Chance.failsBy_pure none
  | some replacement =>
    refine Chance.failsBy_bind (Chance.failsBy_ofExcept fun failure htext =>
      hharvest.textOf hspan htext) fun own _ => ?_
    split
    · exact Chance.failsBy_bind (Chance.failsBy_ofExcept fun failure hmake =>
        hharvest span hspan index replacement failure hmake) fun mutant _ => Chance.failsBy_pure _
    · exact Chance.failsBy_pure none

/-- The draw loop fails as its draws do. -/
theorem failsBy_more (hharvest : harvest.FailsBy S) (hspans : harvest.spans ≠ [])
    (hdraw : ∀ span ∈ harvest.spans, (draw span).FailsBy S) (stall : StallLimit)
    (fuel missing made attempts : Nat) :
    Pass.FailsBy S (more harvest draw stall fuel missing made attempts) := by
  -- The induction follows the draws: each spends one, whether it is accepted or not.
  induction fuel generalizing missing made attempts with
  | zero =>
    cases missing with
    | zero => exact nofun
    | succ missing => exact nofun
  | succ fuel ih =>
    cases missing with
    | zero => exact nofun
    | succ missing =>
      intro state failure h
      rw [more] at h
      split at h
      case isTrue => cases h
      case isFalse =>
        dsimp only at h
        split at h
        -- A draw that is not accepted, one that is, and one that ends the pass.
        case h_1 between _ => exact ih (missing + 1) made (attempts + 1) between failure h
        case h_2 mutant between _ => exact ih missing (made + 1) (attempts + 1) between failure h
        case h_3 stop between honce =>
          cases h
          apply failsBy_once hharvest hspans hdraw (made + 1) state failure
          rw [honce]

/-- A pass of draws fails as its draws do: without spans it draws nothing. -/
theorem failsBy_mutants (hharvest : harvest.FailsBy S)
    (hdraw : ∀ span ∈ harvest.spans, (draw span).FailsBy S) (patience : Nat) (count : Int)
    (stall : StallLimit) : (mutants patience harvest count draw stall).FailsBy S := by
  rw [mutants]
  split
  case isTrue =>
    intro state failure h
    cases h
  case isFalse hspans =>
    exact failsBy_more hharvest (by simpa using hspans) hdraw stall patience count.toNat 0 0

end DrawLoop

namespace Splice

variable {harvest : Harvest} {corpus : Corpus} {failure : Failure}

/-! ### Looks before the first draw -/

/-- The look for candidates of the same kind fails at the text of a span. -/
theorem failure_of_hasSameKindCandidate {spans : List Span}
    (h : hasSameKindCandidate harvest corpus spans = .error failure) :
    ∃ span ∈ spans, harvest.textOf span = .error failure := by
  induction spans with
  | nil => cases h
  | cons span rest ih =>
    rw [hasSameKindCandidate] at h
    cases htext : harvest.textOf span with
    | error other =>
      rw [htext] at h
      cases h
      exact ⟨span, List.mem_cons_self, htext⟩
    | ok own =>
      rw [htext] at h
      -- The text was read, so the look has found something here or goes on.
      change (if _ then (pure true : Except Failure Bool) else _) = _ at h
      split at h
      · cases h
      · obtain ⟨other, hother, hfails⟩ := ih h
        exact ⟨other, List.mem_cons_of_mem _ hother, hfails⟩

/-- The look for another text fails at the text of a span. -/
theorem failure_of_someTextOtherThan {text : String} {spans : List Span}
    (h : someTextOtherThan harvest text spans = .error failure) :
    ∃ span ∈ spans, harvest.textOf span = .error failure := by
  induction spans with
  | nil => cases h
  | cons span rest ih =>
    rw [someTextOtherThan] at h
    cases htext : harvest.textOf span with
    | error other =>
      rw [htext] at h
      cases h
      exact ⟨span, List.mem_cons_self, htext⟩
    | ok own =>
      rw [htext] at h
      -- The text was read, so the look goes on if it is the same one.
      change (if _ then _ else (pure true : Except Failure Bool)) = _ at h
      split at h
      · obtain ⟨other, hother, hfails⟩ := ih h
        exact ⟨other, List.mem_cons_of_mem _ hother, hfails⟩
      · cases h

/-- The look for candidates of any kind fails at the text of a span. -/
theorem failure_of_hasAnyKindCandidate (h : hasAnyKindCandidate harvest corpus = .error failure) :
    ∃ span ∈ harvest.spans, harvest.textOf span = .error failure := by
  rw [hasAnyKindCandidate] at h
  split at h
  · cases h
  · split at h
    · exact failure_of_someTextOtherThan h
    · cases h

/-- Where the look over all kinds finds something, there are kinds to choose from. -/
theorem kinds_ne_nil_of_hasAnyKindCandidate (h : hasAnyKindCandidate harvest corpus = .ok true) :
    corpus.kinds ≠ [] := by
  intro hkinds
  rw [hasAnyKindCandidate, snippets, hkinds] at h
  cases h

/-- The listing of pairs fails at the text of a span. -/
theorem failure_of_pairs {spans : List Span} (h : pairs harvest corpus spans = .error failure) :
    ∃ span ∈ spans, harvest.textOf span = .error failure := by
  induction spans with
  | nil => cases h
  | cons span rest ih =>
    rw [pairs] at h
    cases htext : harvest.textOf span with
    | error other =>
      rw [htext] at h
      cases h
      exact ⟨span, List.mem_cons_self, htext⟩
    -- The text of the first span was read, so it is a later one that cannot be.
    | ok own =>
      cases hrest : pairs harvest corpus rest with
      | error other =>
        rw [htext, hrest] at h
        cases h
        obtain ⟨other, hother, hfails⟩ := ih hrest
        exact ⟨other, List.mem_cons_of_mem _ hother, hfails⟩
      | ok later =>
        rw [htext, hrest] at h
        cases h

/-- Adding spans to a corpus fails at the text of a span. -/
theorem failure_of_addSpans {added : Nat} {spans : List Span}
    (h : (Corpus.addSpans harvest added spans corpus).1 = .error failure) :
    ∃ span ∈ spans, harvest.textOf span = .error failure := by
  obtain ⟨before, span, later, -, rfl, hfails, -⟩ :=
    Corpus.addSpans_eq_error_iff.mp (Prod.ext h rfl)
  exact ⟨span, by simp, hfails⟩

/-- A source has no corpus of its own if the text of a span cannot be read. -/
theorem failure_of_ofSource (h : Corpus.ofSource harvest = .error failure) :
    ∃ span ∈ harvest.spans, harvest.textOf span = .error failure := by
  rw [Corpus.ofSource] at h
  split at h
  case h_1 => cases h
  case h_2 other corpus hadded =>
    cases h
    exact failure_of_addSpans (congrArg Prod.fst hadded)

/-! ### Draws -/

section Draws

variable [Chooser σ] {span : Span}

/-- A draw from candidates that are there does not fail. -/
theorem failsBy_drawOwnKind (h : corpus.candidates span.kind ≠ []) :
    (drawOwnKind corpus span : Chance σ _).FailsBy S :=
  Chance.failsBy_bind (Chance.failsBy_pick h) fun _ _ => Chance.failsBy_pure _

/-- A draw of the same kind does not fail, since it looks first whether there are any. -/
theorem failsBy_drawSameKind (corpus : Corpus) (span : Span) :
    (drawSameKind corpus span : Chance σ _).FailsBy S := by
  by_cases h : corpus.candidates span.kind = []
  · rw [drawSameKind, h]
    exact Chance.failsBy_pure none
  · rw [drawSameKind_eq h]
    exact failsBy_drawOwnKind h

/-- A draw of any kind does not fail where there are kinds. -/
theorem failsBy_drawAnyKind (h : corpus.kinds ≠ []) (span : Span) :
    (drawAnyKind corpus span : Chance σ _).FailsBy S := by
  refine Chance.failsBy_bind (Chance.failsBy_pick h) fun kind _ => ?_
  split
  · exact Chance.failsBy_pure none
  case h_2 candidates hcandidates =>
    exact Chance.failsBy_bind (Chance.failsBy_pick hcandidates) fun _ _ => Chance.failsBy_pure _

/-- A pass that looks before it draws fails as the look does, or as its draws do. -/
theorem failsBy_drawn (hharvest : harvest.FailsBy S) {draw : Draw σ}
    {possible : Except Failure Bool}
    (hpossible : ∀ failure, possible = .error failure → S failure)
    (hdraw : possible = .ok true → ∀ span ∈ harvest.spans, (draw span).FailsBy S)
    (patience count : Nat) (stall : StallLimit) :
    (drawn patience harvest count stall draw possible).FailsBy S := by
  intro state failure h
  rcases possible with other | _ | _
  · cases h
    exact hpossible failure rfl
  · cases h
  · exact DrawLoop.failsBy_mutants hharvest (hdraw rfl) patience count stall state failure h

/-! ### Passes that are not refused -/

variable {count : Int} {n : Nat}

/-- Splices with a source's own texts fail only where spans do. -/
theorem failsBy_fromSelf (hharvest : harvest.FailsBy S) (hcount : checkCount count true = .ok n)
    (patience : Nat) (stall : StallLimit) :
    Pass.FailsBy S (fromSelf (σ := σ) patience harvest count stall) := by
  intro state failure h
  simp only [fromSelf, hcount] at h
  cases hown : Corpus.ofSource harvest with
  | error other =>
    rw [hown] at h
    cases h
    obtain ⟨span, hspan, htext⟩ := failure_of_ofSource hown
    exact hharvest.textOf hspan htext
  | ok own =>
    simp only [hown] at h
    split at h
    · split at h
      case h_1 other hpairs =>
        cases h
        obtain ⟨span, hspan, htext⟩ := failure_of_pairs hpairs
        exact hharvest.textOf hspan htext
      case h_2 found hpairs =>
        obtain ⟨pair, hpair, index, hmake⟩ := Draft.failure_of_ofList h
        obtain ⟨hspan, -⟩ := pairs_offered hpairs pair hpair
        exact hharvest pair.1 hspan index pair.2 failure hmake
    · -- The source's own corpus has the text of every span, so that each draw finds something.
      refine failsBy_drawn hharvest (fun other hlook => ?_) (fun _ span hspan => ?_) patience n
        stall state failure h
      · obtain ⟨span, hspan, htext⟩ := failure_of_hasSameKindCandidate hlook
        exact hharvest.textOf hspan htext
      · obtain ⟨text, -, hlisted⟩ := Corpus.exists_mem_candidates_of_ofSource hown hspan
        exact failsBy_drawOwnKind (List.ne_nil_of_mem hlisted)

/-- Splices with the texts of a corpus fail only where spans do. -/
theorem failsBy_fromCorpus (hharvest : harvest.FailsBy S)
    (hcount : checkCount count false = .ok n) (patience : Nat) (stall : StallLimit) :
    Pass.FailsBy S (fromCorpus (σ := σ) patience harvest corpus count stall) := by
  intro state failure h
  simp only [fromCorpus, hcount] at h
  refine failsBy_drawn hharvest (fun other hlook => ?_)
    (fun _ span _ => failsBy_drawSameKind corpus span) patience n stall state failure h
  obtain ⟨span, hspan, htext⟩ := failure_of_hasSameKindCandidate hlook
  exact hharvest.textOf hspan htext

/-- Splices with texts of any kind fail only where spans do. -/
theorem failsBy_fromAnyKind (hharvest : harvest.FailsBy S)
    (hcount : checkCount count false = .ok n) (patience : Nat) (stall : StallLimit) :
    Pass.FailsBy S (fromAnyKind (σ := σ) patience harvest corpus count stall) := by
  intro state failure h
  simp only [fromAnyKind, hcount] at h
  refine failsBy_drawn hharvest (fun other hlook => ?_) (fun hfound span _ =>
    failsBy_drawAnyKind (kinds_ne_nil_of_hasAnyKindCandidate hfound) span) patience n stall state
      failure h
  obtain ⟨span, hspan, htext⟩ := failure_of_hasAnyKindCandidate hlook
  exact hharvest.textOf hspan htext

end Draws

end Splice

/-- Deletions fail only where spans do. -/
theorem Deletion.failsBy_mutants [Chooser σ] {harvest : Harvest} (hharvest : harvest.FailsBy S)
    {count : Int} {n : Nat} (hcount : checkCount count true = .ok n) (patience : Nat) :
    Pass.FailsBy S (mutants (σ := σ) patience harvest count) := by
  -- Whatever is deleted, it is spans of the source.
  have heach : ∀ {drawn : List Span} {failure : Failure}, (∀ span ∈ drawn, span ∈ spans harvest) →
      (each harvest drawn).ending = .stopped (.failed failure) → S failure := by
    intro drawn failure hdrawn hending
    obtain ⟨pair, hpair, index, hmake⟩ := Draft.failure_of_ofList hending
    obtain ⟨span, hspan, rfl⟩ := List.mem_map.mp hpair
    exact hharvest span (List.mem_filter.mp (hdrawn span hspan)).1 index _ failure hmake
  intro state failure h
  simp only [mutants, hcount] at h
  cases n with
  | zero => exact heach (fun span hspan => hspan) h
  -- Asked for some, the pass deletes those of a sample.
  | succ n =>
    refine Pass.failsBy_ofChance (Sample.failsBy_ofList _ _ _) (fun drawn hsample => ?_)
      state failure h
    obtain ⟨first, last, hdrawn⟩ := hsample
    intro between other hending
    exact heach (fun span hspan => Sample.mem_of_ofList hdrawn span hspan) hending

/-! ## Passes that are refused -/

/-- Why a pass is refused before it does anything, if it is. -/
def Mode.refusal? (mode : Mode) (count : Int) (corpus : Option Corpus) : Option Failure :=
  if mode.usesSharedCorpus && corpus.isNone then some (.corpusMissing mode)
  else
    match checkCount count (!mode.usesSharedCorpus) with
    | .error failure => some failure
    | .ok _ => none

namespace Mode

variable [Chooser σ] {mode : Mode} {patience : Nat} {harvest : Harvest} {count : Int}
  {corpus : Option Corpus} {stall : StallLimit} {failure : Failure}

omit [Chooser σ] in
/-- A pass that is not refused has a count, and a corpus if its mode needs one. -/
theorem refusal?_eq_none (h : mode.refusal? count corpus = none) :
    (∃ n, checkCount count (!mode.usesSharedCorpus) = .ok n) ∧
      (mode.usesSharedCorpus = true → ∃ shared, corpus = some shared) := by
  rw [refusal?] at h
  split at h
  case isTrue => cases h
  case isFalse hthere =>
    split at h
    case h_1 => cases h
    case h_2 n hcount =>
      refine ⟨⟨n, hcount⟩, fun hshared => Option.isSome_iff_exists.mp ?_⟩
      simpa [hshared, Option.isSome_iff_ne_none] using hthere

/-- A pass that is refused leaves the source of numbers as it was. -/
theorem mutants_of_refusal (h : mode.refusal? count corpus = some failure) (state : σ) :
    mode.mutants patience harvest count corpus stall state = (.failed failure, state) := by
  rw [refusal?] at h
  split at h
  -- There is no corpus, and only the modes that need one are refused for that.
  case isTrue hmissing =>
    cases h
    obtain ⟨hshared, hnone⟩ := Bool.and_eq_true_iff.mp hmissing
    rw [Option.isNone_iff_eq_none.mp hnone]
    cases mode with
    | deleteOnly | selfSplice => cases hshared
    | splice | spliceRandomKind => rfl
  -- The count is refused, which every mode looks at first.
  case isFalse hthere =>
    split at h
    case h_2 => cases h
    case h_1 other hcount =>
      cases h
      cases mode with
      | deleteOnly =>
        simp only [mutants, Deletion.mutants, show checkCount count true = _ from hcount]
      | selfSplice =>
        simp only [mutants, Splice.fromSelf, show checkCount count true = _ from hcount]
      | splice | spliceRandomKind =>
        cases corpus with
        | none => exact absurd rfl hthere
        | some shared =>
          simp only [mutants, Splice.fromCorpus, Splice.fromAnyKind,
            show checkCount count false = _ from hcount]

/-- A pass that is not refused fails only where a span cannot be read or replaced. -/
theorem failsBy_mutants (h : mode.refusal? count corpus = none) (hharvest : harvest.FailsBy S)
    (patience : Nat) (stall : StallLimit) :
    Pass.FailsBy S (mode.mutants (σ := σ) patience harvest count corpus stall) := by
  obtain ⟨⟨n, hcount⟩, hcorpus⟩ := refusal?_eq_none h
  cases mode with
  | deleteOnly => exact Deletion.failsBy_mutants hharvest hcount patience
  | selfSplice => exact Splice.failsBy_fromSelf hharvest hcount patience stall
  | splice =>
    obtain ⟨shared, rfl⟩ := hcorpus rfl
    exact Splice.failsBy_fromCorpus hharvest hcount patience stall
  | spliceRandomKind =>
    obtain ⟨shared, rfl⟩ := hcorpus rfl
    exact Splice.failsBy_fromAnyKind hharvest hcount patience stall

end Mode

end SourceMutation
