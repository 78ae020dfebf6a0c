import Mathlib.Data.List.Forall2
import SourceMutation.Proofs.Eligibility

/-!
# Where replacements come from

A splice with a corpus draws a span, a kind and a text of that kind, and its mutants tell which kind
it was.

- `Splice.Draws` is one draw and `Splice.Accepts` a sequence of them, with what was accepted.
- A pass that returns has accepted one drawing for each of its mutants (`Splice.accepts_more`), so
  that what a mutant tells can be compared with what was drawn for it (`Drawing.ToldBy`).
- Both are the same, except that a text of the kind without a name counts as one of the span's own
  kind (`Drawing.Makes.toldBy_iff`).  A draw by kind cannot tell the difference, and a draw from any
  kind can (`Splice.kindsTold`).

Both draws are one draw, with a choice of the kind to draw from: the kind of the span, or one of the
kinds of the corpus (`Splice.drawOf`).
-/

namespace SourceMutation

/-! ## Drawings -/

/-- What a draw brings: a span, and a text that stands under a kind. -/
structure Drawing where
  span : Span
  kind : String
  text : String
  deriving DecidableEq, Repr

/-- A mutant's line up to where a kind may be named. -/
def Mutant.plainLine (mutant : Mutant) : String :=
  s!"[{mutant.index}] {mutant.span.location} {mutant.span.kind}: "
    ++ s!"{mutant.replaced} -> {mutant.replacement}"

namespace Drawing

/-- Whether a mutant is made of a drawing. -/
def Makes (drawing : Drawing) (harvest : Harvest) (mutant : Mutant) : Prop :=
  ∃ index : Nat,
    Mutant.make harvest index drawing.span ⟨drawing.text, drawing.kind⟩ = .ok mutant

/-- What is to be said of a drawing's kind: nothing if it is the span's own. -/
def note (drawing : Drawing) : String :=
  if drawing.kind = drawing.span.kind then "" else s!" (from {drawing.kind})"

/-- Whether a mutant tells where its replacement was drawn from. -/
structure ToldBy (drawing : Drawing) (corpus : Corpus) (mutant : Mutant) : Prop where
  /-- It names a kind of the corpus. -/
  kind : mutant.replacementKind ∈ corpus.kinds
  /-- The replacement is a candidate of that kind. -/
  candidate : mutant.replacement ∈ corpus.candidates mutant.replacementKind
  /-- Its line names the kind that was drawn exactly if that is not the span's own. -/
  line : mutant.describe = mutant.plainLine ++ drawing.note

variable {drawing : Drawing} {harvest : Harvest} {corpus : Corpus} {mutant : Mutant}

theorem note_eq_empty_iff : drawing.note = "" ↔ drawing.kind = drawing.span.kind := by
  rw [note]
  split
  case isTrue heq => exact iff_of_true rfl heq
  case isFalse hne =>
    refine iff_of_false (fun hempty => ?_) hne
    rw [String.append_eq_empty_iff] at hempty
    exact absurd hempty.2 (by decide)

/-- A mutant's line is the plain one, with the kind it records if that is not the span's own. -/
theorem describe_eq (mutant : Mutant) :
    mutant.describe = mutant.plainLine
      ++ note ⟨mutant.span, mutant.replacementKind, mutant.replacement⟩ := by
  rw [Mutant.describe, note]
  split
  case isTrue => rw [String.append_empty]; rfl
  case isFalse => rfl

/-- A mutant records what it is made of, but for the kind without a name. -/
theorem Makes.records (h : drawing.Makes harvest mutant) :
    mutant.span = drawing.span ∧ mutant.replacement = drawing.text ∧
      mutant.replacementKind
        = if drawing.kind = "" then drawing.span.kind else drawing.kind := by
  obtain ⟨index, h⟩ := h
  obtain ⟨replaced, -, h⟩ := except_bind_eq_ok.mp h
  obtain ⟨text, -, h⟩ := except_bind_eq_ok.mp h
  cases h
  refine ⟨rfl, rfl, ?_⟩
  simp only [String.isEmpty_iff]

/-- A mutant tells where its replacement was drawn from, unless that is the kind without a name and
its span has another kind. -/
theorem Makes.toldBy_iff (h : drawing.Makes harvest mutant)
    (hlisted : drawing.text ∈ corpus.candidates drawing.kind) :
    drawing.ToldBy corpus mutant ↔ (drawing.kind = "" → drawing.span.kind = "") := by
  obtain ⟨hspan, htext, hkind⟩ := h.records
  constructor
  · intro htold hnameless
    -- The span's own kind is recorded, so that no other one is named.
    rw [if_pos hnameless] at hkind
    have hline := htold.line
    rw [describe_eq, note_eq_empty_iff.mpr (hkind.trans (congrArg Span.kind hspan).symm),
      String.append_empty, eq_comm, String.append_eq_left_iff, note_eq_empty_iff] at hline
    rw [← hline, hnameless]
  · intro hnamed
    have hsame : mutant.replacementKind = drawing.kind := by
      rw [hkind]
      split
      case isTrue hnameless => rw [hnamed hnameless, hnameless]
      case isFalse => rfl
    refine ⟨?_, ?_, ?_⟩
    · rw [hsame]
      exact Splice.mem_kinds_of_mem_candidates hlisted
    · rw [hsame, htext]
      exact hlisted
    · rw [describe_eq, hsame, hspan, htext]

end Drawing

/-! ## Draws -/

namespace Splice

variable {σ : Type} [Chooser σ]

/-- How the kind is chosen that a text is drawn from for a span. -/
abbrev KindChoice (σ : Type) := Span → Chance σ String

/-- The span's own kind. -/
def ownKind : KindChoice σ := fun span => return span.kind

/-- A kind of a corpus, whatever the span. -/
def someKind (corpus : Corpus) : KindChoice σ := fun _ => Chance.pick corpus.kinds

/-- Draws a kind, and a text of it if it has any. -/
def drawOf (choice : KindChoice σ) (corpus : Corpus) : Draw σ := fun span => do
  let kind ← choice span
  match corpus.candidates kind with
  | [] => return none
  | candidates => return some ⟨← Chance.pick candidates, kind⟩

theorem drawSameKind_eq_drawOf (corpus : Corpus) :
    drawSameKind (σ := σ) corpus = drawOf ownKind corpus := by
  funext span
  rfl

theorem drawAnyKind_eq_drawOf (corpus : Corpus) :
    drawAnyKind (σ := σ) corpus = drawOf (someKind corpus) corpus := rfl

section Sequences

variable (choice : KindChoice σ) (harvest : Harvest) (corpus : Corpus)

/-- One draw, from one state to the next, and what it brings. -/
inductive Draws (before : σ) : Option Drawing → σ → Prop
  /-- The kind has no texts. -/
  | idle {span : Span} {kind : String} {picked after : σ}
      (hspan : Chance.pick harvest.spans before = (.ok span, picked))
      (hkind : choice span picked = (.ok kind, after)) (hnone : corpus.candidates kind = []) :
      Draws before none after
  /-- A text of the kind. -/
  | drawn {span : Span} {kind text : String} {picked chosen after : σ}
      (hspan : Chance.pick harvest.spans before = (.ok span, picked))
      (hkind : choice span picked = (.ok kind, chosen))
      (htext : Chance.pick (corpus.candidates kind) chosen = (.ok text, after)) :
      Draws before (some ⟨span, kind, text⟩) after

/-- Draws one after another, and those of their drawings that change the source. -/
inductive Accepts : σ → List Drawing → σ → Prop
  | done (state : σ) : Accepts state [] state
  /-- The draw brings nothing, or what the span is already, or the empty text. -/
  | rejected {before between after : σ} {drawn : Option Drawing} {drawings : List Drawing}
      (hdraws : Draws choice harvest corpus before drawn between)
      (hsame : ∀ drawing ∈ drawn, ¬harvest.Changes drawing.span drawing.text)
      (hlater : Accepts between drawings after) : Accepts before drawings after
  | accepted {before between after : σ} {drawing : Drawing} {drawings : List Drawing}
      (hdraws : Draws choice harvest corpus before (some drawing) between)
      (hchanges : harvest.Changes drawing.span drawing.text)
      (hlater : Accepts between drawings after) : Accepts before (drawing :: drawings) after

end Sequences

variable {choice : KindChoice σ} {harvest : Harvest} {corpus : Corpus} {before after : σ}

/-- What is drawn is a candidate of the kind that it is drawn from. -/
theorem Draws.mem_candidates {drawing : Drawing}
    (h : Draws choice harvest corpus before (some drawing) after) :
    drawing.text ∈ corpus.candidates drawing.kind := by
  cases h with
  | drawn _ _ htext => exact Chance.mem_of_pick htext

/-- Each drawing that is accepted was drawn. -/
theorem Accepts.draws {drawings : List Drawing}
    (h : Accepts choice harvest corpus before drawings after) :
    ∀ drawing ∈ drawings, ∃ first second,
      Draws choice harvest corpus first (some drawing) second := by
  induction h with
  | done state => simp
  | rejected _ _ _ ih => exact ih
  | accepted hdraws _ _ ih => exact List.forall_mem_cons.mpr ⟨⟨_, _, hdraws⟩, ih⟩

/-! ### One draw of the loop -/

/-- What the loop draws for a span is a drawing, if it is anything. -/
theorem draws_of_drawOf {span : Span} {picked : σ} {drawn : Option Replacement}
    (hspan : Chance.pick harvest.spans before = (.ok span, picked))
    (h : drawOf choice corpus span picked = (.ok drawn, after)) :
    Draws choice harvest corpus before
      (drawn.map fun replacement => ⟨span, replacement.kind, replacement.text⟩) after := by
  obtain ⟨kind, chosen, hkind, h⟩ := Chance.bind_eq_ok.mp h
  cases hlisted : corpus.candidates kind with
  -- A kind without candidates ends the draw.
  | nil =>
    rw [hlisted] at h
    cases h
    exact .idle hspan hkind hlisted
  | cons first others =>
    rw [hlisted] at h
    obtain ⟨text, last, htext, h⟩ := Chance.bind_eq_ok.mp h
    cases h
    exact .drawn hspan hkind (hlisted ▸ htext)

/-- A draw without a mutant brings nothing that changes the source. -/
theorem draws_of_once_none {index : Nat}
    (h : DrawLoop.once harvest (drawOf choice corpus) index before = (.ok none, after)) :
    ∃ drawn, Draws choice harvest corpus before drawn after ∧
      ∀ drawing ∈ drawn, ¬harvest.Changes drawing.span drawing.text := by
  obtain ⟨span, picked, hspan, h⟩ := Chance.bind_eq_ok.mp h
  obtain ⟨drawn, second, hdrawn, h⟩ := Chance.bind_eq_ok.mp h
  have hdraws := draws_of_drawOf hspan hdrawn
  cases drawn with
  | none =>
    cases h
    exact ⟨none, hdraws, by simp⟩
  | some replacement =>
    obtain ⟨own, hown, h⟩ := Chance.ofExcept_bind_eq_ok.mp h
    split at h
    case isTrue =>
      obtain ⟨mutant, -, h⟩ := Chance.ofExcept_bind_eq_ok.mp h
      cases h
    -- The draw fell on a text that the span has already, or on the empty one.
    case isFalse hblocked =>
      cases h
      refine ⟨_, hdraws, ?_⟩
      rintro drawing ⟨⟩ ⟨hempty, other, hother, hne⟩
      obtain rfl : own = other := Except.ok.inj (hown.symm.trans hother)
      exact hblocked (isEligible_iff.mpr ⟨hempty, hne⟩)

/-- A draw with a mutant brings what the mutant is made of. -/
theorem draws_of_once_some {index : Nat} {mutant : Mutant}
    (h : DrawLoop.once harvest (drawOf choice corpus) index before = (.ok (some mutant), after)) :
    ∃ drawing, Draws choice harvest corpus before (some drawing) after ∧
      harvest.Changes drawing.span drawing.text ∧ drawing.Makes harvest mutant := by
  obtain ⟨span, picked, hspan, h⟩ := Chance.bind_eq_ok.mp h
  obtain ⟨drawn, second, hdrawn, h⟩ := Chance.bind_eq_ok.mp h
  have hdraws := draws_of_drawOf hspan hdrawn
  cases drawn with
  | none => cases h
  | some replacement =>
    obtain ⟨own, hown, h⟩ := Chance.ofExcept_bind_eq_ok.mp h
    split at h
    -- The mutant was made of what was drawn.
    case isTrue heligible =>
      obtain ⟨made, hmade, h⟩ := Chance.ofExcept_bind_eq_ok.mp h
      cases h
      obtain ⟨hempty, hother⟩ := isEligible_iff.mp heligible
      exact ⟨_, hdraws, ⟨hempty, own, hown, hother⟩, index, hmade⟩
    case isFalse => cases h

/-! ### The loop -/

/-- A loop that returns has made one mutant of each drawing that it accepted. -/
theorem accepts_more {stall : StallLimit} {fuel missing made attempts : Nat}
    {mutants : List Mutant}
    (h : (DrawLoop.more harvest (drawOf choice corpus) stall fuel missing made attempts
      before).1.result = .ok mutants) :
    ∃ drawings,
      Accepts choice harvest corpus before drawings
        (DrawLoop.more harvest (drawOf choice corpus) stall fuel missing made attempts before).2 ∧
      List.Forall₂ (fun drawing mutant => drawing.Makes harvest mutant) drawings mutants := by
  -- The induction follows the draws; a loop that returns has not failed in any of them.
  induction fuel generalizing missing made attempts before mutants with
  | zero =>
    cases missing with
    | zero =>
      cases h
      exact ⟨[], .done _, .nil⟩
    | succ missing => cases h
  | succ fuel ih =>
    cases missing with
    | zero =>
      cases h
      exact ⟨[], .done _, .nil⟩
    | succ missing =>
      by_cases hgives : made = 0 ∧ stall.exceededBy (attempts + 1)
      · rw [DrawLoop.more_gaveUp hgives] at h ⊢
        cases h
        exact ⟨[], .done _, .nil⟩
      · rcases honce : DrawLoop.once harvest (drawOf choice corpus) (made + 1) before with
          ⟨stop | (_ | mutant), between⟩
        · rw [DrawLoop.more_stop hgives honce] at h
          cases h
        · obtain ⟨drawn, hdraws, hsame⟩ := draws_of_once_none honce
          rw [DrawLoop.more_reject hgives honce] at h ⊢
          obtain ⟨drawings, haccepts, hmakes⟩ := ih h
          exact ⟨drawings, .rejected hdraws hsame haccepts, hmakes⟩
        · obtain ⟨drawing, hdraws, hchanges, hmade⟩ := draws_of_once_some honce
          rw [DrawLoop.more_accept hgives honce] at h ⊢
          obtain ⟨others, hothers, rfl⟩ := Draft.result_of_after h
          obtain ⟨drawings, haccepts, hmakes⟩ := ih hothers
          exact ⟨drawing :: drawings, .accepted hdraws hchanges haccepts, .cons hmade hmakes⟩

/-- So has a pass that looks first whether any draw could be accepted. -/
theorem accepts_drawn {patience count : Nat} {stall : StallLimit}
    {possible : Except Failure Bool} {mutants : List Mutant}
    (h : (drawn patience harvest count stall (drawOf choice corpus) possible before).1.result
      = .ok mutants) :
    ∃ drawings,
      Accepts choice harvest corpus before drawings
        (drawn patience harvest count stall (drawOf choice corpus) possible before).2 ∧
      List.Forall₂ (fun drawing mutant => drawing.Makes harvest mutant) drawings mutants := by
  -- The look failed, found nothing, or found something; only then anything is drawn.
  rcases possible with failure | (_ | _)
  · cases h
  · cases h
    exact ⟨[], .done _, .nil⟩
  · simp only [drawn, DrawLoop.mutants] at h ⊢
    split at h
    case isTrue hspans =>
      cases h
      rw [if_pos hspans]
      exact ⟨[], .done _, .nil⟩
    case isFalse hspans =>
      rw [if_neg hspans]
      exact accepts_more h

/-- Each mutant of a pass that returns tells where its replacement was drawn from, but for a text of
the kind without a name. -/
theorem told_of_drawn {patience count : Nat} {stall : StallLimit}
    {possible : Except Failure Bool} {mutants : List Mutant}
    (h : (drawn patience harvest count stall (drawOf choice corpus) possible before).1.result
      = .ok mutants) :
    ∃ drawings,
      Accepts choice harvest corpus before drawings
        (drawn patience harvest count stall (drawOf choice corpus) possible before).2 ∧
      List.Forall₂ (fun drawing mutant =>
        (∃ first second, Draws choice harvest corpus first (some drawing) second) ∧
          drawing.Makes harvest mutant ∧
          (drawing.ToldBy corpus mutant ↔ (drawing.kind = "" → drawing.span.kind = "")))
        drawings mutants := by
  obtain ⟨drawings, haccepts, hmakes⟩ := accepts_drawn h
  have hboth := (List.forall₂_and_left _ _).mpr ⟨haccepts.draws, hmakes⟩
  refine ⟨drawings, haccepts, hboth.imp ?_⟩
  -- What a mutant tells of its kind is decided by the kind that was drawn.
  rintro drawing mutant ⟨⟨first, second, hdraws⟩, hmade⟩
  exact ⟨⟨first, second, hdraws⟩, hmade, hmade.toldBy_iff hdraws.mem_candidates⟩

/-! ## What the splices tell

The one kind that is never told is the kind without a name, since it is taken for no kind at all.
-/

/-- What the mutants of a splice with a corpus tell of the drawings that they are made of. -/
structure KindsTold (σ : Type) [Chooser σ] (patience : Nat) (harvest : Harvest) (corpus : Corpus)
    (count : Int) (stall : StallLimit) : Prop where
  /-- By kind, each tells where its replacement was drawn from. -/
  fromCorpus : ∀ (start : σ) mutants,
    (fromCorpus patience harvest corpus count stall start).1.result = .ok mutants →
    ∃ drawings,
      Accepts ownKind harvest corpus start drawings
        (fromCorpus patience harvest corpus count stall start).2 ∧
      List.Forall₂ (fun drawing mutant =>
        drawing.Makes harvest mutant ∧ drawing.ToldBy corpus mutant) drawings mutants
  /-- From any kind, each does but those that put a text of the kind without a name in the place of
  a span of another kind. -/
  fromAnyKind : ∀ (start : σ) mutants,
    (fromAnyKind patience harvest corpus count stall start).1.result = .ok mutants →
    ∃ drawings,
      Accepts (someKind corpus) harvest corpus start drawings
        (fromAnyKind patience harvest corpus count stall start).2 ∧
      List.Forall₂ (fun drawing mutant =>
        drawing.Makes harvest mutant ∧
          (drawing.ToldBy corpus mutant ↔ (drawing.kind = "" → drawing.span.kind = "")))
        drawings mutants

/-- A draw by kind draws from the span's own kind. -/
theorem Draws.kind_eq {drawing : Drawing}
    (h : Draws ownKind harvest corpus before (some drawing) after) :
    drawing.kind = drawing.span.kind := by
  cases h with
  | drawn _ hkind _ =>
    cases hkind
    rfl

/--
The splices with a corpus tell where their replacements were drawn from, whatever the source, the
corpus and the numbers are, except that a text of the kind without a name counts as one of the
span's own kind.
-/
theorem kindsTold (σ : Type) [Chooser σ] (patience : Nat) (harvest : Harvest) (corpus : Corpus)
    (count : Int) (stall : StallLimit) : KindsTold σ patience harvest corpus count stall where
  fromCorpus start mutants h := by
    simp only [Splice.fromCorpus, drawSameKind_eq_drawOf] at h ⊢
    cases hcount : checkCount count false with
    | error failure =>
      rw [hcount] at h
      cases h
    | ok count =>
      rw [hcount] at h
      obtain ⟨drawings, haccepts, htold⟩ := told_of_drawn h
      refine ⟨drawings, haccepts, htold.imp ?_⟩
      rintro drawing mutant ⟨⟨first, second, hdraws⟩, hmade, htells⟩
      refine ⟨hmade, htells.mpr fun hnameless => ?_⟩
      -- Here the kind that was drawn is that of the span.
      rw [← hdraws.kind_eq, hnameless]
  fromAnyKind start mutants h := by
    simp only [Splice.fromAnyKind, drawAnyKind_eq_drawOf] at h ⊢
    cases hcount : checkCount count false with
    | error failure =>
      rw [hcount] at h
      cases h
    | ok count =>
      rw [hcount] at h
      obtain ⟨drawings, haccepts, htold⟩ := told_of_drawn h
      exact ⟨drawings, haccepts, htold.imp fun drawing mutant => And.right⟩

/-- Two names. -/
def twoNames : Harvest where
  bytes := [0x61, 0x20, 0x62]
  spans := [⟨"name", 0, 1, ⟨0, 0⟩, ⟨0, 1⟩⟩, ⟨"name", 2, 3, ⟨0, 2⟩, ⟨0, 3⟩⟩]
  path := none
  language := "rust"

/-- Texts under two kinds with a name and under the one without. -/
def threeKinds : Corpus := Corpus.ofLedger ⟨[("name", ["b"]), ("word", ["b", "c"]), ("", ["d"])]⟩

/-- The names are replaced by a name, by a word and by a text without a kind, and the first two of
the mutants tell it. -/
theorem threeKinds_told :
    ∃ drawings mutants,
      Accepts (someKind threeKinds) twoNames threeKinds (⟨[0, 0, 1, 1, 1, 2, 0, 2, 1]⟩ : Script)
        drawings ⟨[]⟩ ∧
      mutants.map Mutant.describe = ["[1] (0, 0)-(0, 1) name: a -> b",
        "[2] (0, 2)-(0, 3) name: b -> c (from word)", "[3] (0, 0)-(0, 1) name: a -> d"] ∧
      List.Forall₂ (fun drawing mutant =>
        drawing.Makes twoNames mutant ∧
          (drawing.ToldBy threeKinds mutant ↔ (drawing.kind = "" → drawing.span.kind = "")))
        drawings mutants := by
  have hlines : (fromAnyKind 3 twoNames threeKinds 3 (some 100)
      (⟨[0, 0, 1, 1, 1, 2, 0, 2, 1]⟩ : Script)).1.result.toOption.map (List.map Mutant.describe)
        = some ["[1] (0, 0)-(0, 1) name: a -> b",
          "[2] (0, 2)-(0, 3) name: b -> c (from word)", "[3] (0, 0)-(0, 1) name: a -> d"] := by
    decide +kernel
  have hrest : (fromAnyKind 3 twoNames threeKinds 3 (some 100)
      (⟨[0, 0, 1, 1, 1, 2, 0, 2, 1]⟩ : Script)).2 = ⟨[]⟩ := by
    decide +kernel
  -- What is known of the mutants are their lines, so the result is taken apart first.
  cases hresult : (fromAnyKind 3 twoNames threeKinds 3 (some 100)
      (⟨[0, 0, 1, 1, 1, 2, 0, 2, 1]⟩ : Script)).1.result with
  | error stop =>
    rw [hresult] at hlines
    cases hlines
  | ok mutants =>
    rw [hresult] at hlines
    obtain ⟨drawings, haccepts, htold⟩ :=
      (kindsTold Script 3 twoNames threeKinds 3 (some 100)).fromAnyKind _ mutants hresult
    rw [hrest] at haccepts
    exact ⟨drawings, mutants, haccepts, Option.some.inj hlines, htold⟩

/-- One identifier. -/
def oneIdentifier : Harvest where
  bytes := [0x61]
  spans := [⟨"id", 0, 1, ⟨0, 0⟩, ⟨0, 1⟩⟩]
  path := none
  language := "rust"

/-- A corpus with the kind without a name alone. -/
def namelessKind : Corpus := Corpus.ofLedger ⟨[("", ["x"])]⟩

/-- The identifier is replaced by a text of the kind without a name.  The mutant records a kind that
the corpus does not have, and does not name the one that the text was drawn from. -/
theorem namelessKind_untold :
    Accepts (someKind namelessKind) oneIdentifier namelessKind (⟨[0, 0, 1]⟩ : Script)
        [⟨⟨"id", 0, 1, ⟨0, 0⟩, ⟨0, 1⟩⟩, "", "x"⟩] ⟨[]⟩ ∧
      (fromAnyKind 1 oneIdentifier namelessKind 1 (some 100) (⟨[0, 0, 1]⟩ : Script)
        ).1.result.toOption.map (List.map fun mutant => (mutant.replacementKind, mutant.describe))
          = some [("id", "[1] (0, 0)-(0, 1) id: a -> x")] ∧
      namelessKind.kinds = [""] ∧ namelessKind.candidates "id" = [] := by
  have hchanges : oneIdentifier.Changes ⟨"id", 0, 1, ⟨0, 0⟩, ⟨0, 1⟩⟩ "x" :=
    ⟨by decide, "a", Harvest.textOf_eq_ok_iff.mpr (by decide), by decide⟩
  exact ⟨.accepted (.drawn rfl rfl rfl) hchanges (.done _), by decide +kernel⟩

end Splice

end SourceMutation
