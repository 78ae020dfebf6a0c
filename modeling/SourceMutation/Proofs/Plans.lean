import SourceMutation.Proofs.Effects

/-!
# Settings that pass

A plan has each part as the check of that part of the settings left it (`Settings.check_eq_ok_iff`).
So a plan that takes the texts of all sources has a count, and the same settings pass with the texts
of each source only (`Settings.check_inMode`).
-/

namespace SourceMutation

/-- Settings with another mode. -/
def Settings.inMode (settings : Settings) (mode : Mode) : Settings :=
  { settings with mode := .int mode.number }

/-- A plan with another mode. -/
def Plan.inMode (plan : Plan) (mode : Mode) : Plan := { plan with mode }

/-- The rules of a plan's scans. -/
def Plan.rules (plan : Plan) : Except Failure ScanRules :=
  ScanRules.ofValues (.texts plan.language.suffixes) (.texts plan.ignorePatterns)

namespace Settings

variable {settings : Settings} {tree : FileTree} {plan : Plan}

/-- Whether each part of a plan is what the settings ask for. -/
structure Passes (settings : Settings) (tree : FileTree) (plan : Plan) : Prop where
  mode : checkMode settings.mode = .ok plan.mode
  count : checkCount plan.mode settings.count = .ok plan.count
  language : Grammars.checkLanguage settings.language = .ok plan.language
  maxLines : checkMaxLines settings.maxLines = .ok plan.maxLines
  stallLimit : checkStallLimit settings.stallLimit = .ok plan.stallLimit
  ignorePatterns : checkIgnorePatterns settings.ignorePatterns = .ok plan.ignorePatterns
  isDirectory : checkInputDirectory tree settings.inputDirectory = .ok ()
  inputDirectory : plan.inputDirectory = settings.inputDirectory
  outputDirectory : plan.outputDirectory = settings.outputDirectory
  stallText : plan.stallText = settings.stallLimit.shown

/-- Settings pass as a plan if all their parts do. -/
theorem check_eq_ok_iff : settings.check tree = .ok plan ↔ settings.Passes tree plan := by
  simp only [check, except_bind_eq_ok]
  constructor
  · rintro ⟨mode, hmode, count, hcount, language, hlanguage, maxLines, hlines, stall, hstall,
      patterns, hpatterns, ⟨⟩, hdirectory, hplan⟩
    cases hplan
    exact ⟨hmode, hcount, hlanguage, hlines, hstall, hpatterns, hdirectory, rfl, rfl, rfl⟩
  · obtain ⟨input, output, mode, count, language, maxLines, stall, text, patterns⟩ := plan
    rintro ⟨hmode, hcount, hlanguage, hlines, hstall, hpatterns, hdirectory, rfl, rfl, rfl⟩
    exact ⟨mode, hmode, count, hcount, language, hlanguage, maxLines, hlines, stall, hstall,
      patterns, hpatterns, (), hdirectory, rfl⟩

theorem checkMode_number (mode : Mode) : checkMode (.int mode.number) = .ok mode := by
  unfold checkMode
  simp only [Option.bind_some, Mode.ofNumber?_number]

/-- A mode that draws from many sources has a count, which every other mode takes as well. -/
theorem checkCount_of_shared {mode : Mode} (hshared : mode.usesSharedCorpus = true) {given : Value}
    {count : Nat} (h : checkCount mode given = .ok count) (other : Mode) :
    1 ≤ count ∧ checkCount other given = .ok count := by
  cases given with
  | int n =>
    simp only [checkCount, hshared, and_true] at h ⊢
    split at h
    case isTrue => cases h
    -- Zero stands for all mutants, which modes with a shared corpus do not have.
    case isFalse hnegative =>
      split at h
      case isTrue => cases h
      case isFalse hzero =>
        cases h
        refine ⟨by omega, ?_⟩
        rw [if_neg hnegative, if_neg fun hboth => hzero hboth.1]
  | _ => cases h

theorem checkMaxLines_pos {given : Value} {limit : Nat} (h : checkMaxLines given = .ok limit) :
    1 ≤ limit := by
  cases given with
  | int n =>
    rw [checkMaxLines] at h
    split at h
    case isTrue => cases h
    case isFalse =>
      cases h
      omega
  | _ => cases h

theorem checkPatternItems_texts {given : List Value} {texts : List String}
    (h : ScanRules.checkPatternItems given = .ok texts) :
    ScanRules.checkPatternItems (texts.map .text) = .ok texts := by
  induction given generalizing texts with
  | nil =>
    cases h
    rfl
  | cons item rest ih =>
    cases item with
    | text pattern =>
      rw [ScanRules.checkPatternItems] at h
      split at h
      case isTrue => cases h
      -- A pattern that is accepted is a text that is not blank, and is accepted as it is.
      case isFalse hblank =>
        cases hrest : ScanRules.checkPatternItems rest with
        | error failure =>
          rw [hrest] at h
          cases h
        | ok others =>
          rw [hrest] at h
          cases h
          rw [List.map_cons, ScanRules.checkPatternItems, if_neg hblank, ih hrest]
          rfl
    | _ => cases h

/-- Ignore patterns that are texts are the plan's as they stand. -/
theorem checkIgnorePatterns_texts {texts checked : List String}
    (h : checkIgnorePatterns (.texts texts) = .ok checked) : checked = texts := by
  rw [checkIgnorePatterns] at h
  split at h
  · -- Each text is kept unless it is refused.
    induction texts generalizing checked with
    | nil =>
      cases h
      rfl
    | cons text rest ih =>
      change ScanRules.checkPatternItems (.text text :: rest.map .text) = _ at h
      rw [ScanRules.checkPatternItems] at h
      split at h
      · cases h
      · cases hrest : ScanRules.checkPatternItems (rest.map .text) with
        | error failure =>
          rw [hrest] at h
          cases h
        | ok others =>
          rw [hrest] at h
          cases h
          cases rest with
          | nil =>
            cases hrest
            rfl
          | cons next rest => rw [ih rfl hrest]
  case isFalse hunset =>
    cases h
    cases texts with
    | nil => rfl
    | cons text rest => exact absurd rfl hunset

/-- Ignore patterns that were checked pass when they are checked again. -/
theorem checkPatterns_again {given : Value} {texts : List String}
    (h : checkIgnorePatterns given = .ok texts) :
    ScanRules.checkPatterns (.texts texts) = .ok texts := by
  rw [checkIgnorePatterns] at h
  split at h
  · cases given with
    | list items => exact checkPatternItems_texts h
    | _ => cases h
  · cases h
    rfl

/-- A plan has rules unless one of its ignore patterns cannot be read. -/
theorem Passes.failure_of_rules (h : settings.Passes tree plan) {failure : Failure}
    (hrules : plan.rules = .error failure) :
    ∃ pattern ∈ plan.ignorePatterns, IgnorePattern.ofText pattern = .error failure := by
  have htexts : IgnorePattern.ofTexts plan.ignorePatterns = .error failure := by
    have hsuffixes : ScanRules.checkSuffixes (.texts plan.language.suffixes)
        = .ok plan.language.suffixes := by
      cases plan.language <;> rfl
    rw [Plan.rules, ScanRules.ofValues] at hrules
    rcases except_bind_eq_error.mp hrules with hitems | ⟨items, hitems, hrules⟩
    · cases hitems
    cases hitems
    rcases except_bind_eq_error.mp hrules with hchecked | ⟨checked, -, hrules⟩
    · cases hsuffixes.symm.trans hchecked
    split at hrules
    · rcases except_bind_eq_error.mp hrules with hpatterns | ⟨texts, hpatterns, hrules⟩
      · cases (checkPatterns_again h.ignorePatterns).symm.trans hpatterns
      · cases (checkPatterns_again h.ignorePatterns).symm.trans hpatterns
        rcases except_bind_eq_error.mp hrules with hread | ⟨ignore, -, hlast⟩
        · exact hread
        · cases hlast
    · cases hrules
  -- The first pattern that cannot be read is the one that the failure is about.
  revert htexts
  generalize plan.ignorePatterns = texts
  intro htexts
  rw [IgnorePattern.ofTexts] at htexts
  induction texts with
  | nil => cases htexts
  | cons text rest ih =>
    rw [List.mapM_cons] at htexts
    rcases except_bind_eq_error.mp htexts with htext | ⟨pattern, -, hrest⟩
    · exact ⟨text, List.mem_cons_self, htext⟩
    · rcases except_bind_eq_error.mp hrest with hrest | ⟨patterns, -, hlast⟩
      · obtain ⟨other, hother, hfails⟩ := ih hrest
        exact ⟨other, List.mem_cons_of_mem _ hother, hfails⟩
      · cases hlast

/-- Settings that pass in a mode that draws from many sources pass with each source's own texts. -/
theorem check_inMode (h : (settings.inMode .splice).check tree = .ok plan) :
    plan.mode = .splice ∧ 1 ≤ plan.count ∧ 1 ≤ plan.maxLines ∧
      (settings.inMode .selfSplice).check tree = .ok (plan.inMode .selfSplice) := by
  have hpasses := check_eq_ok_iff.mp h
  have hmode : plan.mode = .splice :=
    (Except.ok.inj ((checkMode_number .splice).symm.trans hpasses.mode)).symm
  obtain ⟨hpos, hother⟩ := checkCount_of_shared (hmode ▸ rfl) hpasses.count .selfSplice
  refine ⟨hmode, hpos, checkMaxLines_pos hpasses.maxLines, check_eq_ok_iff.mpr ?_⟩
  exact { hpasses with mode := checkMode_number .selfSplice, count := hother }

end Settings

end SourceMutation
