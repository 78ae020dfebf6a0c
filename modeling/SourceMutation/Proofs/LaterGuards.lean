import SourceMutation.Proofs.FailingRuns
import SourceMutation.Proofs.Misfits

/-!
# Guards behind the checks

Settings are checked before a run does anything, and much of what passes is looked at again where it
is used: a pass over a source looks at its count and at its corpus, the corpus pass at the line
limit, the language and the patterns, a scan at suffixes and patterns, and the name of a mutant at
its number.

None of these later guards ever stops a run whose settings passed (`Run.mutateAfter_unguarded`).
What can stop it still is listed by `Plan.FailsWith`: a file, a parser, a grammar, a span that does
not lie between characters, a seed that is none, or an ignore pattern that cannot be read.
-/

namespace SourceMutation

variable {σ : Type}

/-! ## What a plan can fail with -/

/-- Whether a failure is one of a guard: a setting that does not fit, a mode without the corpus that
it needs, or a number that no mutant has. -/
def Failure.IsGuard (failure : Failure) : Prop :=
  failure.category.isConfiguration = true ∨ (∃ mode, failure = .corpusMissing mode) ∨
    ∃ index, failure = .mutantIndex index

namespace Plan

/-- What a run with a plan may fail with. -/
inductive FailsWith (plan : Plan) : Failure → Prop
  /-- A source, a parser, a grammar or an output is at fault. -/
  | reported {failure : Failure} (hreported : failure.IsReported) : FailsWith plan failure
  /-- A path cannot be asked for. -/
  | path (fault : FileFault) : FailsWith plan (.file fault)
  /-- A span cannot be read or replaced. -/
  | span {failure : Failure}
      (hclass : failure.category = .spanOwnership ∨ failure.category = .decoding) :
      FailsWith plan failure
  /-- There is no generator of the seed. -/
  | seed : FailsWith plan .seedSort
  /-- An ignore pattern cannot be read. -/
  | pattern {pattern : String} {failure : Failure} (hpattern : pattern ∈ plan.ignorePatterns)
      (hread : IgnorePattern.ofText pattern = .error failure) : FailsWith plan failure

variable {plan : Plan} {failure : Failure}

/-- The class of a failure tells that no guard failed. -/
theorem not_isGuard_of_category {category : FailureClass} (h : failure.category = category)
    (hcategory : category.isConfiguration = false ∧ category ≠ .value) : ¬failure.IsGuard := by
  obtain ⟨hconfiguration, hvalue⟩ := hcategory
  rintro (hclass | ⟨mode, rfl⟩ | ⟨index, rfl⟩)
  · rw [h] at hclass
    cases hconfiguration.symm.trans hclass
  · exact hvalue h.symm
  · exact hvalue h.symm

/-- None of it is the failure of a guard. -/
theorem FailsWith.not_isGuard (h : plan.FailsWith failure) : ¬failure.IsGuard := by
  cases h with
  | reported hreported =>
    have hclasses : failure.category ∈
      [FailureClass.sourceRead, .parser, .grammarNotFound, .outputWrite] := hreported
    simp only [List.mem_cons, List.not_mem_nil, or_false] at hclasses
    rcases hclasses with h | h | h | h <;> exact not_isGuard_of_category h (by decide)
  | path fault =>
    -- A null character makes it a matter of values, though not of those that a guard looks at.
    rintro (hclass | ⟨mode, hmode⟩ | ⟨index, hindex⟩)
    · rw [Failure.category] at hclass
      split at hclass <;> cases hclass
    · cases hmode
    · cases hindex
  | span hclass =>
    rcases hclass with h | h <;> exact not_isGuard_of_category h (by decide)
  | seed => exact not_isGuard_of_category rfl (by decide)
  | pattern _ hread =>
    rcases IgnorePattern.category_of_ofText hread with h | h <;>
      exact not_isGuard_of_category h (by decide)

/-- A fault of a file is the path's, or that of what was to be done with it. -/
theorem FailsWith.ofFault {refused : String → Failure}
    (hrefused : ∀ message, (refused message).IsReported) (fault : FileFault) :
    plan.FailsWith (.ofFault refused fault) := by
  rw [Failure.ofFault]
  split
  · exact .path fault
  · exact .reported (hrefused _)

theorem FailsWith.outputWrite (path : String) (fault : FileFault) :
    plan.FailsWith (.ofFault (.outputWrite path) fault) :=
  .ofFault (fun _ => by simp [Failure.IsReported, Failure.category]) fault

theorem FailsWith.of_sourceText {tree : FileTree} {path : Path}
    (h : tree.sourceText path = .error failure) : plan.FailsWith failure := by
  have hreported : ∀ message, (Failure.sourceRead path.text message).IsReported := by
    intro message
    simp [Failure.IsReported, Failure.category]
  unfold FileTree.sourceText at h
  split at h
  case h_1 fault _ =>
    cases h
    exact .ofFault hreported fault
  -- The bytes were read, so they are no text.
  case h_2 bytes _ =>
    cases hdecode : Utf8.decode bytes with
    | ok text =>
      rw [hdecode] at h
      cases h
    | error fault =>
      rw [hdecode] at h
      cases h
      exact .reported (hreported _)

/-! ## Guards that a plan passes -/

/-- Whether a plan's own parts pass the guards that look at them again. -/
structure PassesLater (plan : Plan) : Prop where
  count : checkCount plan.count (!plan.mode.usesSharedCorpus) = .ok plan.count
  maxLines : Settings.checkMaxLines (.int plan.maxLines) = .ok plan.maxLines
  language : Grammars.checkLanguage (.text plan.language.name) = .ok plan.language
  suffixes : ScanRules.checkSuffixes (.texts plan.language.suffixes) = .ok plan.language.suffixes
  patterns : ScanRules.checkPatterns (.texts plan.ignorePatterns) = .ok plan.ignorePatterns
  /-- There are rules to scan by if each pattern can be read. -/
  rules : (∀ pattern ∈ plan.ignorePatterns, ∃ read, IgnorePattern.ofText pattern = .ok read) →
    ∃ rules, plan.rules = .ok rules
  /-- Mutants are numbered from one. -/
  names : ∀ (source : String) (index : Nat), 1 ≤ index →
    MutantName.ofIndex source index = .ok (MutantName.compose source index)

end Plan

namespace Settings

variable {settings : Settings} {tree : FileTree} {plan : Plan}

theorem Passes.checkCount_again (h : settings.Passes tree plan) :
    SourceMutation.checkCount plan.count (!plan.mode.usesSharedCorpus) = .ok plan.count := by
  cases hshared : plan.mode.usesSharedCorpus with
  | false => simp [SourceMutation.checkCount, Int.not_lt.mpr (Int.natCast_nonneg plan.count)]
  | true => exact Splice.checkCount_of_pos (checkCount_of_shared hshared h.count plan.mode).1 _

/-- What passed once passes again. -/
theorem Passes.passesLater (h : settings.Passes tree plan) : plan.PassesLater where
  count := h.checkCount_again
  maxLines := by
    -- A limit that was accepted is one or more.
    have hpos := checkMaxLines_pos h.maxLines
    rw [checkMaxLines, if_neg (by omega), Int.toNat_natCast]
  language := by cases plan.language <;> rfl
  suffixes := by cases plan.language <;> rfl
  patterns := checkPatterns_again h.ignorePatterns
  rules := by
    intro hreads
    cases hrules : plan.rules with
    | ok rules => exact ⟨rules, rfl⟩
    | error failure =>
      -- Rules cannot be read only if a pattern cannot.
      obtain ⟨pattern, hpattern, hfails⟩ := h.failure_of_rules hrules
      obtain ⟨read, hread⟩ := hreads pattern hpattern
      cases hfails.symm.trans hread
  names := fun _ _ hindex => MutantName.ofIndex_of_pos hindex

end Settings

namespace Run

/-! ## Runs -/

theorem failsWith_of_ensureOutputDirectory {plan : Plan} {path : Path} {failure : Failure}
    {world world' : World σ}
    (h : ensureOutputDirectory path world = (.error (.failed failure), world')) :
    plan.FailsWith failure := by
  rcases ensureOutputDirectory_eq_error h with ⟨fault, hstop, -⟩ | ⟨fault, tree, hstop, -⟩
  · cases hstop
    exact .path fault
  · cases hstop
    exact .outputWrite _ fault

/-- Mutants are left unwritten only on account of the files. -/
theorem failsWith_of_writeMutants {plan : Plan} {directory source : Path} {mutants : List Mutant}
    {failure : Failure} {world world' : World σ}
    (h : writeMutants directory source mutants world = (.error (.failed failure), world')) :
    plan.FailsWith failure := by
  rw [writeMutants] at h
  split at h
  · cases h
  · rcases Chance.bind_eq_error.mp h with hensure | ⟨⟨⟩, made, -, hwrite⟩
    · exact failsWith_of_ensureOutputDirectory hensure
    -- Behind the last write only a line is logged, which cannot fail.
    rcases Chance.bind_eq_error.mp hwrite with hnumbered | ⟨paths, written, -, hlast⟩
    · obtain ⟨-, -, -, target, fault, -, -, hstop, -⟩ :=
        writeNumbered_eq_error (Nat.le_refl 1) hnumbered
      cases hstop
      exact .outputWrite _ fault
    · cases hlast

section Runs

variable [Chooser σ] {tools : Toolchain} {settings : Settings} {opening : Run σ Unit} {plan : Plan}
  {start world : World σ} {failure : Failure}

omit [Chooser σ] in
theorem AddStops.failsWith {language : Language} {maxLines : Nat} {path : Path} {corpus : Corpus}
    (h : AddStops tools language maxLines path corpus world (.failed failure)) :
    plan.FailsWith failure := by
  cases h with
  | unread hread => exact .of_sourceText hread
  | unharvested _ _ hharvest =>
    obtain ⟨_, ⟨⟩, hreported⟩ := Toolchain.isReported_of_harvestOf hharvest
    exact .reported hreported
  | unadded _ _ _ hadded =>
    obtain ⟨span, hspan, htext⟩ := Splice.failure_of_addSpans hadded
    exact .span ((Harvest.failsBy_category _).textOf hspan htext)

/-- A pass that is not refused lets a turn stop for the sake of the source or its mutants only. -/
theorem TurnStops.failsWith {corpus : Option Corpus} {path : Path} {before : World σ}
    (h : TurnStops tools plan corpus path before world (.failed failure))
    (hrefusal : plan.mode.refusal? plan.count corpus = none) : plan.FailsWith failure := by
  cases h with
  | unread hread => exact .of_sourceText hread
  | unharvested _ _ hharvest =>
    obtain ⟨_, ⟨⟩, hreported⟩ := Toolchain.isReported_of_harvestOf hharvest
    exact .reported hreported
  | unmade _ _ _ _ hpass =>
    exact .span (Mode.failsBy_mutants hrefusal (Harvest.failsBy_category _) _ _ _ _ hpass)
  | unwritten _ _ _ hwrite => exact failsWith_of_writeMutants hwrite

omit [Chooser σ] in
/-- Gathering the sources of a plan stops on account of the files, or of a pattern. -/
theorem failsWith_of_gather (hpasses : settings.Passes start.tree plan) {first : World σ}
    (h : gather tools plan first = (.error (.failed failure), world)) : plan.FailsWith failure := by
  rcases gather_eq_error (Settings.checkMaxLines_pos hpasses.maxLines) h with
    hsurvey | ⟨_, _, -, -, -, -, _, -, _, _, -, hstops⟩
  · obtain ⟨hstops, -⟩ := survey_eq_error hsurvey
    cases hstops with
    | unanswered => exact .path _
    | unmade => exact .outputWrite _ _
    | unruled hrules =>
      obtain ⟨pattern, hpattern, hread⟩ := hpasses.failure_of_rules hrules
      exact .pattern hpattern hread
    | unasked => exact .path _
  · exact hstops.failsWith

/-- The only seed that an opening fails for is one that there is no generator of. -/
theorem Opening.seedSort_of_error (h : Opening settings opening)
    (hrun : opening start = (.error (.failed failure), world)) : failure = .seedSort := by
  cases h with
  | given => cases hrun
  | seeded =>
    rw [seed] at hrun
    cases hseed : Seed.ofValue settings.seed with
    | ok found =>
      rw [Twister.ofSetting, hseed] at hrun
      cases found <;> cases hrun
    -- A seed is refused for its sort.
    | error other =>
      rw [Twister.ofSetting, hseed] at hrun
      cases hrun
      unfold Seed.ofValue at hseed
      split at hseed <;> cases hseed
      all_goals rfl

/-- A run whose settings passed is stopped by none of the guards behind the checks.  The plan's own
parts pass these guards again, a corpus is there for every mode that needs one, and if the run
fails, then for what `Plan.FailsWith` lists. -/
theorem mutateAfter_unguarded (hopening : Opening settings opening)
    (hcheck : settings.check start.tree = .ok plan) :
    plan.PassesLater ∧
      (∀ (first : World σ) files corpus gathered,
        gather tools plan first = (.ok (files, corpus), gathered) →
          plan.mode.refusal? plan.count corpus = none) ∧
      ∀ failure world, mutateAfter opening tools settings start = (.error (.failed failure), world) →
        plan.FailsWith failure ∧ ¬failure.IsGuard := by
  have hpasses := Settings.check_eq_ok_iff.mp hcheck
  -- Once the sources are gathered, there is a corpus if the mode needs one.
  have hrefusal : ∀ (first : World σ) files corpus gathered,
      gather tools plan first = (.ok (files, corpus), gathered) →
        plan.mode.refusal? plan.count corpus = none :=
    fun first files corpus gathered hgather =>
      refusal?_of_passes hpasses fun hshared => gather_some hshared hgather
  have hfails : ∀ failure world,
      mutateAfter opening tools settings start = (.error (.failed failure), world) →
        plan.FailsWith failure := by
    intro failure world h
    cases mutateAfter_eq_error h with
    -- The settings were accepted.
    | refused hrefused => cases hcheck.symm.trans hrefused
    | unopened _ hopened _ =>
      rw [hopening.seedSort_of_error hopened]
      exact .seed
    | ungathered hchecked _ hgather _ =>
      obtain rfl := Except.ok.inj (hcheck.symm.trans hchecked)
      exact failsWith_of_gather hpasses hgather
    | unmutated hchecked _ hgather hmutate _ =>
      obtain rfl := Except.ok.inj (hcheck.symm.trans hchecked)
      obtain ⟨_, _, _, _, _, -, -, hturn⟩ := mutateFiles_eq_error hmutate
      exact (mutateFile_eq_error hturn).failsWith (hrefusal _ _ _ _ hgather)
  exact ⟨hpasses.passesLater, hrefusal, fun failure world h =>
    ⟨hfails failure world h, (hfails failure world h).not_isGuard⟩⟩

end Runs

/-! ### A run with a corpus -/

/-- One splice for each source, from all sources that are no backups. -/
def oneSplice : Settings :=
  { deletions with mode := .int 2, count := .int 1, ignorePatterns := .texts ["*.bak"] }

/-- What these settings pass as. -/
def oneSplicePlan : Plan :=
  { deletionsPlan with mode := .splice, count := 1, ignorePatterns := ["*.bak"] }

/-- A source whose first byte is half a character. -/
def halvedTree : FileTree where
  workDirectory := ["w"]
  entries := ⟨[(["w"], .directory), (["w", "in"], .directory),
    (["w", "in", "a.rs"], .file [0xC3, 0xA9, 0x78])]⟩

/-- The world before a run over it. -/
def halvedStart : World Script := World.fresh halvedTree ⟨[]⟩ .empty

/-- What the run comes to; nothing is drawn. -/
def halvedRun : Except Stop Summary × World Script := mutate firstByteTools oneSplice halvedStart

/-- The run finds its rules and its source, and fails for the span that cannot be read. -/
theorem halvedRun_unguarded :
    oneSplice.check halvedStart.tree = .ok oneSplicePlan ∧ oneSplicePlan.PassesLater ∧
      (∃ rules, oneSplicePlan.rules = .ok rules) ∧
      ∃ failure, halvedRun = (.error (.failed failure), halvedRun.2) ∧
        failure.category = .decoding ∧ oneSplicePlan.FailsWith failure ∧ ¬failure.IsGuard := by
  have hcheck : oneSplice.check halvedStart.tree = .ok oneSplicePlan := rfl
  have hboth : oneSplicePlan.PassesLater ∧ _ ∧ ∀ failure world,
      mutate firstByteTools oneSplice halvedStart = (.error (.failed failure), world) →
        oneSplicePlan.FailsWith failure ∧ ¬failure.IsGuard :=
    mutateAfter_unguarded .given hcheck
  obtain ⟨hpasses, -, hfails⟩ := hboth
  obtain ⟨failure, hrun, hclass⟩ := exists_failure_of_category
    (show (failure? halvedRun.1).map Failure.category = some .decoding by decide +kernel)
  refine ⟨hcheck, hpasses, hpasses.rules fun pattern hpattern => ?_, failure, hrun, hclass,
    hfails failure _ hrun⟩
  -- The plan has one pattern, and it can be read.
  obtain rfl := List.mem_singleton.mp hpattern
  exact ⟨_, rfl⟩

end Run

end SourceMutation
