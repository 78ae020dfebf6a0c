import SourceMutation.Proofs.Names
import SourceMutation.Proofs.ReadFirst
import SourceMutation.Proofs.Refusals
import SourceMutation.Proofs.SharedCorpora
import SourceMutation.Proofs.Stops

/-!
# Settings that do not fit

A run whose settings have the right sorts, and whose parser cuts texts between characters, fails for
the sake of a source, a parser, a grammar or an output (`Failure.IsReported`), or else it fails
before it has drawn, handed over or written anything (`Run.mutateAfter_misfit`).

`Run.Misfit` lists what it was then:

- The settings were refused, and nothing was touched at all.
- A path of theirs cannot even be asked for.
- An ignore pattern cannot be read, which shows only after the output directory was made
  (`Run.unreadPattern_leaves_directory`).

## How it is shown

Each place at which a run can stop is looked at in turn (`Run.RunStops`).  Checks fail in the class
of configurations (`Settings.Typed.refused`), and an opening returns where the seed has the right
sort (`Run.Opening.returns`).  Everything after that is about files: no name that comes from a file
system has a null character, so an operation fails for a cause that is reported
(`Failure.isReported_ofFault`), and a pass over spans between characters does not fail
(`Run.TurnStops.isReported`).
-/

namespace SourceMutation

variable {σ : Type}

/-! ## Failures on behalf of the files -/

/-- Whether a failure is about a source, a parser, a grammar or an output. -/
def Failure.IsReported (failure : Failure) : Prop :=
  failure.category ∈ [FailureClass.sourceRead, .parser, .grammarNotFound, .outputWrite]

theorem Failure.isReported_ofFault {refused : String → Failure} {fault : FileFault}
    (hcause : fault.cause ≠ .nullCharacter) (hrefused : ∀ message, (refused message).IsReported) :
    (ofFault refused fault).IsReported := by
  rw [ofFault, if_neg hcause]
  exact hrefused _

theorem FileTree.isReported_of_sourceText {tree : FileTree} {path : Path} {failure : Failure}
    (hpath : NullFree path.text) (h : tree.sourceText path = .error failure) :
    failure.IsReported := by
  have hreported : ∀ message, (Failure.sourceRead path.text message).IsReported := by
    intro message
    simp [Failure.IsReported, Failure.category]
  unfold sourceText at h
  split at h
  -- The path has no null character, so whatever reading fails for is reported.
  case h_1 fault hread =>
    cases h
    exact Failure.isReported_ofFault (cause_of_read hpath hread) hreported
  case h_2 bytes _ =>
    cases hdecode : Utf8.decode bytes with
    | ok text =>
      rw [hdecode] at h
      cases h
    | error fault =>
      rw [hdecode] at h
      cases h
      exact hreported _

/-- An ignore pattern that cannot be read fails in the words of whoever reads it. -/
theorem IgnorePattern.category_of_ofText {text : String} {failure : Failure}
    (h : ofText text = .error failure) :
    failure.category = .ignorePattern ∨ failure.category = .expression := by
  -- Only the body of a pattern can be refused, for its form or for a range that goes backward.
  have hbody : ∀ {ignores cs}, ofBody text ignores cs = .error failure →
      failure.category = .ignorePattern ∨ failure.category = .expression := by
    intro ignores cs hbody
    unfold ofBody at hbody
    split at hbody
    case h_1 body _ =>
      split at hbody
      case h_1 other hbackward =>
        cases hbody
        unfold backwardFailure? at hbackward
        split at hbackward
        case h_1 pieces =>
          obtain ⟨found, -, rfl⟩ := Option.map_eq_some_iff.mp hbackward
          exact .inr rfl
        case h_2 => cases hbackward
      case h_2 => cases hbody
    case h_2 =>
      cases hbody
      exact .inl rfl
  unfold ofText at h
  split at h
  -- Comments, blanks and the like have no body.
  case h_1 | h_2 | h_3 => cases h
  case h_4 | h_5 => exact hbody h

/-- The only parser that cannot be loaded is one whose grammar is not found. -/
theorem Grammars.failure_of_parser {installed : Language → Bool} {language : Language}
    {kept : Grammars} {failure : Failure}
    (h : (parser installed language kept).answer = .error failure) :
    failure = .grammarNotFound language.name language.installCommand := by
  -- A parser is missing where its grammar is, since nothing else of it can fail.
  have hgrammar : ∀ {other}, (grammar installed language kept).answer = .error other →
      other = .grammarNotFound language.name language.installCommand := by
    intro other hother
    unfold grammar at hother
    split at hother
    · cases hother
    · split at hother
      · cases hother
      · cases hother
        rfl
  unfold parser at h
  split at h
  case h_1 => cases h
  case h_2 =>
    unfold makeParser at h
    dsimp only at h
    split at h
    case h_1 other hother =>
      cases h
      exact hgrammar hother
    case h_2 => cases h

namespace Toolchain

variable {tools : Toolchain} {language : Language} {path : Path} {text : String}
  {grammars : Grammars} {found : Harvest}

/-- A text cannot be harvested for want of its parser, or of a tree. -/
theorem isReported_of_harvestOf {stop : Stop}
    (h : tools.harvestOf language path text grammars = .error stop) :
    ∃ failure, stop = .failed failure ∧ failure.IsReported := by
  unfold harvestOf at h
  split at h
  case h_1 failure hparser =>
    cases h
    rw [Grammars.failure_of_parser hparser]
    exact ⟨_, rfl, by simp [Failure.IsReported, Failure.category]⟩
  case h_2 =>
    unfold parsed Harvest.ofParse at h
    cases hparse : tools.parse language (Utf8.encode text) with
    | refused reason =>
      rw [hparse] at h
      cases h
      exact ⟨_, rfl, by simp [Failure.IsReported, Failure.category]⟩
    | nothing =>
      rw [hparse] at h
      cases h
      exact ⟨_, rfl, by simp [Failure.IsReported, Failure.category]⟩
    -- A tree is harvested from a text that was encoded, which decodes again.
    | tree root =>
      rw [hparse, Utf8.decode_encode] at h
      cases h

/-- Whether a parser cuts texts between characters only. -/
def CutsTexts (tools : Toolchain) : Prop :=
  ∀ language text root, tools.parse language (Utf8.encode text) = .tree root →
    ∀ span ∈ root.descendants, span.Cuts text

/-- What such a parser makes of a text are spans that cut it. -/
theorem CutsTexts.cuts (h : tools.CutsTexts) (hfound : tools.parsed language path text = .ok found) :
    found.text = .ok text ∧ ∀ span ∈ found.spans, span.Cuts text := by
  obtain ⟨root, source, hparse, hsource, rfl⟩ := Harvest.ofParse_eq_ok_iff.mp hfound
  cases (Utf8.decode_encode text).symm.trans hsource
  refine ⟨mapError_eq_ok.mpr hsource, fun span hspan => ?_⟩
  exact h language text root hparse span (List.mem_filter.mp hspan).1

/-- What is harvested with such a parser can be read and replaced. -/
theorem CutsTexts.failsBy (h : tools.CutsTexts)
    (hfound : tools.harvestOf language path text grammars = .ok found) :
    found.FailsBy fun _ => False := by
  obtain ⟨htext, hcuts⟩ := h.cuts (parsed_of_harvestOf hfound)
  exact Harvest.failsBy_of_cuts htext hcuts

end Toolchain

/-! ## Settings of the right sorts -/

/-- Whether a value counts as an integer; a truth value does. -/
def Value.IsInteger : Value → Prop
  | .int _ | .bool _ => True
  | _ => False

namespace Settings

/-- Whether all settings have the sorts that are meant for them. -/
structure Typed (settings : Settings) : Prop where
  mode : settings.mode.IsInteger
  count : settings.count.IsInteger
  language : ∃ name, settings.language = .text name
  maxLines : settings.maxLines.IsInteger
  stallLimit : settings.stallLimit.IsInteger
  seed : settings.seed = .none ∨ settings.seed.IsInteger
  ignorePatterns : ∃ texts, settings.ignorePatterns = .texts texts

variable {settings : Settings} {tree : FileTree} {failure : Failure}

theorem isConfiguration_of_checkMode {given : Value} (h : checkMode given = .error failure) :
    failure.category.isConfiguration = true := by
  unfold checkMode at h
  dsimp only at h
  split at h
  · cases h
  · cases h
    rfl

theorem isConfiguration_of_checkCount {mode : Mode} {given : Value}
    (h : checkCount mode given = .error failure) : failure.category.isConfiguration = true := by
  unfold checkCount at h
  split at h
  · split at h
    · cases h
      rfl
    · split at h
      · cases h
        rfl
      · cases h
  · cases h
    rfl

theorem isConfiguration_of_checkLanguage {name : String}
    (h : Grammars.checkLanguage (.text name) = .error failure) :
    failure.category.isConfiguration = true := by
  simp only [Grammars.checkLanguage, Grammars.lookedUp] at h
  rcases except_bind_eq_error.mp h with hlooked | ⟨shown, -, h⟩
  · cases hlooked
  · split at h
    · cases h
    · cases h
      rfl

theorem isConfiguration_of_checkMaxLines {given : Value}
    (h : checkMaxLines given = .error failure) : failure.category.isConfiguration = true := by
  unfold checkMaxLines at h
  split at h
  · split at h
    · cases h
      rfl
    · cases h
  · cases h
    rfl

theorem isConfiguration_of_checkStallLimit {given : Value} (hgiven : given.IsInteger)
    (h : checkStallLimit given = .error failure) : failure.category.isConfiguration = true := by
  cases given with
  | int n =>
    rw [checkStallLimit] at h
    split at h
    · cases h
      rfl
    · cases h
  | bool b => cases h
  | _ => cases hgiven

theorem isConfiguration_of_checkPatternItems {items : List Value}
    (h : ScanRules.checkPatternItems items = .error failure) :
    failure.category.isConfiguration = true := by
  fun_induction ScanRules.checkPatternItems items with
  | case1 => cases h
  | case2 pattern rest hblank =>
    cases h
    rfl
  -- This pattern is accepted, so a later one was refused.
  | case3 pattern rest hblank ih =>
    cases hrest : ScanRules.checkPatternItems rest with
    | error other =>
      rw [hrest] at h
      cases h
      exact ih hrest
    | ok others =>
      rw [hrest] at h
      cases h
  | case4 =>
    cases h
    rfl

/-- Settings of the right sorts are refused as such, unless the input directory cannot be asked
for. -/
theorem Typed.refused (htyped : settings.Typed) (h : settings.check tree = .error failure) :
    failure.category.isConfiguration = true ∨
      ∃ fault, failure = .file fault ∧
        tree.isDirectory settings.inputDirectory = .error fault := by
  obtain ⟨name, hname⟩ := htyped.language
  obtain ⟨texts, htexts⟩ := htyped.ignorePatterns
  -- The checks go one after another, and the first one that fails is the failure.
  unfold check at h
  rcases except_bind_eq_error.mp h with hmode | ⟨mode, -, h⟩
  · exact .inl (isConfiguration_of_checkMode hmode)
  rcases except_bind_eq_error.mp h with hcount | ⟨count, -, h⟩
  · exact .inl (isConfiguration_of_checkCount hcount)
  rcases except_bind_eq_error.mp h with hlanguage | ⟨language, -, h⟩
  · rw [hname] at hlanguage
    exact .inl (isConfiguration_of_checkLanguage hlanguage)
  rcases except_bind_eq_error.mp h with hlines | ⟨maxLines, -, h⟩
  · exact .inl (isConfiguration_of_checkMaxLines hlines)
  rcases except_bind_eq_error.mp h with hstall | ⟨stall, -, h⟩
  · exact .inl (isConfiguration_of_checkStallLimit htyped.stallLimit hstall)
  rcases except_bind_eq_error.mp h with hpatterns | ⟨patterns, -, h⟩
  · rw [htexts, checkIgnorePatterns] at hpatterns
    split at hpatterns
    · exact .inl (isConfiguration_of_checkPatternItems hpatterns)
    · cases hpatterns
  rcases except_bind_eq_error.mp h with hinput | ⟨⟨⟩, -, hlast⟩
  · unfold checkInputDirectory at hinput
    split at hinput
    case h_1 => cases hinput
    case h_2 =>
      cases hinput
      exact .inl rfl
    case h_3 fault hfault =>
      cases hinput
      exact .inr ⟨fault, rfl, hfault⟩
  · cases hlast

end Settings

namespace Run

/-! ## Openings -/

section Openings

variable {settings : Settings} {opening : Run σ Unit}

/-- There is a generator of every seed of the right sort. -/
theorem Opening.returns (h : Opening settings opening) (htyped : settings.Typed) (world : World σ) :
    ∃ opened, opening world = (.ok (), opened) := by
  cases h with
  | given => exact ⟨world, rfl⟩
  | seeded =>
    have hseed : ∃ found, Twister.ofSetting settings.seed = .ok found := by
      -- Seeds that are nothing or an integer are accepted; a truth value counts as an integer.
      have hvalue : ∃ found, Seed.ofValue settings.seed = .ok found := by
        rcases htyped.seed with hnone | hinteger
        · rw [hnone]
          exact ⟨_, rfl⟩
        · cases hgiven : settings.seed with
          | int n => exact ⟨_, rfl⟩
          | bool b => exact ⟨_, rfl⟩
          | _ =>
            rw [hgiven] at hinteger
            cases hinteger
      obtain ⟨found, hfound⟩ := hvalue
      rw [Twister.ofSetting, hfound]
      exact ⟨_, rfl⟩
    obtain ⟨found, hfound⟩ := hseed
    rw [seed, hfound]
    cases found with
    | none => exact ⟨world, rfl⟩
    | some twister => exact ⟨{ world with chance := twister }, rfl⟩

/-- What an opening does to the numbers does not depend on what was logged before. -/
theorem Opening.chance_after (h : Opening settings opening) (world : World σ) (event : Event) :
    (opening (world.after event)).2.chance = (opening world).2.chance := by
  cases h with
  | given => rfl
  | seeded =>
    rw [seed]
    rcases Twister.ofSetting settings.seed with failure | _ | twister <;> rfl

/-- An opening that returns has prepared the numbers, and that is all. -/
theorem Opening.settles (h : Opening settings opening) {start opened : World σ}
    (hrun : opening (start.after (.logged (.entered "run_mutation"))) = (.ok (), opened)) :
    opened.tree = start.tree ∧ opened.chance = (opening start).2.chance ∧
      World.Quiet start opened := by
  have hchance := h.chance_after start (.logged (.entered "run_mutation"))
  rw [hrun] at hchance
  have hsame : World.SameTree (start.after (.logged (.entered "run_mutation"))) opened :=
    (h.respects World.tolerant_sameTree).of_run hrun
  exact ⟨hsame, hchance, World.tolerant_quiet.trans (World.tolerant_quiet.logged start _)
    ((h.respects World.tolerant_quiet).of_run hrun)⟩

end Openings

/-! ## Runs

Two parts of the settings are not looked at by the checks: whether anything can be asked of the
output directory, and whether the ignore patterns can be read.  Both show only under way.
-/

section Runs

variable [Chooser σ] {tools : Toolchain} {settings : Settings} {opening : Run σ Unit}
  {start world : World σ} {failure : Failure}

/-- What was wrong with settings of the right sorts, and what a run with them left. -/
inductive Misfit (settings : Settings) (opening : Run σ Unit) (start world : World σ) :
    Failure → Prop
  /-- The settings were refused. -/
  | refused {failure : Failure} (hclass : failure.category.isConfiguration = true)
      (htree : world.tree = start.tree) (hchance : world.chance = start.chance) :
      Misfit settings opening start world failure
  /-- Whether there is an input directory cannot be told. -/
  | input {fault : FileFault}
      (hinput : start.tree.isDirectory settings.inputDirectory = .error fault)
      (htree : world.tree = start.tree) (hchance : world.chance = start.chance) :
      Misfit settings opening start world (.file fault)
  /-- Whether there is an output directory cannot be told, or its path has a null character. -/
  | output {fault : FileFault}
      (houtput : start.tree.isPresent settings.outputDirectory = .error fault ∨
        fault.cause = .nullCharacter ∧ ¬NullFree settings.outputDirectory.text)
      (htree : world.tree = start.tree) (hchance : world.chance = (opening start).2.chance) :
      Misfit settings opening start world (.file fault)
  /-- An ignore pattern cannot be read. -/
  | pattern {failure : Failure} {texts : List String} {pattern : String}
      (htexts : settings.ignorePatterns = .texts texts) (hpattern : pattern ∈ texts)
      (hread : IgnorePattern.ofText pattern = .error failure)
      (htree : world.tree = start.tree.withDirectory settings.outputDirectory)
      (hchance : world.chance = (opening start).2.chance) :
      Misfit settings opening start world failure

/-! ### Sources that stop a run -/

omit [Chooser σ] in
/-- Without null characters in the way, a file stops the corpus pass for a reason that is
reported. -/
theorem AddStops.isReported {language : Language} {maxLines : Nat} {path : Path} {corpus : Corpus}
    {stop : Stop} (h : AddStops tools language maxLines path corpus world stop)
    (hcuts : tools.CutsTexts) (hpath : NullFree path.text) :
    ∃ failure, stop = .failed failure ∧ failure.IsReported := by
  cases h with
  | unread hread => exact ⟨_, rfl, FileTree.isReported_of_sourceText hpath hread⟩
  | unharvested _ _ hharvest => exact Toolchain.isReported_of_harvestOf hharvest
  | unadded _ _ hharvest hadded =>
    obtain ⟨span, hspan, htext⟩ := Splice.failure_of_addSpans hadded
    exact ((hcuts.failsBy hharvest).textOf hspan htext).elim

/-- A pass of a plan that passed its checks is not refused. -/
theorem refusal?_of_passes {tree : FileTree} {plan : Plan} {corpus : Option Corpus}
    (hpasses : settings.Passes tree plan)
    (hcorpus : plan.mode.usesSharedCorpus = true → ∃ shared, corpus = some shared) :
    plan.mode.refusal? plan.count corpus = none := by
  unfold Mode.refusal?
  cases hshared : plan.mode.usesSharedCorpus with
  | false =>
    have hcount : checkCount plan.count true = .ok plan.count := by
      simp [checkCount, Int.not_lt.mpr (Int.natCast_nonneg plan.count)]
    simp [hcount]
  | true =>
    obtain ⟨shared, rfl⟩ := hcorpus hshared
    obtain ⟨hpos, -⟩ := Settings.checkCount_of_shared hshared hpasses.count plan.mode
    simp [Splice.checkCount_of_pos hpos]

/-- Where the output directory is there, a turn stops for a reason that is reported. -/
theorem TurnStops.isReported {plan : Plan} {corpus : Option Corpus} {path : Path} {before : World σ}
    (h : TurnStops tools plan corpus path before world (.failed failure)) (hcuts : tools.CutsTexts)
    (hrefusal : plan.mode.refusal? plan.count corpus = none)
    (hpath : NullFree path.text) (houtput : NullFree plan.outputDirectory.text)
    (hsuffix : Path.suffixOf path.name = plan.language.suffix) (hname : NullFree path.name)
    (hpresent : before.tree.isPresent plan.outputDirectory = .ok true) : failure.IsReported := by
  cases h with
  | unread hread => exact FileTree.isReported_of_sourceText hpath hread
  | unharvested _ _ hharvest =>
    obtain ⟨_, ⟨⟩, hreported⟩ := Toolchain.isReported_of_harvestOf hharvest
    exact hreported
  -- The count was accepted and the spans lie between characters, so no pass fails.
  | unmade _ _ hharvest _ hpass =>
    exact (Mode.failsBy_mutants hrefusal (hcuts.failsBy hharvest) _ _ _ _ hpass).elim
  | unwritten htree _ _ hwrite =>
    rw [← htree] at hpresent
    obtain ⟨done, mutant, rest, target, fault, -, rfl, hstop, hfault, -⟩ :=
      writeMutants_eq_error hpresent hwrite
    cases hstop
    refine Failure.isReported_ofFault (FileTree.cause_of_write ?_ hfault) fun message => ?_
    -- The name of a mutant comes from that of its source, which a file system has.
    · refine Path.nullFree_text_iff.mpr fun part hpart => ?_
      rcases List.mem_append.mp hpart with hmem | hmem
      · exact Path.nullFree_text_iff.mp houtput part hmem
      · rw [List.mem_singleton.mp hmem]
        exact MutantName.nullFree_compose hsuffix hname _
    · simp [Failure.IsReported, Failure.category]

/-! ### Whole runs -/

omit [Chooser σ] in
/-- What a plan's scan finds has no null characters, if the tree has none. -/
theorem nullFree_of_found {tree : FileTree} {plan : Plan} {rules : ScanRules} {path : Path}
    (hnames : tree.AllNames NullFree) (hinput : NullFree plan.inputDirectory.text)
    (houtput : NullFree plan.outputDirectory.text)
    (hpath : path ∈ (tree.withDirectory plan.outputDirectory).sourceFiles plan.inputDirectory
      rules) : NullFree path.text ∧ NullFree path.name := by
  -- Making the output directory adds names of its path only.
  have hmade : (tree.withDirectory plan.outputDirectory).AllNames NullFree :=
    hnames.withDirectory fun part hpart _ _ => Path.nullFree_text_iff.mp houtput part hpart
  obtain ⟨found, hne, rfl, hfound⟩ := hmade.of_mem_sourceFiles hpath
  have hparts : ∀ part ∈ (plan.inputDirectory.below found).parts, NullFree part := by
    intro part hpart
    rcases List.mem_append.mp hpart with hmem | hmem
    · exact Path.nullFree_text_iff.mp hinput part hmem
    · exact hfound part hmem
  refine ⟨Path.nullFree_text_iff.mpr hparts, hparts _ ?_⟩
  have hparts' : plan.inputDirectory.parts ++ found ≠ [] := by simp [hne]
  rw [Path.name, Path.below, List.getLastD_eq_getLast?, List.getLast?_eq_some_getLast hparts']
  exact List.getLast_mem hparts'

omit [Chooser σ] in
/-- A survey stops for a reason that is reported, or for the output directory or an ignore pattern
of the settings. -/
theorem SurveyStops.isReported_or_misfit {plan : Plan}
    (h : SurveyStops plan start.tree world.tree (.failed failure)) (htyped : settings.Typed)
    (hpasses : settings.Passes start.tree plan)
    (hchance : world.chance = (opening start).2.chance) :
    failure.IsReported ∨ Misfit settings opening start world failure := by
  cases h with
  | unanswered hasked hsame =>
    rw [hpasses.outputDirectory] at hasked
    exact .inr (.output (.inl hasked) hsame hchance)
  | unmade habsent hmade =>
    rename_i fault
    by_cases hcause : fault.cause = .nullCharacter
    · obtain ⟨hnull, hsame⟩ := FileTree.ensureDirectories_of_null hmade hcause
      rw [Failure.ofFault, if_pos hcause]
      rw [hpasses.outputDirectory] at hnull
      exact .inr (.output (.inr ⟨hcause, hnull⟩) hsame hchance)
    · refine .inl (Failure.isReported_ofFault hcause fun message => ?_)
      simp [Failure.IsReported, Failure.category]
  | unruled hrules hmade =>
    obtain ⟨texts, htexts⟩ := htyped.ignorePatterns
    obtain ⟨pattern, hpattern, hread⟩ := hpasses.failure_of_rules hrules
    have hchecked := hpasses.ignorePatterns
    rw [htexts] at hchecked
    rw [Settings.checkIgnorePatterns_texts hchecked] at hpattern
    rw [hpasses.outputDirectory] at hmade
    exact .inr (.pattern htexts hpattern hread hmade hchance)
  | unasked hnull =>
    -- The input directory is there, so that its path has no null character.
    obtain ⟨place, hplace, -⟩ := leads_of_passes hpasses
    cases (FileTree.locate_eq_ok_iff.mp hplace).1.symm.trans hnull

omit [Chooser σ] in
/-- Where the sources cannot be gathered, the output directory, an ignore pattern or a source is in
the way. -/
theorem isReported_or_misfit_of_gather {plan : Plan} {opened gathered : World σ}
    (hnames : start.tree.AllNames NullFree) (hcuts : tools.CutsTexts) (htyped : settings.Typed)
    (hpasses : settings.Passes start.tree plan) (htree : opened.tree = start.tree)
    (hchance : opened.chance = (opening start).2.chance) (hquiet : World.Quiet start opened)
    (hgather : gather tools plan (opened.after (.logged (startLine plan)))
      = (.error (.failed failure), gathered))
    (hlines : gathered.AddsLines world) :
    failure.IsReported ∨
      World.Quiet start world ∧ Misfit settings opening start world failure := by
  obtain ⟨place, hplace, -⟩ := leads_of_passes hpasses
  have hinput := (FileTree.locate_eq_ok_iff.mp hplace).1
  have hsettled := hlines.still
  -- Either the sources were not found, or one of them could not be added to the corpus.
  rcases gather_eq_error (Settings.checkMaxLines_pos hpasses.maxLines) hgather with
    hsurvey | ⟨files, made, hsurvey, -, -, -, path, hpath, corpus, before, hbefore, hstops⟩
  · obtain ⟨hstops, hdrawn, hquiet'⟩ := survey_eq_error hsurvey
    have hall : World.Quiet start world := World.tolerant_quiet.trans hquiet
      (World.tolerant_quiet.trans (World.tolerant_quiet.logged opened _)
        (World.tolerant_quiet.trans hquiet' hlines.quiet))
    have hnumbers : world.chance = (opening start).2.chance :=
      hsettled.chance.symm.trans (hdrawn.trans hchance)
    rw [World.tree_after, htree, hsettled.tree] at hstops
    exact (hstops.isReported_or_misfit htyped hpasses hnumbers).imp_right fun hmisfit =>
      ⟨hall, hmisfit⟩
  -- All paths of the scan are below the input directory, and none of these has a null character.
  · obtain ⟨out, hout, -⟩ := locate_of_survey hsurvey
    obtain ⟨hmade, -, rules, -, -, rfl⟩ := survey_eq_ok hsurvey
    rw [hmade, World.tree_after, htree] at hpath
    obtain ⟨hnull, -⟩ := nullFree_of_found hnames (FileTree.nullFree_of_askable hinput)
      (FileTree.nullFree_of_locate hout) hpath
    obtain ⟨_, ⟨⟩, hreported⟩ := hstops.isReported hcuts hnull
    exact .inl hreported

/-- Once the sources are gathered, only a source or an output can be in the way. -/
theorem isReported_of_mutateFiles {plan : Plan} {opened gathered mutated : World σ}
    {files : List Path} {corpus : Option Corpus} (hgrounded : start.tree.Grounded)
    (hnames : start.tree.AllNames NullFree) (hcuts : tools.CutsTexts)
    (hpasses : settings.Passes start.tree plan) (htree : opened.tree = start.tree)
    (hgather : gather tools plan (opened.after (.logged (startLine plan)))
      = (.ok (files, corpus), gathered))
    (hmutate : mutateFiles tools plan corpus files gathered = (.error (.failed failure), mutated)) :
    failure.IsReported := by
  obtain ⟨place, hplace, -⟩ := leads_of_passes hpasses
  obtain ⟨out, hout, -⟩ := locate_of_gather hgather
  obtain ⟨hmade, rules, -, -, hfiles⟩ := gather_finds hgather
  rw [World.tree_after, htree] at hmade
  have houtput := FileTree.nullFree_of_locate hout
  obtain ⟨earlier, path, later, reports, before, rfl, hearlier, hturn⟩ :=
    mutateFiles_eq_error hmutate
  have hpath : path ∈ gathered.tree.sourceFiles plan.inputDirectory rules := by
    rw [← hfiles]
    simp
  rw [hmade] at hpath
  obtain ⟨hnull, hname⟩ :=
    nullFree_of_found hnames (FileTree.nullFree_of_locate hplace) houtput hpath
  have hgathered : gathered.tree.Grounded := by
    rw [hmade]
    exact FileTree.grounded_withDirectory hgrounded _
  -- The output directory is there from the gathering on.
  obtain ⟨-, hpresent⟩ :=
    addsFiles_of_mutateFiles hgathered (present_of_gather hgather) hearlier
  exact (mutateFile_eq_error hturn).isReported hcuts
    (refusal?_of_passes hpasses fun hshared => gather_some hshared hgather) hnull houtput
    (suffixOf_of_gather hgather (by simp)) hname hpresent

/-- At whichever step a run stops with a failure, the failure is reported or the settings do not
fit. -/
theorem RunStops.isReported_or_misfit
    (h : RunStops tools settings opening start world (.failed failure))
    (hopening : Opening settings opening) (hgrounded : start.tree.Grounded)
    (hnames : start.tree.AllNames NullFree) (hcuts : tools.CutsTexts) (htyped : settings.Typed) :
    failure.IsReported ∨
      World.Quiet start world ∧ Misfit settings opening start world failure := by
  cases h with
  | refused hcheck hlines =>
    have hstill := hlines.still
    refine .inr ⟨hlines.quiet, ?_⟩
    rcases htyped.refused hcheck with hclass | ⟨fault, rfl, hinput⟩
    · exact .refused hclass hstill.tree.symm hstill.chance.symm
    · exact .input hinput hstill.tree.symm hstill.chance.symm
  -- Settings of the right types have a seed, so the opening returns.
  | unopened _ hopening' _ =>
    obtain ⟨opened, hreturns⟩ := hopening.returns htyped (start.after _)
    cases hopening'.symm.trans hreturns
  | ungathered hcheck hopening' hgather hlines =>
    obtain ⟨htree, hchance, hquiet⟩ := hopening.settles hopening'
    exact isReported_or_misfit_of_gather hnames hcuts htyped (Settings.check_eq_ok_iff.mp hcheck)
      htree hchance hquiet hgather hlines
  | unmutated hcheck hopening' hgather hmutate hlines =>
    obtain ⟨htree, -, -⟩ := hopening.settles hopening'
    exact .inl (isReported_of_mutateFiles hgrounded hnames hcuts
      (Settings.check_eq_ok_iff.mp hcheck) htree hgather hmutate)

/--
A run with settings of the right sorts, whose parser cuts texts between characters, fails for a
reason that is reported, or else it has handed over and written nothing: then its settings were
refused before anything was touched, or a path of theirs cannot be asked for, or one of their ignore
patterns cannot be read.
-/
theorem mutateAfter_misfit {start : GroundedWorld σ} (hopening : Opening settings opening)
    (hnames : start.tree.AllNames NullFree) (hcuts : tools.CutsTexts) (htyped : settings.Typed)
    (h : mutateAfter opening tools settings start = (.error (.failed failure), world)) :
    failure.IsReported ∨
      World.Quiet start world ∧ Misfit settings opening start world failure :=
  (mutateAfter_eq_error h).isReported_or_misfit hopening start.grounded hnames hcuts htyped

end Runs

/-! ### A run with a pattern that cannot be read -/

/-- A parser that finds one node, which covers the whole source. -/
def wholeTextTools : Toolchain where
  installed _ := true
  parse _ bytes := .tree (.node ⟨"source_file", 0, bytes.length, ⟨0, 0⟩, ⟨0, 1⟩⟩ [
    .node ⟨"identifier", 0, bytes.length, ⟨0, 0⟩, ⟨0, 1⟩⟩ []])
  patience := 0

theorem cutsTexts_wholeText : wholeTextTools.CutsTexts := by
  intro language text root hparse span hspan
  cases hparse
  obtain rfl := List.mem_singleton.mp hspan
  exact ⟨"", text, "", by simp, by simp [Utf8.encode], by simp [Utf8.encode]⟩

/-- The failure that ended a run, if one did. -/
def failure? : Except Stop Summary → Option Failure
  | .error (.failed failure) => some failure
  | _ => none

/-- All deletions, with an ignore pattern that negates nothing. -/
def unreadPattern : Settings := { deletions with ignorePatterns := .texts ["!"] }

/-- The world before a run with it, which draws nothing. -/
def unreadPatternStart : GroundedWorld Script := .fresh namesakesTree ⟨[]⟩ .empty

/-- What that run comes to. -/
def unreadPatternRun : Except Stop Summary × World Script :=
  mutate wholeTextTools unreadPattern unreadPatternStart

theorem typed_unreadPattern : unreadPattern.Typed where
  mode := trivial
  count := trivial
  language := ⟨"rust", rfl⟩
  maxLines := trivial
  stallLimit := trivial
  seed := .inl rfl
  ignorePatterns := ⟨["!"], rfl⟩

theorem unreadPatternRun_eq :
    unreadPatternRun = (.error (.failed (.ignorePattern "!")), unreadPatternRun.2) := by
  rfl

/-- That run fails for what is wrong with its settings. -/
theorem unreadPattern_misfit :
    unreadPatternStart.tree.AllNames NullFree ∧ wholeTextTools.CutsTexts ∧ unreadPattern.Typed ∧
      unreadPatternRun = (.error (.failed (.ignorePattern "!")), unreadPatternRun.2) ∧
      World.Quiet unreadPatternStart unreadPatternRun.2 ∧
      Misfit unreadPattern (return ()) unreadPatternStart.toWorld unreadPatternRun.2
        (.ignorePattern "!") := by
  have hnames : unreadPatternStart.tree.AllNames NullFree := by decide +kernel
  rcases mutateAfter_misfit .given hnames cutsTexts_wholeText typed_unreadPattern
    unreadPatternRun_eq with hreported | ⟨hquiet, hmisfit⟩
  · exact absurd hreported (by simp [Failure.IsReported, Failure.category])
  · exact ⟨hnames, cutsTexts_wholeText, typed_unreadPattern, unreadPatternRun_eq, hquiet, hmisfit⟩

/-- Its failure is neither one that is reported nor one about the configuration, and the output
directory, which was not there, has been made. -/
theorem unreadPattern_leaves_directory :
    unreadPattern.Typed ∧ wholeTextTools.CutsTexts ∧
      (failure? unreadPatternRun.1).map Failure.category = some .ignorePattern ∧
      FailureClass.isConfiguration .ignorePattern = false ∧
      FailureClass.ignorePattern ∉ [FailureClass.sourceRead, .parser, .grammarNotFound,
        .outputWrite] ∧
      namesakesTree.entry? ["w", "out"] = none ∧
      unreadPatternRun.2.tree.entry? ["w", "out"] = some .directory :=
  ⟨typed_unreadPattern, cutsTexts_wholeText, by decide +kernel⟩

end Run

end SourceMutation
