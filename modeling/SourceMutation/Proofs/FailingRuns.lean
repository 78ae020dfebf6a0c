import SourceMutation.Proofs.Ineligible
import SourceMutation.Proofs.Misfits
import SourceMutation.Proofs.Readiness

/-!
# Runs that fail

A run that fails for the sake of a source or of the output leaves what it had done until then, and
nothing else (`Run.mutateAfter_stops_cleanly`).

## What a failure tells

A run can fail in five places: at its settings, at its seed, when it looks for sources, in the pass
that makes the corpus, and in the turn of a source.  What is at fault is told by the class of the
failure.

- Settings and seeds fail in classes of their own, which no source has
  (`Settings.not_isReported_of_check`, `Run.Opening.not_isReported`).
- A source is at fault if it cannot be read, if there is no grammar for it, or if it cannot be
  parsed (`Run.SourceFault`).
- The output is at fault if its directory cannot be made or a mutant cannot be written.

## What is left behind

In each case the files are those from before, with an output directory and the files that were
written (`Run.OnlyWritings`).

- With a shared corpus every source is read before the first mutant is written.  So no source is at
  fault once a mutant was written, as long as no mutant is written over a source
  (`Run.StoppedBySource.corpus`).
- Without one the sources take turns.  The mutants of those before the one at fault were written, as
  in a run over these sources alone (`Run.StoppedBySource.turns`).  That run is stated in two ways:
  one that stops after so many sources, and one over files of which the others are left out.
- If a mutant cannot be written, those before it were (`Run.StoppedByOutput`).
-/

namespace SourceMutation

variable {σ : Type}

/-! ## Failures that are not reported

A failure is told by its class.  What settings are refused for, and what a pattern or a seed fails
for, is in none of the classes of sources and outputs.  So a run with a failure in one of these has
passed its checks and its opening.
-/

/-- Whether a failure is for the sake of a source: it cannot be read, its grammar is not found, or
it cannot be parsed. -/
def Failure.IsOfSource (failure : Failure) : Prop :=
  failure.category ∈ [FailureClass.sourceRead, .parser, .grammarNotFound]

namespace Failure

variable {failure : Failure}

/-- Failures for the sake of a source are reported as such. -/
theorem IsOfSource.isReported (h : failure.IsOfSource) : failure.IsReported := by
  simp only [IsOfSource, List.mem_cons, List.not_mem_nil, or_false] at h
  rcases h with h | h | h <;> simp [IsReported, h]

/-- Failures of the output are reported as such. -/
theorem isReported_of_outputWrite (h : failure.category = .outputWrite) : failure.IsReported := by
  simp [IsReported, h]

/-- Refused settings are no failures of a source or of the output. -/
theorem not_isReported_of_isConfiguration (h : failure.category.isConfiguration = true) :
    ¬failure.IsReported := by
  intro hreported
  simp only [IsReported, List.mem_cons, List.not_mem_nil, or_false] at hreported
  rcases hreported with hclass | hclass | hclass | hclass <;> rw [hclass] at h <;> cases h

/-- What an operation on files fails for is not reported until it is known what the file was for. -/
theorem not_isReported_file (fault : FileFault) : ¬(Failure.file fault).IsReported := by
  simp only [IsReported, category]
  split <;> simp

/-- A fault of a file that is reported is reported as what was refused. -/
theorem ofFault_of_isReported {refused : String → Failure} {fault : FileFault}
    (h : (ofFault refused fault).IsReported) : ofFault refused fault = refused fault.message := by
  unfold ofFault at h ⊢
  split
  case isTrue hnull =>
    rw [if_pos hnull] at h
    exact absurd h (not_isReported_file fault)
  case isFalse => rfl

end Failure

/-- A pattern that cannot be read is the fault of neither a source nor the output. -/
theorem IgnorePattern.not_isReported_of_ofText {text : String} {failure : Failure}
    (h : ofText text = .error failure) : ¬failure.IsReported := by
  rcases category_of_ofText h with hclass | hclass <;> simp [Failure.IsReported, hclass]

namespace Settings

variable {settings : Settings} {tree : FileTree} {failure : Failure}

/-- A language is refused because it is none, or because it cannot even be looked up. -/
theorem not_isReported_of_checkLanguage {given : Value}
    (h : Grammars.checkLanguage given = .error failure) : ¬failure.IsReported := by
  unfold Grammars.checkLanguage at h
  rcases except_bind_eq_error.mp h with hlooked | ⟨shown, -, h⟩
  -- A value that cannot be looked up is refused before its name is.
  · unfold Grammars.lookedUp at hlooked
    split at hlooked
    · cases hlooked
    · split at hlooked
      · cases hlooked
      · cases hlooked
        simp [Failure.IsReported, Failure.category]
  · split at h
    · split at h
      · cases h
      · cases h
        exact Failure.not_isReported_of_isConfiguration rfl
    · cases h
      exact Failure.not_isReported_of_isConfiguration rfl

/-- A stall limit is refused because it is too small, or is no number. -/
theorem not_isReported_of_checkStallLimit {given : Value}
    (h : checkStallLimit given = .error failure) : ¬failure.IsReported := by
  unfold checkStallLimit at h
  split at h
  · cases h
    exact Failure.not_isReported_of_isConfiguration rfl
  · cases h
  · split at h
    · cases h
      exact Failure.not_isReported_of_isConfiguration rfl
    · cases h
  · split at h
    · cases h
      exact Failure.not_isReported_of_isConfiguration rfl
    · cases h
  · cases h
    -- A limit that cannot be compared fails in a class that is neither.
    simp [Failure.IsReported, Failure.category]

/-- Ignore patterns are refused as settings. -/
theorem isConfiguration_of_checkPatterns {given : Value}
    (h : ScanRules.checkPatterns given = .error failure) :
    failure.category.isConfiguration = true := by
  unfold ScanRules.checkPatterns at h
  split at h
  case h_1 => exact isConfiguration_of_checkPatternItems h
  case h_2 =>
    cases h
    rfl

/-- Settings that are refused are refused for their own sake. -/
theorem not_isReported_of_check (h : settings.check tree = .error failure) :
    ¬failure.IsReported := by
  -- Settings are checked one by one, so the failure is that of the first part that is refused.
  unfold check at h
  rcases except_bind_eq_error.mp h with hmode | ⟨mode, -, h⟩
  · exact Failure.not_isReported_of_isConfiguration (isConfiguration_of_checkMode hmode)
  rcases except_bind_eq_error.mp h with hcount | ⟨count, -, h⟩
  · exact Failure.not_isReported_of_isConfiguration (isConfiguration_of_checkCount hcount)
  rcases except_bind_eq_error.mp h with hlanguage | ⟨language, -, h⟩
  · exact not_isReported_of_checkLanguage hlanguage
  rcases except_bind_eq_error.mp h with hlines | ⟨maxLines, -, h⟩
  · exact Failure.not_isReported_of_isConfiguration (isConfiguration_of_checkMaxLines hlines)
  rcases except_bind_eq_error.mp h with hstall | ⟨stall, -, h⟩
  · exact not_isReported_of_checkStallLimit hstall
  rcases except_bind_eq_error.mp h with hpatterns | ⟨patterns, -, h⟩
  · unfold checkIgnorePatterns at hpatterns
    split at hpatterns
    · exact Failure.not_isReported_of_isConfiguration (isConfiguration_of_checkPatterns hpatterns)
    · cases hpatterns
  rcases except_bind_eq_error.mp h with hinput | ⟨⟨⟩, -, hlast⟩
  · unfold checkInputDirectory at hinput
    split at hinput
    case h_1 => cases hinput
    case h_2 =>
      cases hinput
      exact Failure.not_isReported_of_isConfiguration rfl
    case h_3 fault _ =>
      cases hinput
      exact Failure.not_isReported_file fault
  · cases hlast

end Settings

/-- Whether some files are those that a plan finds, once its output directory is there. -/
def Plan.Finds (plan : Plan) (tree : FileTree) (files : List Path) : Prop :=
  ∃ rules, plan.rules = .ok rules ∧
    files = (tree.withDirectory plan.outputDirectory).sourceFiles plan.inputDirectory rules

namespace Run

variable {settings : Settings} {opening : Run σ Unit} {failure : Failure}

/-- A run that fails to seed its numbers fails for the seed. -/
theorem Opening.not_isReported (h : Opening settings opening) {world world' : World σ}
    (hrun : opening world = (.error (.failed failure), world')) : ¬failure.IsReported := by
  cases h with
  | given => cases hrun
  | seeded =>
    rw [seed] at hrun
    rcases hsetting : Twister.ofSetting settings.seed with other | _ | twister <;>
      rw [hsetting] at hrun <;> cases hrun
    -- What is no seed is of a sort that no seed has.
    unfold Twister.ofSetting Seed.ofValue at hsetting
    split at hsetting <;> cases hsetting <;> simp [Failure.IsReported, Failure.category]

/-! ## Sources at fault -/

/-- Why a source cannot be used. -/
inductive SourceFault (tools : Toolchain) (plan : Plan) (tree : FileTree) (path : Path) :
    Failure → Prop
  | unread {failure : Failure} (hread : tree.sourceText path = .error failure) :
      SourceFault tools plan tree path failure
  | unloaded {text : String} (htext : tree.HasText path text)
      (hwithin : Lines.within text plan.maxLines = true) :
      SourceFault tools plan tree path
        (.grammarNotFound plan.language.name plan.language.installCommand)
  | unparsed {text : String} {failure : Failure} (htext : tree.HasText path text)
      (hwithin : Lines.within text plan.maxLines = true)
      (hparsed : tools.parsed plan.language path text = .error failure) :
      SourceFault tools plan tree path failure

section Sources

variable {tools : Toolchain} {plan : Plan} {tree : FileTree} {path : Path} {text : String}
  {grammars : Grammars} {corpus : Option Corpus} {before world' : World σ}

/-- A text cannot be harvested if there is no parser for it, or the parser fails on it. -/
theorem sourceFault_of_harvestOf (htext : tree.HasText path text)
    (hwithin : Lines.within text plan.maxLines = true)
    (h : tools.harvestOf plan.language path text grammars = .error (.failed failure)) :
    SourceFault tools plan tree path failure := by
  unfold Toolchain.harvestOf at h
  split at h
  -- There is no parser, since there is no grammar.
  case h_1 other hparser =>
    cases h
    rw [Grammars.failure_of_parser hparser]
    exact .unloaded htext hwithin
  case h_2 =>
    cases hparsed : tools.parsed plan.language path text with
    | ok found =>
      rw [hparsed] at h
      cases h
    | error other =>
      rw [hparsed] at h
      cases h
      exact .unparsed htext hwithin hparsed

/-- A source at fault is never reported as an output that cannot be written. -/
theorem SourceFault.category_ne (h : SourceFault tools plan tree path failure) :
    failure.category ≠ .outputWrite := by
  intro hclass
  -- Each kind of fault has a class of its own, and none of them is that of the output.
  cases h with
  | unread hread =>
    unfold FileTree.sourceText at hread
    split at hread
    case h_1 fault _ =>
      cases hread
      -- A read that fails for a reason that is reported has the category of a read.
      rw [Failure.ofFault_of_isReported (Failure.isReported_of_outputWrite hclass)] at hclass
      cases hclass
    case h_2 bytes _ =>
      cases hdecode : Utf8.decode bytes with
      | ok text =>
        rw [hdecode] at hread
        cases hread
      | error fault =>
        rw [hdecode] at hread
        cases hread
        cases hclass
  | unloaded => cases hclass
  | unparsed _ _ hparsed =>
    unfold Toolchain.parsed Harvest.ofParse at hparsed
    split at hparsed
    case h_1 | h_2 =>
      cases hparsed
      cases hclass
    case h_3 root _ =>
      rw [Utf8.decode_encode] at hparsed
      cases hparsed

/-- Spans that cannot be read or replaced are no reason that is reported. -/
theorem not_isReported_of_span
    (h : failure.category = .spanOwnership ∨ failure.category = .decoding) :
    ¬failure.IsReported := by
  rcases h with h | h <;> simp [Failure.IsReported, h]

/-- A corpus pass that stops with a reported failure stops at a source. -/
theorem AddStops.sourceFault {joint : Corpus}
    (h : AddStops tools plan.language plan.maxLines path joint before (.failed failure))
    (hreported : failure.IsReported) : SourceFault tools plan before.tree path failure := by
  cases h with
  | unread hread => exact .unread hread
  | unharvested htext hwithin hharvest => exact sourceFault_of_harvestOf htext hwithin hharvest
  | unadded _ _ _ hadded =>
    -- A span without a text is a fault of the parser's spans, which is not reported.
    obtain ⟨span, hspan, htext⟩ := Splice.failure_of_addSpans hadded
    exact absurd hreported
      (not_isReported_of_span ((Harvest.failsBy_category _).textOf hspan htext))

variable [Chooser σ]

/-- What a turn leaves that stops for a reason that is reported: its source is at fault, or one of
its mutants cannot be written. -/
inductive TurnLeaves (tools : Toolchain) (plan : Plan) (path : Path) (before world' : World σ) :
    Failure → Prop
  | source {failure : Failure} (hfault : SourceFault tools plan world'.tree path failure)
      (hready : ¬Ready tools plan.language plan.maxLines path before)
      (htree : world'.tree = before.tree) (hquiet : World.Quiet before world') :
      TurnLeaves tools plan path before world' failure
  | output {mutants done rest : List Mutant} {mutant : Mutant} {target : Path} {fault : FileFault}
      (hmutants : mutants = done ++ mutant :: rest)
      (htarget : target = plan.outputDirectory.below
        [MutantName.compose path.name (1 + done.length : Nat)])
      (hwrite : world'.tree.write target (Utf8.encode mutant.text) = .error fault)
      (hhanded : world'.acceptances
        = before.acceptances ++ mutants.map fun mutant => (path, mutant))
      (hwritten : world'.writings = before.writings
        ++ (numbered plan.outputDirectory path.name 1 done).map written) :
      TurnLeaves tools plan path before world' (.ofFault (.outputWrite target.text) fault)

/-- The turn of a source stops before anything of it was handed over, or at a mutant that cannot be
written. -/
theorem TurnStops.leaves
    (h : TurnStops tools plan corpus path before world' (.failed failure))
    (hrefusal : plan.mode.refusal? plan.count corpus = none)
    (hpresent : before.tree.isPresent plan.outputDirectory = .ok true)
    (hreported : failure.IsReported) : TurnLeaves tools plan path before world' failure := by
  cases h with
  | unread hread hstill hquiet =>
    have hsame : world'.tree = before.tree := hstill.tree.symm
    exact .source (.unread (hsame ▸ hread)) (fun hready => hready.not_unread hread) hsame hquiet
  | unharvested htext hwithin hharvest hlevel hquiet =>
    have hsame : world'.tree = before.tree := hlevel.tree.symm
    exact .source (sourceFault_of_harvestOf (hsame ▸ htext) hwithin hharvest)
      (fun hready => hready.not_unharvested htext hwithin hharvest) hsame hquiet
  | unmade _ _ _ _ hpass =>
    -- The mode was let through by the settings, so only a span can be at fault here.
    have hspan := Mode.failsBy_mutants hrefusal (Harvest.failsBy_category _) _ _ _ _ hpass
    exact absurd hreported (not_isReported_of_span hspan)
  | unwritten htree hhanded hwritten hwrite =>
    rw [← htree] at hpresent
    -- All mutants were handed over before the first was written.
    obtain ⟨done, mutant, rest, target, fault, hmutants, htarget, hstop, hfault, hkept, hmore⟩ :=
      writeMutants_eq_error hpresent hwrite
    cases hstop
    exact .output hmutants htarget hfault (hkept.trans hhanded) (by rw [hmore, hwritten])

end Sources

/-! ## What is left behind

The files after a run are those before it, but for the output directory and for what was written
last to each location (`OnlyWritings`).  This is read off the account that every step keeps
(`World.Accounts`).
-/

/-- Whether the files are those at first, once there is an output directory, but for what the events
of a world wrote. -/
structure OnlyWritings (directory : Path) (tree : FileTree) (world : World σ) : Prop where
  /-- Each location has what was written there last, or else what it had with the directory. -/
  entries : ∀ location, world.tree.entry? location
    = ((lastWritten world.tree world.events location).map Entry.file).or
        (FileTree.entry? (tree.withDirectory directory) location)
  /-- Every path that was written leads to a location, and what is read there now is what was
  written there last. -/
  found : ∀ path bytes, (path, bytes) ∈ world.writings → ∃ location last,
    world.tree.locate path = .ok location ∧
      lastWritten world.tree world.events location = some last ∧
      world.tree.read path = .ok last

/-- What was written last at a location is the file that stands there. -/
theorem entry_eq_of_accounted {directory : Path} {tree : FileTree} {world : World σ}
    (h : Accounted tree world.tree world.events)
    (hadds : (tree.withDirectory directory).AddsFiles world.tree) (location : Location) :
    world.tree.entry? location
      = ((lastWritten world.tree world.events location).map Entry.file).or
          (FileTree.entry? (tree.withDirectory directory) location) := by
  have hfile := h.files world.tree (.refl _) location
  -- A location was written to or not; the last writing decides.
  cases hlast : lastWritten world.tree world.events location with
  | some bytes =>
    rw [hlast, Option.some_or] at hfile
    rw [FileTree.fileAt_eq_some_iff.mp hfile]
    rfl
  | none =>
    have hsame : world.tree.fileAt location
        = FileTree.fileAt (tree.withDirectory directory) location := by
      rw [hfile, hlast, Option.none_or,
        (FileTree.makesDirectories_withDirectory tree directory).fileAt_eq]
    rw [Option.map_none, Option.none_or]
    -- Nothing was written here, so that what is here now was here before.
    cases hentry : FileTree.entry? (tree.withDirectory directory) location with
    | none =>
      cases hlater : world.tree.entry? location with
      | none => rfl
      | some entry =>
        rcases hadds.others location entry hlater with hearlier | ⟨bytes, rfl⟩
        · cases hentry.symm.trans hearlier
        · rw [FileTree.fileAt_eq_some_iff.mpr hlater] at hsame
          cases hentry.symm.trans (FileTree.fileAt_eq_some_iff.mp hsame.symm)
    | some entry =>
      cases entry with
      | directory => exact hadds.keeps.directory hentry
      | link target => exact hadds.keeps.link hentry
      | file bytes =>
        rw [FileTree.fileAt_eq_some_iff.mpr hentry] at hsame
        exact FileTree.fileAt_eq_some_iff.mp hsame

/-- Where the events account for the files, and only files came up, nothing but the writings is
left. -/
theorem onlyWritings_of_accounted {directory : Path} {tree : FileTree} {world : World σ}
    (h : Accounted tree world.tree world.events)
    (hadds : (tree.withDirectory directory).AddsFiles world.tree) :
    OnlyWritings directory tree world where
  entries := entry_eq_of_accounted h hadds
  found path bytes hmem := by
    have hwrote := World.mem_writings.mp hmem
    obtain ⟨location, hlocation⟩ := h.written world.tree (.refl _) path bytes hwrote
    obtain ⟨last, hlast⟩ := Option.isSome_iff_exists.mp (lastWritten_isSome hwrote hlocation)
    have hfile : world.tree.fileAt location = some last := by
      rw [h.files world.tree (.refl _) location, hlast, Option.some_or]
    exact ⟨location, last, hlocation, hlast, FileTree.read_eq_ok_iff.mpr ⟨location, hlocation, hfile⟩⟩

/-- Whether nothing was written where one of some files stands. -/
def Spares (world : World σ) (files : List Path) : Prop :=
  ∀ path ∈ files, ∀ target bytes, (target, bytes) ∈ world.writings →
    world.tree.locate target ≠ world.tree.locate path

/-- Whether some sources came to some yields, and what was handed over and written is that of the
yields, and then some more. -/
structure Progress (plan : Plan) (world : World σ) (earlier : List Path) (yields : List Yield)
    (handed : List (Path × Mutant)) (more : List (Path × Bytes)) : Prop where
  sources : yields.map Yield.source = earlier
  faithful : ∀ yield ∈ yields, yield.Faithful plan.outputDirectory
  acceptances : world.acceptances = yields.flatMap Yield.acceptances ++ handed
  writings : world.writings
    = (yields.flatMap fun yield => (yield.targets plan.outputDirectory).map written) ++ more

/-- Whether a tree has some of the files of another one as its only sources, and nothing of what it
lacks lies on the way of these, of the output directory, or of a name in it. -/
structure Alone (settings : Settings) (plan : Plan) (added : Location → Option Entry)
    (alone tree : FileTree) (files : List Path) : Prop where
  joins : alone.Joins added tree
  grounded : alone.Grounded
  checks : settings.check alone = .ok plan
  finds : plan.Finds alone files
  written : plan.outputDirectory.IsWritten
  names : ∀ name, FileTree.Plain name →
    (alone.withDirectory plan.outputDirectory).Avoids added (plan.outputDirectory.below [name])
  sources : ∀ path ∈ files, (alone.withDirectory plan.outputDirectory).Avoids added path

/-! ## Whole runs

What came of the sources before the one at fault is told by two other runs: by one that leaves out
the sources from there on, but shares the corpus (`mutateFirstAfter`), and, in modes without a
shared corpus, by one over a tree that lacks them (`Alone`).
-/

/-- A run like `mutateAfter`, but for leaving out the sources after some number of them. -/
def mutateFirstAfter [Chooser σ] (number : Nat) (prepare : Run σ Unit) (tools : Toolchain)
    (settings : Settings) : Run σ Summary :=
  traced "run_mutation" do
    let plan ← ofExcept (settings.check (← tree))
    prepare
    carryOutBy (fun corpus paths => mutateFiles tools plan corpus (paths.take number)) tools plan

section Runs

variable [Chooser σ] {tools : Toolchain} {plan : Plan} {tree : GroundedTree} {chance : σ}
  {grammars : Grammars} {corpus : Option Corpus} {files : List Path} {opened gathered : World σ}

omit [Chooser σ] in
/-- What a run has done once its sources are gathered. -/
theorem of_gathered (hopening : Opening settings opening)
    (hopened : opening ((World.fresh tree chance grammars).after
      (.logged (.entered "run_mutation"))) = (.ok (), opened))
    (hgather : gather tools plan (opened.after (.logged (startLine plan)))
      = (.ok (files, corpus), gathered)) :
    gathered.tree = tree.withDirectory plan.outputDirectory ∧ plan.Finds tree files ∧
      gathered.acceptances = [] ∧ gathered.writings = [] := by
  have htree := hopening.respects_start World.tolerant_sameTree hopened (startLine plan)
  have hquiet := hopening.respects_start World.tolerant_quiet hopened (startLine plan)
  obtain ⟨hmade, rules, hrules, -, hfiles⟩ := gather_finds hgather
  rw [htree] at hmade
  rw [hmade] at hfiles
  -- Nothing is handed over or written before the first turn.
  have hgathered := World.tolerant_quiet.trans hquiet (quiet_gather hgather)
  exact ⟨hmade, ⟨rules, hrules, hfiles⟩, hgathered.1, hgathered.2⟩

/-- The sources before one are mutated in the same way by a run that leaves out the others. -/
theorem exists_run_first {earlier rest : List Path} {reports : List SourceReport}
    {before : World σ} (hcheck : settings.check tree = .ok plan)
    (hopened : opening ((World.fresh tree chance grammars).after
      (.logged (.entered "run_mutation"))) = (.ok (), opened))
    (hgather : gather tools plan (opened.after (.logged (startLine plan)))
      = (.ok (earlier ++ rest, corpus), gathered))
    (hearlier : mutateFiles tools plan corpus earlier gathered = (.ok reports, before)) :
    ∃ summary world, mutateFirstAfter earlier.length opening tools settings
        (World.fresh tree chance grammars) = (.ok summary, world) ∧
      summary.sources = reports ∧ before.AddsLines world := by
  -- As many sources as came before the one at fault are these.
  have hpass : mutateFiles tools plan corpus ((earlier ++ rest).take earlier.length) gathered
      = (.ok reports, before) := by
    rw [List.take_left]
    exact hearlier
  have hcarried : carryOutBy
      (fun corpus paths => mutateFiles tools plan corpus (paths.take earlier.length)) tools plan
      opened = (.ok (summarize plan corpus reports),
        before.after (.logged (endLine (summarize plan corpus reports)))) :=
    carryOutBy_eq_ok.mpr
      ⟨earlier ++ rest, corpus, gathered, reports, before, hgather, hpass, rfl, rfl⟩
  exact ⟨_, _, traced_of_carryOutBy
      (fun plan corpus paths => mutateFiles tools plan corpus (paths.take earlier.length)) hcheck
      hopened hcarried,
    rfl, (World.addsLines_logged _ _).trans (World.addsLines_logged _ _)⟩

omit [Chooser σ] in
/-- Without a shared corpus, a run that has some sources alone gathers these, beside files that lack
the others. -/
theorem exists_gathered_alone (hopening : Opening settings opening)
    (hshared : plan.mode.usesSharedCorpus = false) {earlier : List Path}
    (hopened : opening ((World.fresh tree chance grammars).after
      (.logged (.entered "run_mutation"))) = (.ok (), opened))
    (hgather : gather tools plan (opened.after (.logged (startLine plan)))
      = (.ok (files, corpus), gathered))
    {added : Location → Option Entry} {alone : FileTree}
    (halone : Alone settings plan added alone tree earlier) :
    corpus = none ∧ ∃ opened' gathered' : World σ,
      opening ((World.fresh alone chance grammars).after (.logged (.entered "run_mutation")))
        = (.ok (), opened') ∧
      gather tools plan (opened'.after (.logged (startLine plan)))
        = (.ok (earlier, none), gathered') ∧
      World.Beside (FileTree.Accompanies added plan.outputDirectory plan.maxLines (fun _ => true)
        earlier) gathered' gathered := by
  have havoids := (halone.names "a" ⟨by decide, by decide, by decide⟩).above
  have hstart : World.Beside (Are alone tree) (World.fresh alone chance grammars)
      (World.fresh tree chance grammars) := ⟨⟨rfl, rfl⟩, rfl, rfl, rfl, rfl⟩
  obtain ⟨opened', hopened', hboth⟩ :=
    (hopening.blind (World.loading_beside _).toPaired).of_run (hstart.after _) hopened
  -- Both runs survey their files; the run without the others finds just the earlier sources.
  rw [gather_of_not_shared hshared] at hgather
  rcases hsurvey : survey plan (opened.after (.logged (startLine plan))) with ⟨stop | found, made⟩
  · rw [hsurvey] at hgather
    cases hgather
  rw [hsurvey] at hgather
  cases hgather
  obtain ⟨found', made', hsurvey', ⟨hpresent, -, rules, hrules, rfl, -⟩, hmade⟩ :=
    (together_survey halone.joins halone.grounded halone.written havoids
      (hboth.after _)).exists_first hsurvey
  obtain ⟨rules', hrules', hfound⟩ := halone.finds
  cases hrules.symm.trans hrules'
  rw [← hfound] at hsurvey'
  refine ⟨rfl, opened', made', hopened', ?_, ?_⟩
  · rw [gather_of_not_shared hshared, hsurvey']
    rfl
  · apply hmade.mono
    obtain ⟨hfirst, hsecond⟩ := hmade.trees
    rw [hfirst, hsecond]
    exact {
      joins := halone.joins.withDirectory halone.grounded halone.written havoids
      grounded := FileTree.grounded_withDirectory halone.grounded _
      grounded' := FileTree.grounded_withDirectory tree.grounded _
      present := hpresent
      names := halone.names
      sources := fun path hpath _ => halone.sources path hpath
      extras := fun _ _ hextra => nomatch hextra }

/-- The sources before one are mutated in the same way by a run that has no others. -/
theorem exists_run_alone (hopening : Opening settings opening)
    (hshared : plan.mode.usesSharedCorpus = false) {earlier : List Path}
    {reports : List SourceReport} {before : World σ}
    (hopened : opening ((World.fresh tree chance grammars).after
      (.logged (.entered "run_mutation"))) = (.ok (), opened))
    (hgather : gather tools plan (opened.after (.logged (startLine plan)))
      = (.ok (files, corpus), gathered))
    (hearlier : mutateFiles tools plan corpus earlier gathered = (.ok reports, before))
    {added : Location → Option Entry} {alone : FileTree}
    (halone : Alone settings plan added alone tree earlier) :
    ∃ summary world, mutateAfter opening tools settings (World.fresh alone chance grammars)
        = (.ok summary, world) ∧ summary.sources = reports ∧
      World.Beside (fun first second => first.Joins added second) world before := by
  obtain ⟨rfl, opened', gathered', hopened', hgathered, haccompanied⟩ :=
    exists_gathered_alone hopening hshared hopened hgather halone
  -- All sources of the run alone are common to both, and so are mutated alike.
  have hpass : Together _ _ (mutateFiles tools plan none (earlier.filter fun _ => true) gathered')
      (mutateFiles tools plan none earlier gathered) :=
    together_mutateFiles (fun htrees => htrees.shares)
      (fun source mutants => blind_writeMutants_accompanied source mutants) haccompanied
  rw [List.filter_eq_self.mpr fun _ _ => rfl] at hpass
  obtain ⟨reports', mutated, hmutated, hreports, hworlds⟩ := hpass.exists_first hearlier
  have hcarried := carryOutBy_eq_ok.mpr
    ⟨earlier, none, gathered', reports', mutated, hgathered, hmutated, rfl, rfl⟩
  refine ⟨_, _, traced_of_carryOutBy (mutateFiles tools) halone.checks hopened' hcarried,
    hreports.eq_of_forall fun _ _ => rfl, ?_⟩
  exact ((hworlds.mono hworlds.trees.joins).untouched
    ((World.untouched_logged _ _).trans (World.untouched_logged _ _)) (.refl before))

/-- What a run leaves that stops for the sake of the source at a path. -/
structure StoppedBySource (tools : Toolchain) (settings : Settings) (opening : Run σ Unit)
    (tree : FileTree) (chance : σ) (grammars : Grammars) (plan : Plan) (earlier : List Path)
    (path : Path) (later : List Path) (failure : Failure) (world : World σ) : Prop where
  finds : plan.Finds tree (earlier ++ path :: later)
  fault : SourceFault tools plan world.tree path failure
  only : OnlyWritings plan.outputDirectory tree world
  /-- With a shared corpus nothing was handed over or written. -/
  corpus : plan.mode.usesSharedCorpus = true → Spares world (earlier ++ path :: later) →
    world.acceptances = [] ∧ world.writings = []
  /-- Without one the sources before have come to what they come to in a run over them alone, be it
  that the others are left out or that they are not there. -/
  turns : plan.mode.usesSharedCorpus = false → ∃ yields, Progress plan world earlier yields [] [] ∧
    (∃ summary world', mutateFirstAfter earlier.length opening tools settings
        (World.fresh tree chance grammars) = (.ok summary, world') ∧
      summary.sources = yields.map Yield.report ∧ world'.tree = world.tree ∧
      World.Quiet world world') ∧
    ∀ added alone, Alone settings plan added alone tree earlier →
      ∃ summary world', mutateAfter opening tools settings (World.fresh alone chance grammars)
          = (.ok summary, world') ∧
        summary.sources = yields.map Yield.report ∧ World.Quiet world world'

/-- What a run leaves that stops because of its output: the output directory cannot be made, or one
of the mutants of a source cannot be written, while those before it are. -/
inductive StoppedByOutput (plan : Plan) (tree : FileTree) (world : World σ) : Failure → Prop
  | unmade {fault : FileFault} (habsent : tree.isPresent plan.outputDirectory = .ok false)
      (hmade : tree.ensureDirectories plan.outputDirectory = (.error fault, world.tree))
      (hhanded : world.acceptances = []) (hwritten : world.writings = []) :
      StoppedByOutput plan tree world (.ofFault (.outputWrite plan.outputDirectory.text) fault)
  | unwritten {earlier later : List Path} {path target : Path} {yields : List Yield}
      {mutants done rest : List Mutant} {mutant : Mutant} {fault : FileFault}
      (hfinds : plan.Finds tree (earlier ++ path :: later))
      (hmutants : mutants = done ++ mutant :: rest)
      (htarget : target = plan.outputDirectory.below
        [MutantName.compose path.name (1 + done.length : Nat)])
      (hwrite : world.tree.write target (Utf8.encode mutant.text) = .error fault)
      (hprogress : Progress plan world earlier yields (mutants.map fun mutant => (path, mutant))
        ((numbered plan.outputDirectory path.name 1 done).map written))
      (honly : OnlyWritings plan.outputDirectory tree world) :
      StoppedByOutput plan tree world (.ofFault (.outputWrite target.text) fault)

omit [Chooser σ] in
/-- An output that cannot be written is never reported as a source at fault. -/
theorem StoppedByOutput.not_isOfSource {world : World σ}
    (h : StoppedByOutput plan tree world failure) : ¬failure.IsOfSource := by
  intro hsource
  have hclass := hsource.isReported
  cases h <;>
  · rw [Failure.IsOfSource, Failure.ofFault_of_isReported hclass] at hsource
    simp [Failure.category] at hsource

omit [Chooser σ] in
/-- Sources that are not found are so because of the output directory, if that is reported. -/
theorem stopped_of_survey {world : World σ} (hpasses : settings.Passes tree plan)
    (hstops : SurveyStops plan tree world.tree (.failed failure))
    (hhanded : world.acceptances = []) (hwritten : world.writings = [])
    (hreported : failure.IsReported) : StoppedByOutput plan tree world failure := by
  cases hstops with
  | unanswered | unasked => exact absurd hreported (Failure.not_isReported_file _)
  | unmade habsent hmade => exact .unmade habsent hmade hhanded hwritten
  | unruled hrules =>
    obtain ⟨pattern, -, hpattern⟩ := hpasses.failure_of_rules hrules
    exact absurd hreported (IgnorePattern.not_isReported_of_ofText hpattern)

/-- A corpus pass that stops leaves nothing but the output directory. -/
theorem stopped_of_adding {path : Path} {joint : Corpus} {before world : World σ}
    (hfinds : plan.Finds tree files) (hpath : path ∈ files)
    (hshared : plan.mode.usesSharedCorpus = true)
    (hstops : AddStops tools plan.language plan.maxLines path joint before (.failed failure))
    (hbefore : before.tree = world.tree)
    (hmade : world.tree = tree.withDirectory plan.outputDirectory)
    (haccounted : Accounted tree world.tree world.events)
    (hhanded : world.acceptances = []) (hwritten : world.writings = [])
    (hreported : failure.IsReported) :
    ∃ earlier path later, StoppedBySource tools settings opening tree chance grammars plan earlier
      path later failure world := by
  -- The pass was at one of the sources that the plan finds.
  obtain ⟨earlier, later, rfl⟩ := List.append_of_mem hpath
  exact ⟨earlier, path, later, {
    finds := hfinds
    fault := hbefore ▸ hstops.sourceFault hreported
    only := onlyWritings_of_accounted haccounted (hmade ▸ .refl _)
    corpus := fun _ _ => ⟨hhanded, hwritten⟩
    turns := fun hunshared => nomatch hshared.symm.trans hunshared }⟩

/-- A pass over the sources that stops leaves what the turns before had done. -/
theorem stopped_of_turns (hopening : Opening settings opening)
    {mutated world : World σ} (hcheck : settings.check tree = .ok plan)
    (hopened : opening ((World.fresh tree chance grammars).after
      (.logged (.entered "run_mutation"))) = (.ok (), opened))
    (hgather : gather tools plan (opened.after (.logged (startLine plan)))
      = (.ok (files, corpus), gathered))
    (hmutate : mutateFiles tools plan corpus files gathered = (.error (.failed failure), mutated))
    (hlines : mutated.AddsLines world) (haccounted : Accounted tree world.tree world.events)
    (hreported : failure.IsReported) :
    StoppedByOutput plan tree world failure ∨ ∃ earlier path later,
      StoppedBySource tools settings opening tree chance grammars plan earlier path later failure
        world := by
  -- What was gathered is taken apart first, then the turns up to the one that stopped.
  have hpasses := Settings.check_eq_ok_iff.mp hcheck
  obtain ⟨hmade, hfinds, hunhanded, hunwritten⟩ := of_gathered hopening hopened hgather
  have hgrounded' : gathered.tree.Grounded :=
    hmade ▸ FileTree.grounded_withDirectory tree.grounded plan.outputDirectory
  obtain ⟨earlier, path, later, reports, before, rfl, hearlier, hturn⟩ :=
    mutateFiles_eq_error hmutate
  have hpresent := present_of_gather hgather
  obtain ⟨hadds, -⟩ := addsFiles_of_mutateFiles hgrounded' hpresent hmutate
  obtain ⟨-, hpresent'⟩ := addsFiles_of_mutateFiles hgrounded' hpresent hearlier
  rw [hmade, hlines.still.tree] at hadds
  have honly := onlyWritings_of_accounted haccounted hadds
  have hrefusal : plan.mode.refusal? plan.count corpus = none :=
    refusal?_of_passes hpasses fun hshared => gather_some hshared hgather
  obtain ⟨yields, hsources, hreports, hfaithful, hhanded, hwritten⟩ := mutateFiles_eq_ok hearlier
  rw [hunhanded, List.nil_append] at hhanded
  rw [hunwritten, List.nil_append] at hwritten
  -- Either the source of that turn is at fault, or one of its mutants cannot be written.
  cases (mutateFile_eq_error hturn).leaves hrefusal hpresent' hreported with
  | source hfault hready htree hquiet =>
    refine .inr ⟨earlier, path, later, ?_⟩
    have hquiet' : World.Quiet before world := World.tolerant_quiet.trans hquiet hlines.quiet
    have hsame : world.tree = before.tree := hlines.still.tree.symm.trans htree
    exact {
      finds := hfinds
      fault := hlines.still.tree ▸ hfault
      only := honly
      corpus := by
        -- The corpus pass has left the source ready, and so have the turns before.
        intro hshared hspares
        obtain ⟨shared, rfl⟩ := gather_some hshared hgather
        have hgathered := ready_of_gather (Settings.checkMaxLines_pos hpasses.maxLines) hgather path
          (List.mem_append_right earlier List.mem_cons_self)
        refine absurd (hgathered.of_turns hgrounded' hearlier fun target bytes hmem => ?_) hready
        rw [← hquiet'.2] at hmem
        rw [← hsame]
        exact hspares path (List.mem_append_right earlier List.mem_cons_self) target bytes hmem
      turns := by
        intro hshared
        refine ⟨yields, ⟨hsources, hfaithful, ?_, ?_⟩, ?_, fun added alone halone => ?_⟩
        · rw [hquiet'.1, hhanded, List.append_nil]
        · rw [hquiet'.2, hwritten, List.append_nil]
        -- The run that stops after as many sources.
        · obtain ⟨summary, first, hrun, hsummary, hlines'⟩ :=
            exists_run_first hcheck hopened hgather hearlier
          refine ⟨summary, first, hrun, hsummary.trans hreports.symm, ?_, ?_⟩
          · exact hlines'.still.tree.symm.trans hsame.symm
          · exact ⟨hlines'.quiet.1.trans hquiet'.1.symm, hlines'.quiet.2.trans hquiet'.2.symm⟩
        -- The run over files without the others.
        · obtain ⟨summary, other, hrun, hsummary, hbeside⟩ :=
            exists_run_alone hopening hshared hopened hgather hearlier halone
          refine ⟨summary, other, hrun, hsummary.trans hreports.symm, ?_, ?_⟩
          · exact hbeside.acceptances.trans hquiet'.1.symm
          · exact hbeside.writings.trans hquiet'.2.symm }
  | output hmutants htarget hwrite hhanded' hwritten' =>
    left
    refine .unwritten hfinds hmutants htarget (hlines.still.tree ▸ hwrite)
      ⟨hsources, hfaithful, ?_, ?_⟩ honly
    · rw [hlines.quiet.1, hhanded', hhanded]
    · rw [hlines.quiet.2, hwritten', hwritten]

/-- A run with a reported failure was stopped by its output or by a source. -/
theorem mutateAfter_stopped (hopening : Opening settings opening)
    {world : World σ}
    (h : mutateAfter opening tools settings (World.fresh tree chance grammars)
      = (.error (.failed failure), world)) (hreported : failure.IsReported) :
    ∃ plan, settings.check tree = .ok plan ∧
      (StoppedByOutput plan tree world failure ∨ ∃ earlier path later,
        StoppedBySource tools settings opening tree chance grammars plan earlier path later failure
          world) := by
  have haccounted := mutateAfter_accounted hopening h
  -- The case that is left depends on how far the run has come.
  cases mutateAfter_eq_error h with
  | refused hcheck _ => exact absurd hreported (Settings.not_isReported_of_check hcheck)
  | unopened _ hopened _ => exact absurd hreported (hopening.not_isReported hopened)
  | ungathered hcheck hopened hgather hlines =>
    rename_i plan opened gathered
    refine ⟨plan, hcheck, ?_⟩
    have htree := hopening.respects_start World.tolerant_sameTree hopened (startLine plan)
    have hquiet := hopening.respects_start World.tolerant_quiet hopened (startLine plan)
    have hpasses := Settings.check_eq_ok_iff.mp hcheck
    rcases gather_eq_error (Settings.checkMaxLines_pos hpasses.maxLines) hgather with
      hsurvey | ⟨files, made, hsurvey, hshared, hquiet', hsame, path, hpath, joint, before,
        hbefore, hstops⟩
    · -- The survey stops before there is anything to read.
      obtain ⟨hstops, -, hquiet'⟩ := survey_eq_error hsurvey
      have hall := World.tolerant_quiet.trans hquiet
        (World.tolerant_quiet.trans hquiet' hlines.quiet)
      rw [htree, hlines.still.tree] at hstops
      exact .inl (stopped_of_survey hpasses hstops hall.1 hall.2 hreported)
    · -- The survey has made the output directory, and the corpus pass stops at a source.
      obtain ⟨hmade, -, rules, hrules, -, hfiles⟩ := survey_eq_ok hsurvey
      rw [htree] at hmade
      rw [hmade] at hfiles
      have hall := World.tolerant_quiet.trans hquiet
        (World.tolerant_quiet.trans hquiet' hlines.quiet)
      have hworld : world.tree = made.tree := hlines.still.tree.symm.trans hsame
      exact .inr (stopped_of_adding ⟨rules, hrules, hfiles⟩ hpath hshared hstops
        (hbefore.trans hworld.symm) (hworld.trans hmade) haccounted hall.1 hall.2 hreported)
  | unmutated hcheck hopened hgather hmutate hlines =>
    exact ⟨_, hcheck, stopped_of_turns hopening hcheck hopened hgather hmutate hlines
      haccounted hreported⟩

/--
A run that fails for the sake of a source, or because of its output, leaves what it had done until
then, and nothing else.
-/
theorem mutateAfter_stops_cleanly (hopening : Opening settings opening) {world : World σ}
    (h : mutateAfter opening tools settings (World.fresh tree chance grammars)
      = (.error (.failed failure), world)) :
    (failure.IsOfSource → ∃ plan earlier path later, settings.check tree = .ok plan ∧
      StoppedBySource tools settings opening tree chance grammars plan earlier path later failure
        world) ∧
    (failure.category = .outputWrite → ∃ plan, settings.check tree = .ok plan ∧
      StoppedByOutput plan tree world failure) := by
  -- Both halves have the same two cases, and the class of the failure rules one of them out.
  constructor
  · intro hsource
    obtain ⟨plan, hcheck, houtput | ⟨earlier, path, later, hstopped⟩⟩ :=
      mutateAfter_stopped hopening h hsource.isReported
    · exact absurd hsource houtput.not_isOfSource
    · exact ⟨plan, earlier, path, later, hcheck, hstopped⟩
  · intro hclass
    obtain ⟨plan, hcheck, houtput | ⟨earlier, path, later, hstopped⟩⟩ :=
      mutateAfter_stopped hopening h (Failure.isReported_of_outputWrite hclass)
    · exact ⟨plan, hcheck, houtput⟩
    · exact absurd hclass hstopped.fault.category_ne

end Runs

/-! ### A second source -/

/-- A second source, which is no text. -/
def unreadableSource : Ledger Location Entry := ⟨[(["w", "in", "b.rs"], .file [0xff])]⟩

/-- A second source, and a directory that has the name of its mutant. -/
def occupiedOutput : Ledger Location Entry :=
  ⟨[(["w", "in", "b.rs"], .file [0x63]), (["w", "out"], .directory),
    (["w", "out", "mut_b.rs_1.rs"], .directory)]⟩

/-- One source with a second one that cannot be read. -/
def unreadableTree : GroundedTree := ⟨shortTree.besides unreadableSource, by decide⟩

/-- One source with a second one whose mutant cannot be written. -/
def occupiedTree : GroundedTree := ⟨shortTree.besides occupiedOutput, by decide⟩

/-- What all deletions come to over a tree; nothing is drawn. -/
def deletionsRun (tree : FileTree) : Except Stop Summary × World Script :=
  mutate firstByteTools deletions (World.fresh tree ⟨[]⟩ .empty)

/-- A run that is known to fail in a class has some failure of that class. -/
theorem exists_failure_of_category {run : Except Stop Summary × World Script}
    {category : FailureClass} (h : (failure? run.1).map Failure.category = some category) :
    ∃ failure, run = (.error (.failed failure), run.2) ∧ failure.category = category := by
  obtain ⟨failure, hfailure, hcategory⟩ := Option.map_eq_some_iff.mp h
  obtain ⟨result, world⟩ := run
  unfold failure? at hfailure
  split at hfailure
  case h_1 other hresult =>
    cases hfailure
    exact ⟨_, congrArg (·, world) hresult, hcategory⟩
  case h_2 => cases hfailure

/-- Next to the source that cannot be read stands one that can be mutated alone. -/
theorem alone_shortTree :
    Alone deletions deletionsPlan unreadableSource.get? shortTree unreadableTree
      [⟨.relative, ["in", "a.rs"]⟩] where
  joins := FileTree.joins_besides (by decide +kernel)
  grounded := by decide
  checks := rfl
  finds := ⟨⟨[".rs"], []⟩, rfl, by decide +kernel⟩
  written := by decide
  names := by
    have hplace : (shortTree.withDirectory deletionsPlan.outputDirectory).locate
        deletionsPlan.outputDirectory = .ok ["w", "out"] := by decide +kernel
    exact fun name _ =>
      FileTree.Avoids.of_empty (by decide +kernel) hplace (by decide +kernel) (by decide) name
  sources := by
    intro path hpath
    obtain rfl := List.mem_singleton.mp hpath
    decide +kernel

/-- The source comes before the one that cannot be read. -/
theorem eq_of_finds_unreadableTree {earlier later : List Path} {path : Path}
    (h : deletionsPlan.Finds unreadableTree (earlier ++ path :: later)) (hearlier : earlier ≠ []) :
    earlier = [⟨.relative, ["in", "a.rs"]⟩] ∧ path = ⟨.relative, ["in", "b.rs"]⟩ ∧ later = [] := by
  obtain ⟨rules, hrules, hfiles⟩ := h
  obtain rfl : rules = ⟨[".rs"], []⟩ := Except.ok.inj (hrules.symm.trans rfl)
  have hfound : (unreadableTree.withDirectory deletionsPlan.outputDirectory).sourceFiles
      deletionsPlan.inputDirectory ⟨[".rs"], []⟩
      = [⟨.relative, ["in", "a.rs"]⟩, ⟨.relative, ["in", "b.rs"]⟩] := by
    decide +kernel
  rw [hfound] at hfiles
  -- There are two sources, so only one can come before another.
  match earlier, hearlier with
  | [_], _ =>
    simp only [List.cons_append, List.nil_append, List.cons.injEq] at hfiles
    exact ⟨congrArg (fun path => [path]) hfiles.1, hfiles.2.1, hfiles.2.2⟩
  | _ :: _ :: _, _ => simp at hfiles

/-- If the second source cannot be read, the mutant of the first is all that is written, as in the
run over the first source alone.  If its mutant cannot be written, that of the first was. -/
theorem secondSource_stops_cleanly :
    (∃ failure, deletionsRun unreadableTree
        = (.error (.failed failure), (deletionsRun unreadableTree).2) ∧
      StoppedBySource firstByteTools deletions (return ()) unreadableTree ⟨[]⟩ .empty
        deletionsPlan [⟨.relative, ["in", "a.rs"]⟩] ⟨.relative, ["in", "b.rs"]⟩ [] failure
        (deletionsRun unreadableTree).2) ∧
      (∃ summary world, deletionsRun shortTree = (.ok summary, world) ∧
        World.Quiet (deletionsRun unreadableTree).2 world) ∧
      (deletionsRun unreadableTree).2.writings
        = [(⟨.relative, ["out", "mut_a.rs_1.rs"]⟩, [0x62])] ∧
      (∃ failure, deletionsRun occupiedTree
          = (.error (.failed failure), (deletionsRun occupiedTree).2) ∧
        StoppedByOutput deletionsPlan occupiedTree (deletionsRun occupiedTree).2 failure) ∧
      (deletionsRun occupiedTree).2.writings
        = [(⟨.relative, ["out", "mut_a.rs_1.rs"]⟩, [0x62])] := by
  have hwritings : (deletionsRun unreadableTree).2.writings
      = [(⟨.relative, ["out", "mut_a.rs_1.rs"]⟩, [0x62])] := by decide +kernel
  have hwritings' : (deletionsRun occupiedTree).2.writings
      = [(⟨.relative, ["out", "mut_a.rs_1.rs"]⟩, [0x62])] := by decide +kernel
  obtain ⟨failure, hrun, hclass⟩ :=
    exists_failure_of_category (show (failure? (deletionsRun unreadableTree).1).map
      Failure.category = some .sourceRead by decide +kernel)
  obtain ⟨failure', hrun', hclass'⟩ :=
    exists_failure_of_category (show (failure? (deletionsRun occupiedTree).1).map
      Failure.category = some .outputWrite by decide +kernel)
  obtain ⟨plan, earlier, path, later, hcheck, hstopped⟩ :=
    (mutateAfter_stops_cleanly .given hrun).1 (by simp [Failure.IsOfSource, hclass])
  obtain rfl : plan = deletionsPlan := Except.ok.inj (hcheck.symm.trans rfl)
  obtain ⟨yields, hprogress, -, halone⟩ := hstopped.turns rfl
  -- Something was written, so that some source came before.
  have hearlier : earlier ≠ [] := by
    rintro rfl
    obtain rfl : yields = [] := List.map_eq_nil_iff.mp hprogress.sources
    cases hwritings.symm.trans hprogress.writings
  obtain ⟨rfl, rfl, rfl⟩ := eq_of_finds_unreadableTree hstopped.finds hearlier
  obtain ⟨summary, world, hrunAlone, -, hquiet⟩ := halone _ _ alone_shortTree
  obtain ⟨plan, hcheck', hstopped'⟩ :=
    (mutateAfter_stops_cleanly .given hrun').2 hclass'
  obtain rfl : plan = deletionsPlan := Except.ok.inj (hcheck'.symm.trans rfl)
  exact ⟨⟨failure, hrun, hstopped⟩, ⟨summary, world, hrunAlone, hquiet⟩, hwritings,
    ⟨failure', hrun', hstopped'⟩, hwritings'⟩

end Run

end SourceMutation
