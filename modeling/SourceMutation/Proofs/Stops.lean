import SourceMutation.Proofs.TwoPasses

/-!
# Where a run stops

A run that does not return stopped at one of its steps, and what the steps before it did is still
there.

- `Run.RunStops` lists the steps of a run: the settings, the opening, the gathering of the sources,
  and the pass over them.
- `Run.SurveyStops` and `Run.AddStops` list those of the gathering, with a corpus or without.
- `Run.TurnStops` lists those of one source's turn, and the pass over the sources stops at the turn
  of one of them (`Run.mutateFiles_eq_error`).

When the writing of mutants stops, those before the one at fault were all written
(`Run.writeNumbered_eq_error`).

Each list has a case for each step that can stop, with what is known of the world there.  The lemmas
go through the steps in order: a step stopped, or it returned and a later one stopped.
-/

namespace SourceMutation

variable {σ : Type}

/-! ## Sources that cannot be read -/

/-- The text of the source at a path, or why it cannot be read. -/
def FileTree.sourceText (tree : FileTree) (path : Path) : Except Failure String :=
  match tree.read path with
  | .error fault => .error (.ofFault (.sourceRead path.text) fault)
  | .ok bytes => (Utf8.decode bytes).mapError fun fault => .sourceRead path.text fault.message

/-- A source has a text if its file has bytes that decode to it. -/
theorem FileTree.sourceText_eq_ok_iff {tree : FileTree} {path : Path} {text : String} :
    tree.sourceText path = .ok text ↔ tree.HasText path text := by
  unfold sourceText HasText
  cases tree.read path with
  | error fault => simp
  | ok bytes => simp [mapError_eq_ok]

/-- Whether two worlds differ by lines that were logged. -/
def World.AddsLines (first second : World σ) : Prop := ∃ lines, second = first.afterLines lines

namespace World

theorem AddsLines.refl (world : World σ) : world.AddsLines world := ⟨[], rfl⟩

theorem AddsLines.trans {first second third : World σ} (h : first.AddsLines second)
    (h' : second.AddsLines third) : first.AddsLines third := by
  obtain ⟨lines, rfl⟩ := h
  obtain ⟨more, rfl⟩ := h'
  exact ⟨lines ++ more, by rw [afterLines, afterLines, afterLines, List.foldl_append]⟩

theorem addsLines_logged (world : World σ) (line : LogLine) :
    world.AddsLines (world.after (.logged line)) := ⟨[line], rfl⟩

/-- Lines of the log leave all else still. -/
theorem AddsLines.still {first second : World σ} (h : first.AddsLines second) :
    first.Still second := by
  obtain ⟨lines, rfl⟩ := h
  exact still_afterLines first lines

/-- Lines of the log neither hand over nor write. -/
theorem AddsLines.quiet {first second : World σ} (h : first.AddsLines second) :
    Quiet first second := by
  obtain ⟨lines, rfl⟩ := h
  induction lines generalizing first with
  | nil => exact tolerant_quiet.refl first
  | cons line rest ih => exact tolerant_quiet.trans (tolerant_quiet.logged first line) ih

end World

namespace Run

/-- A source that cannot be read leaves the world as it was. -/
theorem readSource_of_error {path : Path} {world world' : World σ} {stop : Stop}
    (h : (readSource path : Run σ String) world = (.error stop, world')) :
    world' = world ∧ ∃ failure, stop = .failed failure ∧
      world.tree.sourceText path = .error failure := by
  rw [readSource_apply] at h
  unfold FileTree.sourceText
  cases hread : world.tree.read path with
  | error fault =>
    rw [hread] at h
    cases h
    exact ⟨rfl, _, rfl, rfl⟩
  -- The bytes were read, so they are no text.
  | ok bytes =>
    rw [hread] at h
    dsimp only at h
    cases hdecode : Utf8.decode bytes with
    | error fault =>
      rw [hdecode] at h
      cases h
      refine ⟨rfl, _, rfl, ?_⟩
      dsimp only
      rw [hdecode]
      rfl
    | ok text =>
      rw [hdecode] at h
      cases h

/-! ## Mutants that cannot be written -/

/-- Writing stops at one mutant, and those before it were written. -/
theorem writeNumbered_eq_error {directory : Path} {source : String} {index : Nat}
    (hindex : 1 ≤ index) {mutants : List Mutant} {stop : Stop} {world world' : World σ}
    (h : writeNumbered directory source index mutants world = (.error stop, world')) :
    ∃ done mutant rest target fault, mutants = done ++ mutant :: rest ∧
      target = directory.below [MutantName.compose source (index + done.length : Nat)] ∧
      stop = .failed (.ofFault (.outputWrite target.text) fault) ∧
      world'.tree.write target (Utf8.encode mutant.text) = .error fault ∧
      world'.acceptances = world.acceptances ∧
      world'.writings = world.writings ++ (numbered directory source index done).map written := by
  induction mutants generalizing index world with
  | nil => cases h
  | cons mutant rest ih =>
    rw [writeNumbered, MutantName.ofIndex_of_pos hindex, Chance.bind_apply, ofExcept_ok_apply] at h
    dsimp only at h
    rw [Chance.bind_apply, writeOutput_apply] at h
    cases hwrite : world.tree.write (directory.below [MutantName.compose source index])
        (Utf8.encode mutant.text) with
    | error fault =>
      rw [hwrite] at h
      cases h
      exact ⟨[], mutant, rest, _, fault, rfl, rfl, rfl, hwrite, rfl, by simp [numbered]⟩
    | ok tree =>
      rw [hwrite] at h
      dsimp only at h
      rcases Chance.bind_eq_error.mp h with hrest | ⟨paths, between, -, hlast⟩
      -- The first mutant was written, and stands before those that were written of the rest.
      · obtain ⟨done, other, later, target, fault, rfl, rfl, rfl, hfault, hhanded, hwritten⟩ :=
          ih (by omega) hrest
        refine ⟨mutant :: done, other, later, _, fault, rfl, ?_, rfl, hfault, ?_, ?_⟩
        · simp only [List.length_cons, Nat.add_assoc, Nat.add_comm 1]
        · rw [hhanded, World.acceptances_after]
          simp [Event.accepted?, World.acceptances, World.events]
        · rw [hwritten, World.writings_after]
          simp [Event.written?, World.writings, World.events, numbered, written]
      · cases hlast

/-- Where the output directory is there, mutants are written up to one that cannot be. -/
theorem writeMutants_eq_error {directory source : Path} {mutants : List Mutant} {stop : Stop}
    {world world' : World σ} (hpresent : world.tree.isPresent directory = .ok true)
    (h : writeMutants directory source mutants world = (.error stop, world')) :
    ∃ done mutant rest target fault, mutants = done ++ mutant :: rest ∧
      target = directory.below [MutantName.compose source.name (1 + done.length : Nat)] ∧
      stop = .failed (.ofFault (.outputWrite target.text) fault) ∧
      world'.tree.write target (Utf8.encode mutant.text) = .error fault ∧
      world'.acceptances = world.acceptances ∧
      world'.writings = world.writings ++ (numbered directory source.name 1 done).map written := by
  rw [writeMutants] at h
  split at h
  · cases h
  -- The output directory is there, so only the writing can stop.
  · rw [Chance.bind_apply, ensureOutputDirectory_apply, hpresent] at h
    dsimp only at h
    rcases Chance.bind_eq_error.mp h with hnumbered | ⟨paths, between, -, hlast⟩
    · exact writeNumbered_eq_error (Nat.le_refl 1) hnumbered
    · cases hlast

/-! ## Corpus passes that stop

Each of the relations has one constructor for each step that can stop, with the world that is left
there.
-/

/-- At which step the addition of a file to a corpus stops. -/
inductive AddStops (tools : Toolchain) (language : Language) (maxLines : Nat) (path : Path)
    (corpus : Corpus) (world : World σ) : Stop → Prop
  | unread {failure : Failure} (hread : world.tree.sourceText path = .error failure) :
      AddStops tools language maxLines path corpus world (.failed failure)
  | unharvested {text : String} {stop : Stop} (htext : world.tree.HasText path text)
      (hwithin : Lines.within text maxLines = true)
      (hharvest : tools.harvestOf language path text world.grammars = .error stop) :
      AddStops tools language maxLines path corpus world stop
  | unadded {text : String} {found : Harvest} {failure : Failure}
      (htext : world.tree.HasText path text) (hwithin : Lines.within text maxLines = true)
      (hharvest : tools.harvestOf language path text world.grammars = .ok found)
      (hadded : (corpus.addSource found).1 = .error failure) :
      AddStops tools language maxLines path corpus world (.failed failure)

section Corpora

variable {tools : Toolchain} {language : Language} {maxLines : Nat} {directory path : Path}
  {corpus : Corpus} {plan : Plan} {stop : Stop} {world world' : World σ}

/-- A file that cannot be added was not read, not harvested, or has a span without a text. -/
theorem addFile_eq_error
    (h : addFile tools language maxLines path corpus world = (.error stop, world')) :
    AddStops tools language maxLines path corpus world stop := by
  cases hread : world.tree.sourceText path with
  | error failure =>
    rcases hrun : (readSource path : Run σ String) world with ⟨other | text, between⟩
    · obtain ⟨-, failure', rfl, hfailure⟩ := readSource_of_error hrun
      rw [addFile, Chance.bind_apply, hrun] at h
      cases h
      exact .unread hfailure
    · obtain ⟨bytes, hbytes, hdecode, -⟩ := readSource_eq_ok hrun
      have htext := FileTree.sourceText_eq_ok_iff.mpr ⟨bytes, hbytes, hdecode⟩
      cases hread.symm.trans htext
  | ok text =>
    have htext := FileTree.sourceText_eq_ok_iff.mp hread
    cases hwithin : Lines.within text maxLines with
    -- A text that is too long is passed over, which does not stop.
    | false =>
      obtain ⟨after, hrun, -⟩ := addFile_of_tooLong tools language corpus ⟨text, htext, hwithin⟩
      cases h.symm.trans hrun
    | true =>
      obtain ⟨after, hrun, -⟩ := addFile_of_within tools language corpus htext hwithin
      have hresult := congrArg Prod.fst (h.symm.trans hrun)
      cases hharvest : tools.harvestOf language path text world.grammars with
      | error other =>
        rw [hharvest] at hresult
        cases hresult
        exact .unharvested htext hwithin hharvest
      | ok found =>
        rw [hharvest, joined] at hresult
        rcases hadded : corpus.addSource found with ⟨failure | added, joint⟩
        · rw [hadded] at hresult
          cases hresult
          exact .unadded htext hwithin hharvest (congrArg Prod.fst hadded)
        · rw [hadded] at hresult
          cases hresult

/-- Going over files stops at one of them. -/
theorem addVisits_eq_error {met : List Visit} {used : Nat}
    (h : addVisits tools language maxLines directory met used corpus world
      = (.error stop, world')) :
    ∃ path ∈ filesOf directory met, ∃ (corpus : Corpus) (before : World σ),
      before.tree = world.tree ∧ AddStops tools language maxLines path corpus before stop := by
  induction met generalizing used corpus world with
  | nil => cases h
  | cons visit rest ih =>
    rw [addVisits, logAll_bind_apply] at h
    rw [← World.tree_afterLines world (visitLine? visit).toList]
    generalize world.afterLines (visitLine? visit).toList = logged at h ⊢
    cases hfile : visit.file? with
    | none =>
      rw [hfile] at h
      rw [filesOf_cons_of_none hfile]
      exact ih h
    | some names =>
      rw [hfile] at h
      rw [filesOf_cons_of_some hfile]
      rcases Chance.bind_eq_error.mp h with hadd | ⟨⟨isUsed, joint⟩, between, hadd, hothers⟩
      -- The file was the first one, or it is one of the others, which are read from the same files.
      · exact ⟨_, List.mem_cons_self, corpus, logged, rfl, addFile_eq_error hadd⟩
      · have hsame : between.tree = logged.tree :=
          (respects_addFile World.tolerant_sameTree _ _ _ _ _ fun _ _ _ => rfl).of_run hadd
        obtain ⟨path, hpath, corpus, before, hbefore, hstops⟩ := ih hothers
        exact ⟨path, List.mem_cons_of_mem _ hpath, corpus, before, hbefore.trans hsame, hstops⟩

/-- Why there is no output directory: it cannot be told whether there is one, or none can be
made. -/
theorem ensureOutputDirectory_eq_error {directory : Path}
    (h : ensureOutputDirectory directory world = (.error stop, world')) :
    (∃ fault, stop = .failed (.file fault) ∧ world.tree.isPresent directory = .error fault ∧
      world' = world) ∨
    ∃ fault tree, stop = .failed (.ofFault (.outputWrite directory.text) fault) ∧
      world.tree.isPresent directory = .ok false ∧
      world.tree.ensureDirectories directory = (.error fault, tree) ∧
      world' = { world with tree } := by
  rw [ensureOutputDirectory_apply] at h
  split at h
  case h_1 fault hasked =>
    cases h
    exact .inl ⟨fault, rfl, hasked, rfl⟩
  case h_2 => cases h
  case h_3 habsent =>
    split at h
    case h_1 => cases h
    case h_2 fault tree hmade =>
      cases h
      exact .inr ⟨fault, tree, rfl, habsent, hmade, rfl⟩

/-- Why the sources of a plan are not found, by the files before and after. -/
inductive SurveyStops (plan : Plan) (first second : FileTree) : Stop → Prop
  /-- Whether there is an output directory cannot be told. -/
  | unanswered {fault : FileFault} (hasked : first.isPresent plan.outputDirectory = .error fault)
      (hsame : second = first) : SurveyStops plan first second (.failed (.file fault))
  /-- The output directory cannot be made. -/
  | unmade {fault : FileFault} (habsent : first.isPresent plan.outputDirectory = .ok false)
      (hmade : first.ensureDirectories plan.outputDirectory = (.error fault, second)) :
      SurveyStops plan first second
        (.failed (.ofFault (.outputWrite plan.outputDirectory.text) fault))
  /-- The plan has no rules to scan by. -/
  | unruled {failure : Failure} (hrules : plan.rules = .error failure)
      (hmade : second = first.withDirectory plan.outputDirectory) :
      SurveyStops plan first second (.failed failure)
  /-- The input directory cannot be asked for. -/
  | unasked (hinput : FileTree.unaskable? plan.inputDirectory = some .nullCharacter) :
      SurveyStops plan first second
        (.failed (.file ⟨.nullCharacter, plan.inputDirectory.text, none⟩))

/-- A scan stops at its rules, or at a path with a null character. -/
theorem scan_eq_error {suffixes patterns : Value}
    (h : scan directory suffixes patterns world = (.error stop, world')) :
    (∃ failure, stop = .failed failure ∧ ScanRules.ofValues suffixes patterns = .error failure ∧
      world' = world) ∨
      stop = .failed (.file ⟨.nullCharacter, directory.text, none⟩) ∧
        FileTree.unaskable? directory = some .nullCharacter ∧ world.Untouched world' := by
  cases hrules : ScanRules.ofValues suffixes patterns with
  | error failure =>
    rw [scan, scanRules, hrules] at h
    cases h
    exact .inl ⟨failure, rfl, rfl, rfl⟩
  | ok rules =>
    obtain ⟨first, hfirst, hstill⟩ := scanRules_apply hrules world
    rw [scan, Chance.bind_apply, hfirst] at h
    dsimp only at h
    rw [Chance.bind_apply] at h
    by_cases hnull : FileTree.unaskable? directory = some .nullCharacter
    · rw [visits, if_pos hnull] at h
      cases h
      exact .inr ⟨rfl, hnull, hstill⟩
    -- What is left to do is to log what was met.
    · rw [visits_apply rules hnull] at h
      dsimp only at h
      rw [logAll_bind_apply] at h
      cases h

/-- Before a corpus is built, only the output directory and the scan can stop. -/
theorem survey_eq_error (h : survey plan world = (.error stop, world')) :
    SurveyStops plan world.tree world'.tree stop ∧ world'.chance = world.chance ∧
      World.Quiet world world' := by
  rcases Chance.bind_eq_error.mp h with hmake | ⟨⟨⟩, made, hmake, hscan⟩
  · rcases ensureOutputDirectory_eq_error hmake with
      ⟨fault, rfl, hasked, rfl⟩ | ⟨fault, tree, rfl, habsent, hmade, rfl⟩
    · exact ⟨.unanswered hasked rfl, rfl, rfl, rfl⟩
    · exact ⟨.unmade habsent hmade, rfl, rfl, rfl⟩
  · -- The output directory is there, and what stops is the scan.
    have hmade := untouched_ensureOutputDirectory hmake
    have hquiet : World.Quiet world world' :=
      World.tolerant_quiet.trans (quiet_ensureOutputDirectory hmake)
        ((respects_scan World.tolerant_quiet _ _ _).of_run hscan)
    rcases scan_eq_error hscan with ⟨failure, rfl, hrules, rfl⟩ | ⟨rfl, hnull, hstill⟩
    · exact ⟨.unruled hrules hmade.tree.symm, hmade.chance.symm, hquiet⟩
    · exact ⟨.unasked hnull, (hmade.chance.trans hstill.chance).symm, hquiet⟩

/-- The sources are not gathered if they are not found, or if one of them stops the corpus pass. -/
theorem gather_eq_error (hlines : 1 ≤ plan.maxLines)
    (h : gather tools plan world = (.error stop, world')) :
    survey plan world = (.error stop, world') ∨
      ∃ files made, survey plan world = (.ok files, made) ∧
        plan.mode.usesSharedCorpus = true ∧ World.Quiet world world' ∧
        world'.tree = made.tree ∧ ∃ path ∈ files, ∃ (corpus : Corpus) (before : World σ),
          before.tree = made.tree ∧
            AddStops tools plan.language plan.maxLines path corpus before stop := by
  have hquiet : World.Quiet world world' :=
    (respects_gather World.tolerant_quiet (fun _ _ => ⟨rfl, rfl⟩)
      fun world _ _ _ => World.quiet_after rfl rfl world).of_run h
  rcases hsurvey : survey plan world with ⟨other | files, made⟩
  · cases h.symm.trans (gather_of_stop hsurvey)
    exact .inl rfl
  · obtain ⟨-, -, rules, hrules, haskable, rfl⟩ := survey_eq_ok hsurvey
    have hgathered := h.symm.trans (gather_of_survey tools hsurvey)
    cases hshared : plan.mode.usesSharedCorpus with
    | false =>
      -- Such a plan gathers no corpus.
      rw [planCorpus, if_neg (Bool.eq_false_iff.mp hshared)] at hgathered
      cases hgathered
    | true =>
      refine .inr ⟨_, made, rfl, rfl, hquiet, ?_⟩
      obtain ⟨start, hstart, hbuild⟩ := buildCorpus_apply tools hlines hrules haskable made
      rcases hadded : addVisits tools plan.language plan.maxLines plan.inputDirectory
        (made.tree.visits plan.inputDirectory rules) 0 .empty start with ⟨result, added⟩
      obtain ⟨built, hbuilt, hstill⟩ := hbuild result added hadded
      rw [planCorpus_of_shared hshared hbuilt] at hgathered
      have hsame : added.tree = start.tree :=
        (respects_addVisits World.tolerant_sameTree _ _ _ _ _ _ _ fun _ _ _ _ => rfl).of_run hadded
      rcases result with other | ⟨used, corpus⟩
      · cases hgathered
        obtain ⟨path, hpath, corpus, before, hbefore, hstops⟩ := addVisits_eq_error hadded
        exact ⟨hstill.tree.symm.trans (hsame.trans hstart.tree.symm), path, hpath, corpus, before,
          hbefore.trans hstart.tree.symm, hstops⟩
      · cases hgathered

end Corpora

/-! ## Turns that stop -/

section Turns

variable [Chooser σ] {tools : Toolchain} {plan : Plan} {corpus : Option Corpus} {path : Path}
  {stop : Stop} {world world' : World σ}

/-- A pass that stopped stopped as its strategy did, and nothing but lines was logged after that. -/
theorem mutants_eq_error {harvest : Harvest}
    (h : mutants tools plan harvest corpus world = (.error stop, world')) :
    (plan.mode.mutants tools.patience harvest plan.count corpus plan.stallLimit
        world.chance).1.ending = .stopped stop ∧
      World.AddsLines { world with chance := (plan.mode.mutants tools.patience harvest plan.count
        corpus plan.stallLimit world.chance).2 } world' := by
  rcases hpass : plan.mode.mutants tools.patience harvest plan.count corpus plan.stallLimit
    world.chance with ⟨draft, chance⟩
  obtain ⟨lines, hrun⟩ := mutants_apply hpass
  have hboth := h.symm.trans hrun
  exact ⟨Draft.ending_of_result (congrArg Prod.fst hboth).symm, lines, congrArg Prod.snd hboth⟩

/-- What stops once a source is harvested: the pass over its harvest, or, when all mutants are
handed over, the writing of these. -/
theorem mutateHarvest_eq_error {found : Harvest}
    (h : mutateHarvest tools plan corpus path found world = (.error stop, world')) :
    ((plan.mode.mutants tools.patience found plan.count corpus plan.stallLimit
        world.chance).1.ending = .stopped stop ∧
      world'.tree = world.tree ∧ World.Quiet world world') ∨
    ∃ (mutants : List Mutant) (handed : World σ), handed.tree = world.tree ∧
      handed.acceptances = world.acceptances ++ mutants.map (fun mutant => (path, mutant)) ∧
      handed.writings = world.writings ∧
      writeMutants plan.outputDirectory path mutants handed = (.error stop, world') := by
  rcases Chance.bind_eq_error.mp h with hmutants | ⟨made, drawn, hmade, hrest⟩
  · obtain ⟨hending, hlines⟩ := mutants_eq_error hmutants
    refine .inl ⟨hending, hlines.still.tree.symm, ?_⟩
    exact World.tolerant_quiet.trans (World.tolerant_quiet.drawn world _) hlines.quiet
  · -- Handing over cannot fail, and neither can the line after the writing.
    obtain ⟨handed, hhandOver, hhanded, hunwritten⟩ := handOver_apply path made drawn
    have hdrawn : World.Quiet world drawn :=
      (respects_mutants World.tolerant_quiet tools plan found corpus).of_run hmade
    have hsame : drawn.tree = world.tree :=
      (respects_mutants World.tolerant_sameTree tools plan found corpus).of_run hmade
    have hsame' : handed.tree = drawn.tree :=
      (respects_handOver World.tolerant_sameTree path made fun _ _ _ => rfl).of_run hhandOver
    rw [Chance.bind_apply, hhandOver] at hrest
    dsimp only at hrest
    rcases Chance.bind_eq_error.mp hrest with hwrite | ⟨paths, last, -, hlast⟩
    · refine .inr ⟨made, handed, hsame'.trans hsame, ?_, ?_, hwrite⟩
      · rw [hhanded, hdrawn.1]
      · rw [hunwritten, hdrawn.2]
    · cases hlast

/-- At which step the turn of a source stops, and in which world. -/
inductive TurnStops (tools : Toolchain) (plan : Plan) (corpus : Option Corpus) (path : Path)
    (world world' : World σ) : Stop → Prop
  | unread {failure : Failure} (hread : world.tree.sourceText path = .error failure)
      (hstill : world.Still world') (hquiet : World.Quiet world world') :
      TurnStops tools plan corpus path world world' (.failed failure)
  | unharvested {text : String} {stop : Stop} (htext : world.tree.HasText path text)
      (hwithin : Lines.within text plan.maxLines = true)
      (hharvest : tools.harvestOf plan.language path text world.grammars = .error stop)
      (hlevel : world.Level world') (hquiet : World.Quiet world world') :
      TurnStops tools plan corpus path world world' stop
  | unmade {text : String} {found : Harvest} {harvested : World σ} {stop : Stop}
      (htext : world.tree.HasText path text) (hwithin : Lines.within text plan.maxLines = true)
      (hharvest : tools.harvestOf plan.language path text world.grammars = .ok found)
      (hlevel : world.Level harvested)
      (hpass : (plan.mode.mutants tools.patience found plan.count corpus plan.stallLimit
        harvested.chance).1.ending = .stopped stop)
      (htree : world'.tree = world.tree) (hquiet : World.Quiet world world') :
      TurnStops tools plan corpus path world world' stop
  | unwritten {mutants : List Mutant} {handed : World σ} {stop : Stop}
      (htree : handed.tree = world.tree)
      (hhanded : handed.acceptances
        = world.acceptances ++ mutants.map fun mutant => (path, mutant))
      (hwritten : handed.writings = world.writings)
      (hwrite : writeMutants plan.outputDirectory path mutants handed = (.error stop, world')) :
      TurnStops tools plan corpus path world world' stop

/-- The turn of a source stops in one of the listed ways. -/
theorem mutateFile_eq_error (h : mutateFile tools plan corpus path world = (.error stop, world')) :
    TurnStops tools plan corpus path world world' stop := by
  have hnamed : world.AddsLines (world.after (.logged (.info s!"filename : {path.name}"))) :=
    world.addsLines_logged _
  rw [mutateFile, log_bind_apply] at h
  rcases Chance.bind_eq_error.mp h with hread | ⟨text, read, hread, htext⟩
  · obtain ⟨rfl, failure, rfl, hfailure⟩ := readSource_of_error hread
    exact .unread hfailure hnamed.still hnamed.quiet
  obtain ⟨bytes, hbytes, hdecode, rfl⟩ := readSource_eq_ok hread
  have hhas : world.tree.HasText path text := ⟨bytes, hbytes, hdecode⟩
  cases hwithin : Lines.within text plan.maxLines with
  | false =>
    -- A text that is too long is passed over.
    rw [mutateText_of_not_within hwithin] at htext
    cases htext
  | true =>
    generalize world.after (.logged (.info s!"filename : {path.name}")) = named at htext hnamed
    have hstill : world.Still (named.after (.read path bytes)) :=
      hnamed.still.trans (World.still_after rfl named)
    have hquiet : World.Quiet world (named.after (.read path bytes)) :=
      World.tolerant_quiet.trans hnamed.quiet (World.quiet_after rfl rfl named)
    generalize named.after (.read path bytes) = read at htext hstill hquiet
    obtain ⟨harvested, hharvest, hlevel, -⟩ :=
      harvestText_apply tools plan.language path text read
    have hquiet' : World.Quiet world harvested := World.tolerant_quiet.trans hquiet
      ((respects_harvest World.tolerant_quiet tools _ _ _).of_run hharvest)
    rw [hstill.grammars] at hharvest
    rw [mutateText_of_within hwithin, Chance.bind_apply, hharvest] at htext
    cases hfound : tools.harvestOf plan.language path text world.grammars with
    | error other =>
      rw [hfound] at htext
      cases htext
      exact .unharvested hhas hwithin hfound (hstill.toLevel.trans hlevel) hquiet'
    | ok found =>
      rw [hfound] at htext
      have hharvested := hstill.toLevel.trans hlevel
      -- Nothing was handed over before, so what was handed over is of this source.
      rcases mutateHarvest_eq_error htext with ⟨hending, htree, hpass⟩ |
        ⟨mutants, handed, htree, hhanded, hwritten, hwrite⟩
      · exact .unmade hhas hwithin hfound hharvested hending
          (htree.trans hharvested.tree.symm) (World.tolerant_quiet.trans hquiet' hpass)
      · rw [hquiet'.1] at hhanded
        rw [hquiet'.2] at hwritten
        exact .unwritten (htree.trans hharvested.tree.symm) hhanded hwritten hwrite

/-- A pass over sources stops at the turn of one of them, after those before it. -/
theorem mutateFiles_eq_error {paths : List Path}
    (h : mutateFiles tools plan corpus paths world = (.error stop, world')) :
    ∃ earlier path later reports before, paths = earlier ++ path :: later ∧
      mutateFiles tools plan corpus earlier world = (.ok reports, before) ∧
      mutateFile tools plan corpus path before = (.error stop, world') := by
  induction paths generalizing world with
  | nil => cases h
  | cons path rest ih =>
    rcases Chance.bind_eq_error.mp h with hfile | ⟨report, between, hfile, hothers⟩
    -- The first turn stops, or it returns and a later one stops.
    · exact ⟨[], path, rest, [], world, rfl, rfl, hfile⟩
    · rcases Chance.bind_eq_error.mp hothers with hrest | ⟨reports, last, -, hlast⟩
      · obtain ⟨earlier, other, later, reports, before, rfl, hearlier, hother⟩ := ih hrest
        refine ⟨path :: earlier, other, later, report :: reports, before, rfl, ?_, hother⟩
        rw [mutateFiles, Chance.bind_apply, hfile]
        dsimp only
        rw [Chance.bind_apply, hearlier]
        rfl
      · cases hlast

end Turns

/-! ## Runs that stop

A run stops at its checks, at its opening, at the survey, in the corpus pass or in a turn.  Results
about all failures go by these cases.
-/

/-- The input directory of settings that pass is there. -/
theorem leads_of_passes {settings : Settings} {tree : FileTree} {plan : Plan}
    (h : settings.Passes tree plan) : tree.LeadsToDirectory plan.inputDirectory := by
  have hinput := h.isDirectory
  rw [← h.inputDirectory, Settings.checkInputDirectory] at hinput
  split at hinput
  case h_1 hdirectory => exact FileTree.leadsToDirectory_of_isDirectory hdirectory
  case h_2 => cases hinput
  case h_3 => cases hinput

/-- A step with its lines in the log stops as the step itself does. -/
theorem traced_eq_error {α : Type} {step : String} {body : Run σ α} {stop : Stop}
    {world world' : World σ} (h : traced step body world = (.error stop, world')) :
    ∃ between, body (world.after (.logged (.entered step))) = (.error stop, between) ∧
      between.AddsLines world' := by
  rw [traced, log_bind_apply] at h
  rcases hbody : body (world.after (.logged (.entered step))) with ⟨other | a, between⟩
  · rw [Chance.bind_apply, Chance.tryCatch_apply, hbody] at h
    rcases other with failure | _
    · cases h
      exact ⟨_, rfl, World.addsLines_logged _ _⟩
    · cases h
      exact ⟨_, rfl, .refl _⟩
  · rw [Chance.bind_apply, Chance.tryCatch_apply, hbody] at h
    cases h

section Runs

variable [Chooser σ] {tools : Toolchain} {settings : Settings} {opening : Run σ Unit} {stop : Stop}
  {start world : World σ}

/-- At which step a run stops, and in which world. -/
inductive RunStops (tools : Toolchain) (settings : Settings) (opening : Run σ Unit)
    (start world : World σ) : Stop → Prop
  /-- The settings did not pass. -/
  | refused {failure : Failure} (hcheck : settings.check start.tree = .error failure)
      (hlines : start.AddsLines world) :
      RunStops tools settings opening start world (.failed failure)
  /-- There is no generator of the seed. -/
  | unopened {plan : Plan} {opened : World σ} {stop : Stop}
      (hcheck : settings.check start.tree = .ok plan)
      (hopening : opening (start.after (.logged (.entered "run_mutation"))) = (.error stop, opened))
      (hlines : opened.AddsLines world) : RunStops tools settings opening start world stop
  /-- The sources could not be gathered. -/
  | ungathered {plan : Plan} {opened gathered : World σ} {stop : Stop}
      (hcheck : settings.check start.tree = .ok plan)
      (hopening : opening (start.after (.logged (.entered "run_mutation"))) = (.ok (), opened))
      (hgather : gather tools plan (opened.after (.logged (startLine plan)))
        = (.error stop, gathered))
      (hlines : gathered.AddsLines world) : RunStops tools settings opening start world stop
  /-- A source could not be mutated. -/
  | unmutated {plan : Plan} {opened gathered mutated : World σ} {files : List Path}
      {corpus : Option Corpus} {stop : Stop} (hcheck : settings.check start.tree = .ok plan)
      (hopening : opening (start.after (.logged (.entered "run_mutation"))) = (.ok (), opened))
      (hgather : gather tools plan (opened.after (.logged (startLine plan)))
        = (.ok (files, corpus), gathered))
      (hmutate : mutateFiles tools plan corpus files gathered = (.error stop, mutated))
      (hlines : mutated.AddsLines world) : RunStops tools settings opening start world stop

/-- A run stops in one of the listed ways. -/
theorem mutateAfter_eq_error
    (h : mutateAfter opening tools settings start = (.error stop, world)) :
    RunStops tools settings opening start world stop := by
  obtain ⟨between, hbody, hlines⟩ := traced_eq_error h
  rw [Chance.bind_apply, tree_apply] at hbody
  dsimp only at hbody
  rw [World.tree_after] at hbody
  cases hcheck : settings.check start.tree with
  | error failure =>
    rw [hcheck] at hbody
    cases hbody
    exact .refused hcheck ((start.addsLines_logged _).trans hlines)
  | ok plan =>
    rw [hcheck, Chance.bind_apply, ofExcept_ok_apply] at hbody
    dsimp only at hbody
    rcases Chance.bind_eq_error.mp hbody with hopening | ⟨⟨⟩, opened, hopened, hcarry⟩
    · exact .unopened hcheck hopening hlines
    rw [carryOut, carryOutBy, log_bind_apply] at hcarry
    rcases Chance.bind_eq_error.mp hcarry with hgather | ⟨⟨files, corpus⟩, gathered, hgather, hpass⟩
    · exact .ungathered hcheck hopened hgather hlines
    -- The pass over the sources is the last step that can stop.
    rcases Chance.bind_eq_error.mp hpass with hmutate | ⟨sources, mutated, -, hlast⟩
    · exact .unmutated hcheck hopened hgather hmutate hlines
    · cases hlast

end Runs

end Run

end SourceMutation
