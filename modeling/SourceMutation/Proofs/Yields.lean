import SourceMutation.Proofs.Effects
import SourceMutation.Proofs.MutantNames

/-!
# What a run reports

A run that returns met sources of its language's suffix (`Run.suffixOf_of_mem_scan`), and its
summary has a report of each of them.  A report is faithful to the mutants that were accepted of its
source: it counts them and names the paths they were written to (`Yield.Faithful`).  The writings of
the run are those of its reports, in order (`Run.mutateFiles_eq_ok`).

A run is taken apart from its last step to its first one.

- What one source yields is its mutants and its report (`Yield`).  A step that returns adds what the
  yield says to what was handed over and written, and steps before that add nothing (`World.Quiet`).
- The sources come one after another, so that what they yield stands in the order of the scan.
- Around that there is a start line, the gathering of the sources and an end line
  (`Run.carryOutBy_eq_ok`), none of which hands over or writes anything.
-/

namespace SourceMutation

variable {σ : Type}

/-! ## Sources -/

namespace ScanRules

/-- Suffixes that are texts are accepted as they are. -/
theorem checkSuffixItems_texts {suffixes checked : List String}
    (h : checkSuffixItems (suffixes.map .text) = .ok checked) : checked = suffixes := by
  induction suffixes generalizing checked with
  | nil =>
    cases h
    rfl
  | cons suffix rest ih =>
    rw [List.map_cons, checkSuffixItems] at h
    split at h
    case h_1 =>
      cases hrest : checkSuffixItems (rest.map .text) with
      | error failure =>
        rw [hrest] at h
        cases h
      | ok others =>
        rw [hrest] at h
        cases h
        rw [ih hrest]
    case h_2 => cases h
    case h_3 => cases h

/-- Rules have the suffixes that were given and checked. -/
theorem checked_of_ofValues {suffixes patterns : Value} {rules : ScanRules}
    (h : ofValues suffixes patterns = .ok rules) :
    ∃ items, itemsOf suffixes = .ok items ∧ checkSuffixItems items = .ok rules.suffixes := by
  obtain ⟨items, hitems, hchecks⟩ := except_bind_eq_ok.mp h
  obtain ⟨checked, hchecked, hrules⟩ := except_bind_eq_ok.mp hchecks
  have hsuffixes : checkSuffixItems items = .ok checked := by
    unfold checkSuffixes at hchecked
    split at hchecked
    case isTrue => exact hchecked
    case isFalse => cases hchecked
  refine ⟨items, hitems, ?_⟩
  -- What is ignored does not change the suffixes.
  split at hrules
  · obtain ⟨texts, -, hignore⟩ := except_bind_eq_ok.mp hrules
    obtain ⟨ignore, -, hlast⟩ := except_bind_eq_ok.mp hignore
    cases hlast
    exact hsuffixes
  · cases hrules
    exact hsuffixes

/-- The rules of a scan have the suffixes that were given. -/
theorem suffixes_of_ofValues {suffixes : List String} {patterns : Value} {rules : ScanRules}
    (h : ofValues (.texts suffixes) patterns = .ok rules) : rules.suffixes = suffixes := by
  obtain ⟨items, hitems, hchecked⟩ := checked_of_ofValues h
  cases hitems
  exact checkSuffixItems_texts hchecked

end ScanRules

namespace FileTree

variable {tree : FileTree} {rules : ScanRules}

/-- A file that is met has a suffix that the rules allow. -/
theorem mem_visitFile {names found : List String} (h : .file found ∈ visitFile rules names) :
    found = names ∧ Path.suffixOf (names.getLastD "") ∈ rules.suffixes := by
  unfold visitFile at h
  split at h
  case isTrue hsuffix =>
    split at h
    · simp at h
    · simp at h
      exact ⟨h, List.contains_iff_mem.mp hsuffix⟩
  case isFalse => simp at h

/-- Whatever file a scan is after has one of the suffixes of the scan. -/
theorem suffixOf_of_mem_visitsIn {directory : Path} {depth : Nat} {location : Location}
    {names found : List String}
    (h : .file found ∈ tree.visitsIn rules directory depth location names) :
    ∃ above name, found = above ++ [name] ∧ Path.suffixOf name ∈ rules.suffixes := by
  induction depth generalizing location names with
  | zero => simp [visitsIn] at h
  | succ depth ih =>
    rw [visitsIn] at h
    dsimp only at h
    -- Ignored directories come first, then the files, then what is met further down.
    rcases List.mem_append.mp h with h | h
    · rcases List.mem_append.mp h with h | h
      · simp at h
      · obtain ⟨name, -, hname⟩ := List.mem_flatMap.mp h
        obtain ⟨rfl, hsuffix⟩ := mem_visitFile hname
        rw [List.getLastD_concat] at hsuffix
        exact ⟨names, name, rfl, hsuffix⟩
    · obtain ⟨name, -, hname⟩ := List.mem_flatMap.mp h
      exact ih hname

/-- A file that a scan met has such a suffix, whatever directory it was in. -/
theorem suffixOf_of_mem_visits {directory : Path} {found : List String}
    (h : .file found ∈ tree.visits directory rules) :
    ∃ above name, found = above ++ [name] ∧ Path.suffixOf name ∈ rules.suffixes := by
  unfold visits at h
  split at h
  · split at h
    · exact suffixOf_of_mem_visitsIn h
    · simp at h
  · simp at h

/-- Whatever file a scan finds has one of the suffixes of the scan. -/
theorem suffixOf_of_mem_sourceFiles {directory path : Path}
    (h : path ∈ tree.sourceFiles directory rules) : Path.suffixOf path.name ∈ rules.suffixes := by
  obtain ⟨visit, hvisit, hpath⟩ := List.mem_filterMap.mp h
  -- Only what is met as a file becomes a path.
  cases visit with
  | ignoredDirectory | ignoredFile => cases hpath
  | file found =>
    cases hpath
    obtain ⟨above, name, rfl, hsuffix⟩ := suffixOf_of_mem_visits hvisit
    simpa [Path.name, Path.below, ← List.append_assoc] using hsuffix

end FileTree

namespace Run

/-- Rules that were read are those that the settings spell. -/
theorem scanRules_eq_ok {suffixes patterns : Value} {rules : ScanRules} {world world' : World σ}
    (h : scanRules suffixes patterns world = (.ok rules, world')) :
    ScanRules.ofValues suffixes patterns = .ok rules := by
  obtain ⟨checked, hchecked, hrest⟩ := ofExcept_bind_eq_ok.mp h
  split at hrest
  · rw [log_bind_apply] at hrest
    cases hrest
    exact hchecked
  · cases hrest
    exact hchecked

/-- What was met is what the files say, and looking at them changes nothing. -/
theorem visits_eq_ok {directory : Path} {rules : ScanRules} {met : List Visit}
    {world world' : World σ} (h : visits directory rules world = (.ok met, world')) :
    met = world.tree.visits directory rules ∧ world' = world := by
  rw [visits] at h
  split at h
  · obtain ⟨⟨⟩, between, hfail, -⟩ := Chance.bind_eq_ok.mp h
    cases hfail
  · cases h
    exact ⟨rfl, rfl⟩

/-- The files that a scan is after have one of the suffixes it was given. -/
theorem suffixOf_of_mem_scan {directory : Path} {suffixes : List String} {patterns : Value}
    {files : List Path} {world world' : World σ}
    (h : scan directory (.texts suffixes) patterns world = (.ok files, world')) {path : Path}
    (hmem : path ∈ files) : Path.suffixOf path.name ∈ suffixes := by
  obtain ⟨rules, first, hrules, hvisits⟩ := Chance.bind_eq_ok.mp h
  obtain ⟨met, second, hmet, hfiles⟩ := Chance.bind_eq_ok.mp hvisits
  rw [logAll_bind_apply] at hfiles
  cases hfiles
  obtain ⟨rfl, -⟩ := visits_eq_ok hmet
  have hsuffix := FileTree.suffixOf_of_mem_sourceFiles hmem
  rwa [ScanRules.suffixes_of_ofValues (scanRules_eq_ok hrules)] at hsuffix

end Run

/-! ## What was handed over and written -/

namespace World

/-- An event adds what it handed over. -/
@[simp] theorem acceptances_after (world : World σ) (event : Event) :
    (world.after event).acceptances = world.acceptances ++ event.accepted?.toList := by
  cases h : event.accepted? <;> simp [acceptances, h]

/-- An event adds what it wrote. -/
@[simp] theorem writings_after (world : World σ) (event : Event) :
    (world.after event).writings = world.writings ++ event.written?.toList := by
  cases h : event.written? <;> simp [writings, h]

/-- Whether nothing was handed over or written. -/
def Quiet (first second : World σ) : Prop :=
  second.acceptances = first.acceptances ∧ second.writings = first.writings

/-- An event that neither hands over nor writes is quiet. -/
theorem quiet_after {event : Event} (hhanded : event.accepted? = none)
    (hwritten : event.written? = none) (world : World σ) : Quiet world (world.after event) := by
  simp [Quiet, hhanded, hwritten]

/-- Logging, loading and drawing are quiet. -/
theorem tolerant_quiet : Tolerant (Quiet (σ := σ)) where
  refl _ := ⟨rfl, rfl⟩
  trans h h' := ⟨h'.1.trans h.1, h'.2.trans h.2⟩
  logged world _ := quiet_after rfl rfl world
  loaded _ _ := ⟨rfl, rfl⟩
  drawn _ _ := ⟨rfl, rfl⟩

end World

/-- Mutants of a source, numbered from `index`, each with the path it is written to. -/
def numbered (directory : Path) (source : String) : (index : Nat) → List Mutant →
    List (Path × Mutant)
  | _, [] => []
  | index, mutant :: rest =>
    (directory.below [MutantName.compose source index], mutant)
      :: numbered directory source (index + 1) rest

/-- The bytes that a mutant is written as. -/
def written (target : Path × Mutant) : Path × Bytes := (target.1, Utf8.encode target.2.text)

/-- A source of a run, the mutants that were accepted of it, and its report. -/
structure Yield where
  source : Path
  mutants : List Mutant
  report : SourceReport

namespace Yield

/-- The mutants as they were handed over. -/
def acceptances (yield : Yield) : List (Path × Mutant) :=
  yield.mutants.map fun mutant => (yield.source, mutant)

/-- The mutants with the paths they are written to. -/
def targets (directory : Path) (yield : Yield) : List (Path × Mutant) :=
  numbered directory yield.source.name 1 yield.mutants

/-- Whether the report tells the source, the number of its mutants and where they were written. -/
structure Faithful (directory : Path) (yield : Yield) : Prop where
  path : yield.report.path = yield.source.text
  mutantCount : yield.report.mutantCount = yield.mutants.length
  written : yield.report.written = (yield.targets directory).map fun target => target.1.text

end Yield

namespace Run

/-- Handing mutants over never fails, and adds each of them in order. -/
theorem handOver_apply (source : Path) (mutants : List Mutant) (world : World σ) :
    ∃ world', handOver source mutants world = (.ok (), world') ∧
      world'.acceptances = world.acceptances ++ mutants.map (fun mutant => (source, mutant)) ∧
      world'.writings = world.writings := by
  induction mutants generalizing world with
  | nil => exact ⟨world, rfl, by simp, rfl⟩
  | cons mutant rest ih =>
    obtain ⟨world', hrun, hhanded, hwritten⟩ := ih (world.after (.accepted source mutant))
    refine ⟨world', ?_, ?_, ?_⟩
    · rw [handOver, Chance.bind_apply, record_apply]
      exact hrun
    · simpa [Event.accepted?] using hhanded
    · simpa [Event.written?] using hwritten

/-- Mutants that were written were written to numbered paths, in order. -/
theorem writeNumbered_eq_ok {directory : Path} {source : String} {index : Nat}
    {mutants : List Mutant} {paths : List Path} {world world' : World σ}
    (h : writeNumbered directory source index mutants world = (.ok paths, world')) :
    paths = (numbered directory source index mutants).map Prod.fst ∧
      world'.acceptances = world.acceptances ∧
      world'.writings
        = world.writings ++ (numbered directory source index mutants).map written := by
  induction mutants generalizing index paths world with
  | nil =>
    cases h
    exact ⟨rfl, rfl, by simp [numbered]⟩
  | cons mutant rest ih =>
    obtain ⟨name, hname, hwrite⟩ := ofExcept_bind_eq_ok.mp h
    obtain rfl := compose_of_ofIndex hname
    obtain ⟨⟨⟩, first, hfirst, hothers⟩ := Chance.bind_eq_ok.mp hwrite
    obtain ⟨others, second, hsecond, hlast⟩ := Chance.bind_eq_ok.mp hothers
    cases hlast
    -- The first mutant was written, and the others were written after it.
    rw [writeOutput_apply] at hfirst
    split at hfirst
    case h_1 => cases hfirst
    case h_2 tree _ =>
      cases hfirst
      obtain ⟨rfl, hhanded, hwritten⟩ := ih hsecond
      refine ⟨rfl, ?_, ?_⟩
      · rw [hhanded, World.acceptances_after]
        simp [Event.accepted?, World.acceptances, World.events]
      · rw [hwritten, World.writings_after]
        simp [Event.written?, World.writings, World.events, numbered, written]

/-- Making the output directory is quiet. -/
theorem quiet_ensureOutputDirectory {path : Path} {world world' : World σ}
    (h : ensureOutputDirectory path world = (.ok (), world')) : World.Quiet world world' :=
  (respects_ensureOutputDirectory World.tolerant_quiet path fun _ _ => ⟨rfl, rfl⟩).of_run h

/-- Mutants of a source that were written are numbered from one. -/
theorem writeMutants_eq_ok {directory source : Path} {mutants : List Mutant} {paths : List Path}
    {world world' : World σ}
    (h : writeMutants directory source mutants world = (.ok paths, world')) :
    paths = (numbered directory source.name 1 mutants).map Prod.fst ∧
      world'.acceptances = world.acceptances ∧
      world'.writings
        = world.writings ++ (numbered directory source.name 1 mutants).map written := by
  rw [writeMutants] at h
  split at h
  -- Without mutants not even the directory is made.
  case isTrue hempty =>
    cases h
    rw [List.isEmpty_iff.mp hempty]
    exact ⟨rfl, rfl, by simp [numbered]⟩
  case isFalse =>
    obtain ⟨⟨⟩, first, hensured, hwrite⟩ := Chance.bind_eq_ok.mp h
    obtain ⟨names, second, hnames, hlast⟩ := Chance.bind_eq_ok.mp hwrite
    rw [log_bind_apply] at hlast
    cases hlast
    obtain ⟨hhanded, hwritten⟩ := quiet_ensureOutputDirectory hensured
    obtain ⟨rfl, hhanded', hwritten'⟩ := writeNumbered_eq_ok hnames
    refine ⟨rfl, ?_, ?_⟩
    · simp [Event.accepted?, hhanded', hhanded]
    · simp [Event.written?, hwritten', hwritten]

section Runs

variable [Chooser σ] {tools : Toolchain} {plan : Plan} {corpus : Option Corpus}

/-- The report of a text is faithful to what was handed over and written of it. -/
theorem mutateText_eq_ok {path : Path} {text : String} {report : SourceReport}
    {world world' : World σ}
    (h : mutateText tools plan corpus path text world = (.ok report, world')) :
    ∃ mutants, (Yield.mk path mutants report).Faithful plan.outputDirectory ∧
      world'.acceptances = world.acceptances ++ (Yield.mk path mutants report).acceptances ∧
      world'.writings = world.writings
        ++ ((Yield.mk path mutants report).targets plan.outputDirectory).map written := by
  rw [mutateText] at h
  split at h
  case isTrue =>
    obtain ⟨harvest, first, hharvest, hrest⟩ := Chance.bind_eq_ok.mp h
    obtain ⟨mutants, second, hmutants, hrest'⟩ := Chance.bind_eq_ok.mp hrest
    obtain ⟨third, hhandOver, hhanded, hquiet⟩ := handOver_apply path mutants second
    rw [Chance.bind_apply, hhandOver] at hrest'
    obtain ⟨paths, fourth, hpaths, hlast⟩ := Chance.bind_eq_ok.mp hrest'
    rw [log_bind_apply] at hlast
    cases hlast
    -- Harvesting and drawing neither hand over nor write.
    have hfirst : World.Quiet world first :=
      (respects_harvest World.tolerant_quiet tools _ _ _).of_run hharvest
    have hsecond : World.Quiet first second :=
      (respects_mutants World.tolerant_quiet tools plan harvest corpus).of_run hmutants
    obtain ⟨hnames, hhanded', hwritten⟩ := writeMutants_eq_ok hpaths
    refine ⟨mutants, ⟨rfl, rfl, ?_⟩, ?_, ?_⟩
    · simp [hnames, Yield.targets]
    · simp [Event.accepted?, hhanded', hhanded, hsecond.1, hfirst.1, Yield.acceptances]
    · simp [Event.written?, hwritten, hquiet, hsecond.2, hfirst.2, Yield.targets]
  case isFalse =>
    -- A text that is too long has no mutants.
    rw [log_bind_apply] at h
    cases h
    refine ⟨[], ⟨rfl, rfl, rfl⟩, ?_, ?_⟩
    · simp [Yield.acceptances, Event.accepted?]
    · simp [Yield.targets, numbered, Event.written?]

/-- A source that was mutated was read first. -/
theorem mutateFile_eq_ok {path : Path} {report : SourceReport} {world world' : World σ}
    (h : mutateFile tools plan corpus path world = (.ok report, world')) :
    ∃ text between, World.Quiet world between ∧
      mutateText tools plan corpus path text between = (.ok report, world') := by
  rw [mutateFile, log_bind_apply] at h
  obtain ⟨text, first, hread, hrest⟩ := Chance.bind_eq_ok.mp h
  obtain ⟨bytes, -, -, rfl⟩ := readSource_eq_ok hread
  refine ⟨text, _, ?_, hrest⟩
  exact World.tolerant_quiet.trans (World.quiet_after rfl rfl world) (World.quiet_after rfl rfl _)

/-- The reports of sources are faithful to what was handed over and written of them. -/
theorem mutateFiles_eq_ok {paths : List Path} {reports : List SourceReport} {world world' : World σ}
    (h : mutateFiles tools plan corpus paths world = (.ok reports, world')) :
    ∃ yields : List Yield, yields.map Yield.source = paths ∧ yields.map Yield.report = reports ∧
      (∀ yield ∈ yields, yield.Faithful plan.outputDirectory) ∧
      world'.acceptances = world.acceptances ++ yields.flatMap Yield.acceptances ∧
      world'.writings = world.writings
        ++ yields.flatMap fun yield => (yield.targets plan.outputDirectory).map written := by
  induction paths generalizing reports world with
  | nil =>
    cases h
    exact ⟨[], rfl, rfl, nofun, by simp, by simp⟩
  | cons path rest ih =>
    obtain ⟨report, first, hreport, hothers⟩ := Chance.bind_eq_ok.mp h
    obtain ⟨others, second, hrest, hlast⟩ := Chance.bind_eq_ok.mp hothers
    cases hlast
    -- The yield of the first source is that of its turn, and the others are those of the rest.
    obtain ⟨text, between, ⟨hhanded, hwritten⟩, htext⟩ := mutateFile_eq_ok hreport
    obtain ⟨mutants, hfaithful, hhanded', hwritten'⟩ := mutateText_eq_ok htext
    obtain ⟨yields, rfl, rfl, hyields, hhanded'', hwritten''⟩ := ih hrest
    refine ⟨⟨path, mutants, report⟩ :: yields, rfl, rfl, ?_, ?_, ?_⟩
    · exact List.forall_mem_cons.mpr ⟨hfaithful, hyields⟩
    · rw [hhanded'', hhanded', hhanded, List.flatMap_cons, List.append_assoc]
    · rw [hwritten'', hwritten', hwritten, List.flatMap_cons, List.append_assoc]

/-- A pass over sources is a pass over some of them and then one over the others. -/
theorem mutateFiles_append_eq_ok {earlier later : List Path} {reports : List SourceReport}
    {world world' : World σ} :
    mutateFiles tools plan corpus (earlier ++ later) world = (.ok reports, world') ↔
      ∃ first between rest, mutateFiles tools plan corpus earlier world = (.ok first, between) ∧
        mutateFiles tools plan corpus later between = (.ok rest, world') ∧
        reports = first ++ rest := by
  -- The induction takes the sources of the first part one by one.
  induction earlier generalizing reports world with
  | nil =>
    constructor
    · intro h
      exact ⟨[], world, reports, rfl, h, rfl⟩
    · rintro ⟨first, between, rest, hfirst, hrest, rfl⟩
      cases hfirst
      exact hrest
  | cons path paths ih =>
    constructor
    · intro h
      obtain ⟨report, second, hreport, hothers⟩ := Chance.bind_eq_ok.mp h
      obtain ⟨others, last, hothers, hlast⟩ := Chance.bind_eq_ok.mp hothers
      cases hlast
      obtain ⟨first, between, rest, hfirst, hrest, rfl⟩ := ih.mp hothers
      refine ⟨report :: first, between, rest, ?_, hrest, rfl⟩
      exact Chance.bind_eq_ok.mpr
        ⟨report, second, hreport, Chance.bind_eq_ok.mpr ⟨first, between, hfirst, rfl⟩⟩
    · rintro ⟨first, between, rest, hfirst, hrest, rfl⟩
      obtain ⟨report, second, hreport, hothers⟩ := Chance.bind_eq_ok.mp hfirst
      obtain ⟨others, last, hothers, hlast⟩ := Chance.bind_eq_ok.mp hothers
      cases hlast
      exact Chance.bind_eq_ok.mpr ⟨report, second, hreport, Chance.bind_eq_ok.mpr
        ⟨others ++ rest, world', ih.mpr ⟨others, between, rest, hothers, hrest, rfl⟩, rfl⟩⟩

end Runs

/-! ## Whole runs -/

/-- A plan is carried out if all its parts are. -/
theorem carryOutBy_eq_ok {pass : Option Corpus → List Path → Run σ (List SourceReport)}
    {tools : Toolchain} {plan : Plan} {summary : Summary} {world world' : World σ} :
    carryOutBy pass tools plan world = (.ok summary, world') ↔
      ∃ files corpus gathered sources mutated,
        gather tools plan (world.after (.logged (startLine plan)))
          = (.ok (files, corpus), gathered) ∧
        pass corpus files gathered = (.ok sources, mutated) ∧
        summary = summarize plan corpus sources ∧
        world' = mutated.after (.logged (endLine summary)) := by
  rw [carryOutBy, log_bind_apply]
  constructor
  · intro h
    obtain ⟨⟨files, corpus⟩, gathered, hgathered, hpass⟩ := Chance.bind_eq_ok.mp h
    obtain ⟨sources, mutated, hmutated, hlast⟩ := Chance.bind_eq_ok.mp hpass
    rw [log_bind_apply] at hlast
    cases hlast
    exact ⟨files, corpus, gathered, sources, mutated, hgathered, hmutated, rfl, rfl⟩
  -- Put together again, the parts come to the same.
  · rintro ⟨files, corpus, gathered, sources, mutated, hgathered, hmutated, rfl, rfl⟩
    rw [Chance.bind_apply, hgathered]
    dsimp only
    rw [Chance.bind_apply, hmutated]
    rfl

/-- A run that returned had its settings accepted, was opened, and carried out its plan. -/
theorem mutateAfter_eq_ok [Chooser σ] {tools : Toolchain} {settings : Settings}
    {opening : Run σ Unit} {summary : Summary} {world world' : World σ}
    (h : mutateAfter opening tools settings world = (.ok summary, world')) :
    ∃ plan opened carried, settings.check world.tree = .ok plan ∧
      opening (world.after (.logged (.entered "run_mutation"))) = (.ok (), opened) ∧
      carryOut tools plan opened = (.ok summary, carried) ∧
      world' = carried.after (.logged (.completed "run_mutation")) := by
  obtain ⟨carried, hbody, rfl⟩ := traced_eq_ok h
  obtain ⟨tree, between, htree, hchecked⟩ := Chance.bind_eq_ok.mp hbody
  cases htree
  obtain ⟨plan, hplan, hopening⟩ := ofExcept_bind_eq_ok.mp hchecked
  obtain ⟨⟨⟩, opened, hopened, hcarried⟩ := Chance.bind_eq_ok.mp hopening
  exact ⟨plan, opened, carried, hplan, hopened, hcarried, rfl⟩

/-- Before the first source is mutated, nothing is handed over or written. -/
theorem quiet_gather {tools : Toolchain} {plan : Plan} {files : List Path}
    {corpus : Option Corpus} {world world' : World σ}
    (h : gather tools plan world = (.ok (files, corpus), world')) : World.Quiet world world' :=
  (respects_gather World.tolerant_quiet (fun _ _ => ⟨rfl, rfl⟩)
    fun world _ _ _ => World.quiet_after rfl rfl world).of_run h

/-- Once there is an output directory, something stands where the output goes. -/
theorem locate_of_ensureOutputDirectory {path : Path} {world world' : World σ}
    (h : ensureOutputDirectory path world = (.ok (), world')) :
    ∃ place, world'.tree.locate path = .ok place ∧ (world'.tree.entry? place).isSome := by
  rw [ensureOutputDirectory_apply] at h
  split at h
  case h_1 => cases h
  -- What stands there already is not looked at any further.
  case h_2 hpresent =>
    cases h
    exact FileTree.locate_of_isPresent hpresent
  case h_3 =>
    split at h
    case h_1 after hafter =>
      cases h
      obtain ⟨place, hplace, hentry⟩ := FileTree.ensureDirectories_leads hafter
      exact ⟨place, hplace, by simp [hentry]⟩
    case h_2 => cases h

/-- Once everything is gathered, something stands where the output goes. -/
theorem locate_of_gather {tools : Toolchain} {plan : Plan} {files : List Path}
    {corpus : Option Corpus} {world world' : World σ}
    (h : gather tools plan world = (.ok (files, corpus), world')) :
    ∃ place, world'.tree.locate plan.outputDirectory = .ok place ∧
      (world'.tree.entry? place).isSome := by
  obtain ⟨⟨⟩, made, hmade, hscan⟩ := Chance.bind_eq_ok.mp h
  obtain ⟨found, scanned, hfound, hplan⟩ := Chance.bind_eq_ok.mp hscan
  obtain ⟨built, planned, hbuilt, hlast⟩ := Chance.bind_eq_ok.mp hplan
  cases hlast
  -- Scanning and building a corpus leave the files as they are.
  have hscanned : scanned.tree = made.tree :=
    (respects_scan World.tolerant_sameTree _ _ _).of_run hfound
  have hplanned : world'.tree = scanned.tree :=
    (respects_planCorpus World.tolerant_sameTree fun _ _ _ _ => rfl).of_run hbuilt
  rw [hplanned, hscanned]
  exact locate_of_ensureOutputDirectory hmade

/-- What a run that returned came to, source by source. -/
structure Outcome (plan : Plan) (summary : Summary) (world : World σ) (yields : List Yield) :
    Prop where
  sources : summary.sources = yields.map Yield.report
  faithful : ∀ yield ∈ yields, yield.Faithful plan.outputDirectory
  suffixes : ∀ yield ∈ yields, Path.suffixOf yield.source.name = plan.language.suffix
  acceptances : world.acceptances = yields.flatMap Yield.acceptances
  writings : world.writings
    = yields.flatMap fun yield => (yield.targets plan.outputDirectory).map written

/-- Quiet steps leave what a run came to. -/
theorem Outcome.of_quiet {plan : Plan} {summary : Summary} {world world' : World σ}
    {yields : List Yield} (h : Outcome plan summary world yields)
    (hquiet : World.Quiet world world') : Outcome plan summary world' yields :=
  { h with
    acceptances := hquiet.1.trans h.acceptances
    writings := hquiet.2.trans h.writings }

/-- The sources that are gathered have the suffix of the plan's language. -/
theorem suffixOf_of_gather {tools : Toolchain} {plan : Plan} {files : List Path}
    {corpus : Option Corpus} {world world' : World σ}
    (h : gather tools plan world = (.ok (files, corpus), world')) {path : Path}
    (hmem : path ∈ files) : Path.suffixOf path.name = plan.language.suffix := by
  obtain ⟨⟨⟩, made, -, hscan⟩ := Chance.bind_eq_ok.mp h
  obtain ⟨found, scanned, hfound, hplan⟩ := Chance.bind_eq_ok.mp hscan
  obtain ⟨built, planned, -, hlast⟩ := Chance.bind_eq_ok.mp hplan
  cases hlast
  exact List.mem_singleton.mp (suffixOf_of_mem_scan hfound hmem)

/-- A plan that was carried out came to what its sources yield. -/
theorem carryOut_outcome [Chooser σ] {tools : Toolchain} {plan : Plan} {summary : Summary}
    {world world' : World σ} (hquiet : world.acceptances = [] ∧ world.writings = [])
    (h : carryOut tools plan world = (.ok summary, world')) :
    ∃ yields, Outcome plan summary world' yields := by
  obtain ⟨files, corpus, gathered, sources, mutated, hgathered, hmutated, rfl, rfl⟩ :=
    carryOutBy_eq_ok.mp h
  obtain ⟨hhanded, hwritten⟩ := World.tolerant_quiet.trans
    (World.quiet_after rfl rfl world) (quiet_gather hgathered)
  obtain ⟨yields, rfl, rfl, hfaithful, hhanded', hwritten'⟩ := mutateFiles_eq_ok hmutated
  refine ⟨yields, rfl, hfaithful, ?_, ?_, ?_⟩
  · intro yield hyield
    exact suffixOf_of_gather hgathered (List.mem_map_of_mem hyield)
  · simp [Event.accepted?, hhanded', hhanded, hquiet.1]
  · simp [Event.written?, hwritten', hwritten, hquiet.2]

end Run

end SourceMutation
