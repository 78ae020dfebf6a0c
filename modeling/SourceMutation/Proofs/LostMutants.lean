import Mathlib.Data.List.Nodup
import SourceMutation.Proofs.Contents
import SourceMutation.Proofs.Yields

/-!
# Lost mutants

All mutants of a run go into one directory, under names that do not tell the directories of their
sources.  So a run into an empty directory loses no mutant exactly if the sources that have mutants
have different names (`Run.mutateAfter_nothingLost_iff`).  If two of them have one name, the mutants
of the later one are written over those of the earlier one.

## How it is shown

- Names of mutants clash exactly if they are of sources of one name with one index
  (`Yield.disjoint_names_iff`), and every source that has mutants has one of index one.  So all
  names are different exactly if those of the sources are (`nodup_flatMap_names_iff`).
- In the end there is a file under a name exactly if a mutant of that name was written
  (`Run.Outcome.mem_fileNames_iff`), and if the names are all different each file has the bytes of
  its mutant (`Run.Outcome.read_target`).
- Counting both, nothing is lost exactly if the names are different
  (`Run.Outcome.nothingLost_iff_nodup_names`).
-/

namespace SourceMutation

variable {σ : Type}

/-! ## The files of a directory -/

theorem nodup_eraseDups {α : Type} [BEq α] [LawfulBEq α] (items : List α) :
    items.eraseDups.Nodup := by
  cases items with
  | nil => simp
  | cons item rest =>
    rw [List.eraseDups_cons, List.nodup_cons]
    refine ⟨by simp [List.mem_eraseDups], nodup_eraseDups _⟩
termination_by items.length
decreasing_by
  exact Nat.lt_succ_of_le (List.length_filter_le _ rest)

namespace FileTree

variable {tree : FileTree} {place : Location}

/-- The names of the files that stand in a directory. -/
def fileNames (tree : FileTree) (place : Location) : List String :=
  (tree.names place).filter fun name => (tree.fileAt (place ++ [name])).isSome

theorem mem_names {name : String} :
    name ∈ tree.names place ↔ place ++ [name] ∈ tree.entries.keys := by
  unfold names
  rw [List.mem_eraseDups, List.mem_filterMap]
  constructor
  -- A name is listed for an entry that stands in the directory itself.
  · rintro ⟨location, hmem, hname⟩
    unfold childName? at hname
    split at hname
    case h_1 last hlast =>
      split at hname
      case isTrue habove =>
        cases hname
        obtain ⟨above, rfl⟩ := List.getLast?_eq_some_iff.mp hlast
        rw [List.dropLast_concat] at habove
        rwa [← habove]
      case isFalse => cases hname
    case h_2 => cases hname
  · intro hmem
    exact ⟨place ++ [name], hmem, by simp [childName?]⟩

/-- A name is that of a file if a file stands under it. -/
theorem mem_fileNames {name : String} :
    name ∈ tree.fileNames place ↔ (tree.fileAt (place ++ [name])).isSome := by
  unfold fileNames
  rw [List.mem_filter, mem_names, and_iff_right_iff_imp]
  intro hfile
  -- Whatever stands somewhere is in the table.
  obtain ⟨bytes, hbytes⟩ := Option.isSome_iff_exists.mp hfile
  exact mem_keys_of_entry (by simp) (fileAt_eq_some_iff.mp hbytes)

theorem nodup_fileNames (tree : FileTree) (place : Location) : (tree.fileNames place).Nodup :=
  (nodup_eraseDups _).filter _

end FileTree

/-! ## Names of mutants

A mutant's name tells the bare name of its source and its number.  So two mutants of a run have one
name only if they have one number and their sources have one name.
-/

/-- The names under which mutants of a source are written. -/
def Yield.names (yield : Yield) : List String :=
  (List.range' 1 yield.mutants.length).map fun index : Nat =>
    MutantName.compose yield.source.name index

theorem map_fst_numbered (directory : Path) (source : String) (index : Nat)
    (mutants : List Mutant) :
    (numbered directory source index mutants).map Prod.fst
      = (List.range' index mutants.length).map fun index : Nat =>
        directory.below [MutantName.compose source index] := by
  induction mutants generalizing index with
  | nil => rfl
  | cons mutant rest ih =>
    rw [numbered, List.map_cons, ih, List.length_cons, List.range'_succ, List.map_cons]

theorem Yield.map_fst_targets (directory : Path) (yield : Yield) :
    (yield.targets directory).map Prod.fst = yield.names.map fun name => directory.below [name] := by
  unfold targets names
  rw [map_fst_numbered, List.map_map]
  rfl

/-- The targets of mutants are the paths of their names. -/
theorem Yield.mem_targets {yield : Yield} {directory path : Path} :
    (∃ target ∈ yield.targets directory, target.1 = path) ↔
      ∃ name ∈ yield.names, directory.below [name] = path := by
  rw [← List.mem_map, ← List.mem_map, yield.map_fst_targets]

theorem Yield.plain_of_mem_names {yield : Yield} {name : String} (h : name ∈ yield.names) :
    FileTree.Plain name := by
  obtain ⟨index, -, rfl⟩ := List.mem_map.mp h
  exact MutantName.plain_compose _ _

section Names

variable {plan : Plan} {summary : Summary} {world : World σ} {yields : List Yield}
  (h : Run.Outcome plan summary world yields)

include h

/-- Mutants of one source have different names. -/
theorem Yield.nodup_names {yield : Yield} (hmem : yield ∈ yields) : yield.names.Nodup := by
  refine List.Nodup.map_on ?_ List.nodup_range'
  intro index _ number _ heq
  exact (MutantName.compose_injective (h.suffixes yield hmem) (h.suffixes yield hmem) heq).2

/-- Two sources have a name of a mutant in common exactly if both have mutants and one name. -/
theorem Yield.disjoint_names_iff {first second : Yield} (hfirst : first ∈ yields)
    (hsecond : second ∈ yields) :
    first.names.Disjoint second.names ↔
      (first.mutants ≠ [] → second.mutants ≠ [] → first.source.name ≠ second.source.name) := by
  constructor
  · intro hdisjoint hmutants hmutants' hname
    -- Their first mutants have one name.
    have hmem : MutantName.compose first.source.name (1 : Nat) ∈ first.names :=
      List.mem_map.mpr ⟨1, by simpa [List.length_pos_iff] using hmutants, rfl⟩
    have hmem' : MutantName.compose first.source.name (1 : Nat) ∈ second.names :=
      List.mem_map.mpr ⟨1, by simpa [List.length_pos_iff] using hmutants', by rw [hname]⟩
    exact hdisjoint hmem hmem'
  · intro hnames name hmem hmem'
    obtain ⟨index, hindex, rfl⟩ := List.mem_map.mp hmem
    obtain ⟨number, hnumber, heq⟩ := List.mem_map.mp hmem'
    refine hnames ?_ ?_ (MutantName.compose_injective (h.suffixes first hfirst)
      (h.suffixes second hsecond) heq.symm).1
    · rintro hnil
      simp [hnil] at hindex
    · rintro hnil
      simp [hnil] at hnumber

/-- The names of all mutants are different exactly if the sources that have some have different
names. -/
theorem nodup_flatMap_names_iff :
    (yields.flatMap Yield.names).Nodup ↔
      ((yields.filter fun yield => !yield.mutants.isEmpty).map fun yield =>
        yield.source.name).Nodup := by
  have hdisjoint : List.Pairwise (fun first second => first.names.Disjoint second.names) yields ↔
      List.Pairwise (fun first second => first.mutants ≠ [] → second.mutants ≠ [] →
        first.source.name ≠ second.source.name) yields :=
    List.Pairwise.iff_of_mem fun hfirst hsecond => Yield.disjoint_names_iff h hfirst hsecond
  rw [List.nodup_flatMap, List.Nodup, List.pairwise_map, List.pairwise_filter]
  -- The names of one source are different anyway, so it is the pairs of sources that matter.
  constructor
  · rintro ⟨-, hpairwise⟩
    refine (hdisjoint.mp hpairwise).imp fun hne hfirst hsecond => ?_
    exact hne (by simpa using hfirst) (by simpa using hsecond)
  · intro hpairwise
    refine ⟨fun yield hmem => Yield.nodup_names h hmem, hdisjoint.mpr (hpairwise.imp ?_)⟩
    intro first second hne hfirst hsecond
    exact hne (by simpa using hfirst) (by simpa using hsecond)

end Names

/-! ## What is found in the end -/

/--
Whether no mutant of a run is lost: the paths that its reports name are different, each holds the
mutant it was named for, and the output directory has a file for each mutant.
-/
structure NothingLost (tree : FileTree) (directory : Path) (place : Location)
    (yields : List Yield) (summary : Summary) : Prop where
  distinct : (summary.sources.flatMap SourceReport.written).Nodup
  held : ∀ yield ∈ yields, ∀ target ∈ yield.targets directory,
    tree.read target.1 = .ok (Utf8.encode target.2.text)
  counted : (tree.fileNames place).length = summary.totalMutants

section Finally

variable {plan : Plan} {summary : Summary} {tree : FileTree} {world : World σ} {place : Location}
  {yields : List Yield} (h : Run.Outcome plan summary world yields)
  (haccounted : Accounted tree world.tree world.events)
  (hplace : world.tree.locate plan.outputDirectory = .ok place)
  (hempty : ∀ name, tree.entry? (place ++ [name]) = none)

include h

theorem Run.Outcome.written_eq :
    summary.sources.flatMap SourceReport.written
      = (yields.flatMap Yield.names).map fun name => (plan.outputDirectory.below [name]).text := by
  rw [h.sources, List.flatMap_map, List.map_flatMap]
  refine List.flatMap_congr fun yield hmem => ?_
  have htargets := congrArg (List.map Path.text) (yield.map_fst_targets plan.outputDirectory)
  rw [List.map_map, List.map_map] at htargets
  rw [(h.faithful yield hmem).written]
  exact htargets

theorem Run.Outcome.totalMutants_eq :
    summary.totalMutants = (yields.flatMap Yield.names).length := by
  unfold Summary.totalMutants
  rw [h.sources]
  have hfaithful := h.faithful
  clear h
  induction yields with
  | nil => rfl
  | cons yield rest ih =>
    obtain ⟨hyield, hrest⟩ := List.forall_mem_cons.mp hfaithful
    have hnames : yield.names.length = yield.mutants.length := by simp [Yield.names]
    rw [List.map_cons, List.map_cons, List.foldr_cons, ih hrest, hyield.mutantCount,
      List.flatMap_cons, List.length_append, hnames, Int.natCast_add]

/-- What was written are the mutants of the sources, under their names. -/
theorem Run.Outcome.wrote_iff {path : Path} {bytes : Bytes} :
    .wrote path bytes ∈ world.events ↔
      ∃ yield ∈ yields, ∃ target ∈ yield.targets plan.outputDirectory,
        path = target.1 ∧ bytes = Utf8.encode target.2.text := by
  rw [← World.mem_writings, h.writings, List.mem_flatMap]
  refine exists_congr fun yield => and_congr_right fun _ => ?_
  rw [List.mem_map]
  constructor
  · rintro ⟨target, hmem, heq⟩
    cases heq
    exact ⟨target, hmem, rfl, rfl⟩
  · rintro ⟨target, hmem, rfl, rfl⟩
    exact ⟨target, hmem, rfl⟩

include haccounted hplace hempty

/-- A mutant is written in the output directory itself, under its name. -/
theorem Run.Outcome.locate_name {name : String} (hmem : name ∈ yields.flatMap Yield.names) :
    world.tree.locate (plan.outputDirectory.below [name]) = .ok (place ++ [name]) := by
  obtain ⟨yield, hyield, hname⟩ := List.mem_flatMap.mp hmem
  obtain ⟨target, htarget, hpath⟩ := Yield.mem_targets.mpr ⟨name, hname, rfl⟩
  obtain ⟨location, hlocation⟩ := haccounted.written world.tree (.refl _) _ _
    (h.wrote_iff.mpr ⟨yield, hyield, target, htarget, rfl, rfl⟩)
  rw [hpath] at hlocation
  -- No link stands there, since none is ever made.
  have hlink : ∀ other, world.tree.entry? (place ++ [name]) ≠ some (.link other) := by
    intro other hother
    have hfirst := haccounted.links _ _ hother
    rw [hempty] at hfirst
    cases hfirst
  have hwhere := FileTree.locate_below (Yield.plain_of_mem_names hname) hplace hlink hlocation
  rwa [hwhere] at hlocation

/-- What leads to a name in the output directory is the path of that name. -/
theorem Run.Outcome.name_of_locate {yield : Yield} (hyield : yield ∈ yields)
    {target : Path × Mutant} (htarget : target ∈ yield.targets plan.outputDirectory) {name : String}
    (hlocate : world.tree.locate target.1 = .ok (place ++ [name])) :
    name ∈ yields.flatMap Yield.names ∧ target.1 = plan.outputDirectory.below [name] := by
  obtain ⟨other, hother, hpath⟩ := Yield.mem_targets.mp ⟨target, htarget, rfl⟩
  have hmem : other ∈ yields.flatMap Yield.names := List.mem_flatMap.mpr ⟨yield, hyield, hother⟩
  rw [← hpath, h.locate_name haccounted hplace hempty hmem] at hlocate
  cases List.append_cancel_left (Except.ok.inj hlocate)
  exact ⟨hmem, hpath.symm⟩

/-- In the end, the files in the output directory have the names of mutants. -/
theorem Run.Outcome.mem_fileNames_iff {name : String} :
    name ∈ world.tree.fileNames place ↔ name ∈ yields.flatMap Yield.names := by
  rw [FileTree.mem_fileNames, haccounted.files world.tree (.refl _)]
  -- Nothing stood there before, so what stands there was written.
  have hfirst : tree.fileAt (place ++ [name]) = none := by simp [FileTree.fileAt, hempty]
  rw [hfirst, Option.or_none]
  constructor
  -- What was written under a name was written for a mutant of that name.
  · intro hwritten
    obtain ⟨bytes, hbytes⟩ := Option.isSome_iff_exists.mp hwritten
    obtain ⟨path, hmem, hlocate⟩ := wrote_of_lastWritten hbytes
    obtain ⟨yield, hyield, target, htarget, rfl, -⟩ := h.wrote_iff.mp hmem
    exact (h.name_of_locate haccounted hplace hempty hyield htarget hlocate).1
  · intro hmem
    obtain ⟨yield, hyield, hname⟩ := List.mem_flatMap.mp hmem
    obtain ⟨target, htarget, hpath⟩ := Yield.mem_targets.mpr ⟨name, hname, rfl⟩
    refine lastWritten_isSome (h.wrote_iff.mpr ⟨yield, hyield, target, htarget, rfl, rfl⟩) ?_
    rw [hpath]
    exact h.locate_name haccounted hplace hempty hmem

/-- If all names are different, each path holds the mutant that was written there. -/
theorem Run.Outcome.read_target (hnodup : (yields.flatMap Yield.names).Nodup) {yield : Yield}
    (hyield : yield ∈ yields) {target : Path × Mutant}
    (htarget : target ∈ yield.targets plan.outputDirectory) :
    world.tree.read target.1 = .ok (Utf8.encode target.2.text) := by
  obtain ⟨name, hname, hpath⟩ := Yield.mem_targets.mp ⟨target, htarget, rfl⟩
  have hmem : name ∈ yields.flatMap Yield.names := List.mem_flatMap.mpr ⟨yield, hyield, hname⟩
  have hlocate := h.locate_name haccounted hplace hempty hmem
  have hfile := (h.mem_fileNames_iff haccounted hplace hempty).mpr hmem
  obtain ⟨bytes, hbytes⟩ := Option.isSome_iff_exists.mp (FileTree.mem_fileNames.mp hfile)
  rw [← hpath]
  refine FileTree.read_eq_ok_iff.mpr ⟨_, hlocate, ?_⟩
  rw [hbytes]
  -- These bytes were written for some mutant, which can only be the one in question.
  rw [haccounted.files world.tree (.refl _)] at hbytes
  have hfirst : tree.fileAt (place ++ [name]) = none := by simp [FileTree.fileAt, hempty]
  rw [hfirst, Option.or_none] at hbytes
  obtain ⟨path, hwrote, hwhere⟩ := wrote_of_lastWritten hbytes
  obtain ⟨yield', hyield', target', htarget', rfl, rfl⟩ := h.wrote_iff.mp hwrote
  have hpath' := (h.name_of_locate haccounted hplace hempty hyield' htarget' hwhere).2
  have hpaths : ((yields.flatMap fun yield => yield.targets plan.outputDirectory).map
      Prod.fst).Nodup := by
    rw [List.map_flatMap]
    simp only [Yield.map_fst_targets]
    rw [← List.map_flatMap]
    refine hnodup.map fun name other heq => ?_
    simpa [Path.below] using heq
  have hsame : target' = target := by
    apply List.inj_on_of_nodup_map hpaths
    · exact List.mem_flatMap.mpr ⟨yield', hyield', htarget'⟩
    · exact List.mem_flatMap.mpr ⟨yield, hyield, htarget⟩
    · rw [hpath', hpath]
  rw [hsame]

/-- Nothing is lost exactly if all mutants have different names. -/
theorem Run.Outcome.nothingLost_iff_nodup_names :
    NothingLost world.tree plan.outputDirectory place yields summary ↔
      (yields.flatMap Yield.names).Nodup := by
  constructor
  · intro hnothing
    have hdistinct := hnothing.distinct
    rw [h.written_eq] at hdistinct
    exact hdistinct.of_map _
  · intro hnodup
    refine ⟨?_, ?_, ?_⟩
    · rw [h.written_eq]
      exact hnodup.map fun _ _ heq => Path.text_below_injective heq
    · intro yield hyield target htarget
      exact h.read_target haccounted hplace hempty hnodup hyield htarget
    · -- Both lists have each name once, so they have the same length.
      have hperm : (world.tree.fileNames place).Perm (yields.flatMap Yield.names) := by
        apply (List.perm_ext_iff_of_nodup (FileTree.nodup_fileNames _ _) hnodup).mpr
        intro name
        exact h.mem_fileNames_iff haccounted hplace hempty
      rw [hperm.length_eq, h.totalMutants_eq]

end Finally

/-! ## Whole runs -/

namespace Run

variable [Chooser σ] {tools : Toolchain} {settings : Settings}

/-- Once a plan is carried out, its output directory is there. -/
theorem locate_of_carryOut {plan : Plan} {summary : Summary} {world world' : World σ}
    (hgrounded : world.tree.Grounded) (h : carryOut tools plan world = (.ok summary, world')) :
    ∃ place, world'.tree.locate plan.outputDirectory = .ok place := by
  obtain ⟨files, corpus, gathered, sources, mutated, hgathered, hmutated, rfl, rfl⟩ :=
    carryOutBy_eq_ok.mp h
  obtain ⟨place, hplace, -⟩ := locate_of_gather hgathered
  have hsteps : World.Steps plan.outputDirectory (World.Accounts (σ := σ)) :=
    World.steps_accounts _
  have hgather := (respects_gather hsteps.toTolerant hsteps.made hsteps.read).of_run hgathered
  obtain ⟨_, _, hfirst⟩ := hgather hgrounded
  obtain ⟨_, _, hsecond⟩ := (respects_mutateFiles hsteps files).of_run hmutated hfirst.grounded
  exact ⟨place, FileTree.locate_keeps hsecond.keeps hplace⟩

/-- A run that returns has carried out a plan, and each source came to a yield of its own. -/
theorem mutateAfter_outcome {opening : Run σ Unit} (hopening : Opening settings opening)
    {tree : GroundedTree} {chance : σ} {grammars : Grammars} {summary : Summary} {world : World σ}
    (h : mutateAfter opening tools settings (World.fresh tree chance grammars)
      = (.ok summary, world)) :
    ∃ plan place yields, settings.check tree = .ok plan ∧
      world.tree.locate plan.outputDirectory = .ok place ∧ Outcome plan summary world yields := by
  obtain ⟨plan, opened, carried, hplan, hopened, hcarried, rfl⟩ := mutateAfter_eq_ok h
  have hquiet : World.Quiet (World.fresh tree chance grammars) opened :=
    World.tolerant_quiet.trans (World.quiet_after rfl rfl _)
      ((hopening.respects World.tolerant_quiet).of_run hopened)
  have hsame : opened.tree = tree := (hopening.respects World.tolerant_sameTree).of_run hopened
  obtain ⟨yields, hyields⟩ := carryOut_outcome hquiet hcarried
  obtain ⟨place, hplace⟩ := locate_of_carryOut (hsame ▸ tree.grounded) hcarried
  -- Nothing but a line is logged after the plan has been carried out.
  exact ⟨plan, place, yields, hplan, hplace, hyields.of_quiet (World.quiet_after rfl rfl carried)⟩

/--
A run that returns with its output in a directory that was empty or not there loses no mutant
exactly if the sources that have mutants have different names, whatever their directories.
-/
theorem mutateAfter_nothingLost_iff {opening : Run σ Unit} (hopening : Opening settings opening)
    {tree : GroundedTree} {chance : σ} {grammars : Grammars}
    {summary : Summary} {world : World σ}
    (h : mutateAfter opening tools settings (World.fresh tree chance grammars)
      = (.ok summary, world)) :
    ∃ plan place yields, settings.check tree = .ok plan ∧
      world.tree.locate plan.outputDirectory = .ok place ∧
      Outcome plan summary world yields ∧
      ((∀ name, tree.entry? (place ++ [name]) = none) →
        (NothingLost world.tree plan.outputDirectory place yields summary ↔
          ((yields.filter fun yield => !yield.mutants.isEmpty).map fun yield =>
            yield.source.name).Nodup)) := by
  obtain ⟨plan, place, yields, hplan, hplace, houtcome⟩ := mutateAfter_outcome hopening h
  have haccounted := mutateAfter_accounted hopening h
  refine ⟨plan, place, yields, hplan, hplace, houtcome, fun hempty => ?_⟩
  -- Names of mutants are composed of the names of their sources, so they clash if those do.
  rw [houtcome.nothingLost_iff_nodup_names haccounted hplace hempty, nodup_flatMap_names_iff houtcome]

/-! ### Two sources of one name -/

/-- Two sources of one name, `a` and `bc`, in directories of their own. -/
def namesakesTree : GroundedTree where
  workDirectory := ["w"]
  entries := ⟨[(["w"], .directory), (["w", "in"], .directory), (["w", "in", "a"], .directory),
    (["w", "in", "b"], .directory), (["w", "in", "a", "lib.rs"], .file [0x61]),
    (["w", "in", "b", "lib.rs"], .file [0x62, 0x63])]⟩
  grounded := by decide

/-- A parser that finds an identifier at the start of every source. -/
def firstByteTools : Toolchain where
  installed _ := true
  parse _ bytes := .tree (.node ⟨"source_file", 0, bytes.length, ⟨0, 0⟩, ⟨0, 1⟩⟩ [
    .node ⟨"identifier", 0, 1, ⟨0, 0⟩, ⟨0, 1⟩⟩ []])
  patience := 0

/-- All deletions of the sources in `in`, written to `out`. -/
def deletions : Settings where
  inputDirectory := ⟨.relative, ["in"]⟩
  outputDirectory := ⟨.relative, ["out"]⟩
  mode := .int 0
  count := .int 0
  language := .text "rust"
  maxLines := .int 500
  stallLimit := .int 100
  seed := .none
  ignorePatterns := .list []

/-- What that run comes to; it draws nothing. -/
def namesakesRun : Except Stop Summary × World Script :=
  mutate firstByteTools deletions (World.fresh namesakesTree ⟨[]⟩ .empty)

/-- Its summary, with one mutant of each source. -/
def namesakesSummary : Summary where
  mode := 0
  count := 0
  language := "rust"
  outputDirectory := "out"
  sources := [
    { path := "in/a/lib.rs", spanCount := 1, mutantCount := 1, written := ["out/mut_lib.rs_1.rs"] },
    { path := "in/b/lib.rs", spanCount := 1, mutantCount := 1, written := ["out/mut_lib.rs_1.rs"] }]

theorem namesakesRun_eq : namesakesRun = (.ok namesakesSummary, namesakesRun.2) := by
  have hsummary : namesakesRun.1.toOption = some namesakesSummary := by decide +kernel
  rcases hrun : namesakesRun with ⟨stop | summary, world⟩
  · rw [hrun] at hsummary
    cases hsummary
  · rw [hrun] at hsummary
    cases hsummary
    rfl

/-- That run returns, so the condition above is the right one for it. -/
theorem namesakes_nothingLost_iff :
    namesakesRun = (.ok namesakesSummary, namesakesRun.2) ∧
      ∃ plan place yields, deletions.check namesakesTree = .ok plan ∧
        namesakesRun.2.tree.locate plan.outputDirectory = .ok place ∧
        Outcome plan namesakesSummary namesakesRun.2 yields ∧
        ((∀ name, namesakesTree.entry? (place ++ [name]) = none) →
          (NothingLost namesakesRun.2.tree plan.outputDirectory place yields namesakesSummary ↔
            ((yields.filter fun yield => !yield.mutants.isEmpty).map fun yield =>
              yield.source.name).Nodup)) :=
  ⟨namesakesRun_eq, mutateAfter_nothingLost_iff .given namesakesRun_eq⟩

/-- The mutant of the second source is written over that of the first. -/
theorem namesakes_lost :
    namesakesTree.entry? ["w", "out"] = none ∧
      namesakesRun.1.toOption = some namesakesSummary ∧
      namesakesSummary.sources.flatMap SourceReport.written
        = ["out/mut_lib.rs_1.rs", "out/mut_lib.rs_1.rs"] ∧
      namesakesSummary.totalMutants = 2 ∧
      namesakesRun.2.tree.fileNames ["w", "out"] = ["mut_lib.rs_1.rs"] ∧
      namesakesRun.2.tree.read ⟨.relative, ["out", "mut_lib.rs_1.rs"]⟩ = .ok [0x63] := by
  decide +kernel

end Run

end SourceMutation
