import SourceMutation.Proofs.Beside
import SourceMutation.Proofs.JoinedScans

/-!
# Files that a run passes over

A file counts as a source of a run if its suffix is that of the language, no ignore pattern excludes
it or a directory above it, and it is short enough.  Adding files that do not count changes nothing
of a run but that those which are merely too long are reported as skipped
(`Run.together_of_ineligible`), as long as nothing that is added lies on the way of a source or of
the output.  A source that is a link to an added file shows that this cannot be left out
(`Run.linkedNotes_makes_source`).
-/

namespace SourceMutation.Run

variable {σ : Type} {settings : Settings} {place : Location} {added : Location → Option Entry}
  {tree tree' : FileTree} {plan : Plan} {rules : ScanRules}

/-- Whether a tree has, besides the entries of another one, directories and files that do not count:
below the input directory each file is excluded by the rules of the run, or is too long. -/
structure AddsIneligible (settings : Settings) (place : Location)
    (added : Location → Option Entry) (tree tree' : FileTree) : Prop where
  joins : tree.Joins added tree'
  noLinks : ∀ location target, added location ≠ some (.link target)
  grounded : tree.Grounded
  grounded' : tree'.Grounded
  ordinary : tree'.AllNames FileTree.Ordinary
  /-- The input directory is there, and this is its place. -/
  input : tree.locate settings.inputDirectory = .ok place
  isDirectory : tree.entry? place = some .directory
  ineligible : ∀ plan rules, settings.check tree = .ok plan → plan.rules = .ok rules →
    ∀ names bytes, added (place ++ names) = some (.file bytes) →
      rules.Excludes names ∨ tree'.TooLong plan.maxLines (settings.inputDirectory.below names)

/-- Whether nothing that is added lies on the way of a source, of the output directory, or of a name
in that directory, once it is there. -/
structure OutOfTheWay (settings : Settings) (place : Location)
    (added : Location → Option Entry) (tree : FileTree) : Prop where
  written : settings.outputDirectory.IsWritten
  output : ∀ name, FileTree.Plain name →
    (tree.withDirectory settings.outputDirectory).Avoids added
      (settings.outputDirectory.below [name])
  sources : ∀ plan rules, settings.check tree = .ok plan → plan.rules = .ok rules →
    ∀ names, settings.inputDirectory.below names ∈
        (tree.withDirectory settings.outputDirectory).sourceFiles settings.inputDirectory rules →
      (tree.withDirectory settings.outputDirectory).Avoids added ⟨.root, place ++ names⟩

/-- Whether a summary tells the same as another one, and besides of each added file that is merely
too long that it was skipped. -/
structure OnlySkipsMore (settings : Settings) (place : Location)
    (added : Location → Option Entry) (tree : FileTree) (summary summary' : Summary) : Prop where
  same : summary' = { summary with sources := summary'.sources }
  sources : ∃ plan rules files, settings.check tree = .ok plan ∧ plan.rules = .ok rules ∧
    files.Nodup ∧
    Interleaves (FileTree.isCommon added settings.inputDirectory place) plan.maxLines files
      summary.sources summary'.sources ∧
    ∀ path, path ∈ files ∧ FileTree.isCommon added settings.inputDirectory place path = false ↔
      ∃ names bytes, path = settings.inputDirectory.below names ∧
        added (place ++ names) = some (.file bytes) ∧ ¬rules.Excludes names

namespace AddsIneligible

variable (h : AddsIneligible settings place added tree tree')

include h

/-- An added file that is merely too long can be read where it stands. -/
theorem tooLong_at (hcheck : settings.check tree = .ok plan) (hrules : plan.rules = .ok rules)
    {names : List String} {bytes : Bytes} (hadded : added (place ++ names) = some (.file bytes))
    (hincluded : ¬rules.Excludes names) :
    tree'.locate (settings.inputDirectory.below names) = .ok (place ++ names) ∧
      ∃ text, Utf8.decode bytes = .ok text ∧ Lines.within text plan.maxLines = false := by
  obtain ⟨text, ⟨read, hread, hdecode⟩, hlong⟩ :=
    (h.ineligible plan rules hcheck hrules names bytes hadded).resolve_left hincluded
  obtain ⟨location, hlocation, hfile⟩ := FileTree.read_eq_ok_iff.mp hread
  have hnew := h.joins.new _ _ hadded
  -- The path leads to the place of the file, so it is the file's bytes that are read.
  obtain ⟨-, hinput⟩ := FileTree.locate_eq_ok_iff.mp
    (FileTree.locate_keeps h.joins.keeps h.input)
  have hfollow := FileTree.follow_append h.grounded' h.ordinary hinput (.inr ⟨bytes, hnew⟩)
  obtain ⟨-, hother⟩ := FileTree.locate_eq_ok_iff.mp hlocation
  cases hother.symm.trans hfollow
  rw [FileTree.fileAt_eq_some_iff, hnew] at hfile
  cases hfile
  exact ⟨hlocation, text, hdecode, hlong⟩

/-! ### Once the output directory is there -/

theorem joins_made (hapart : OutOfTheWay settings place added tree) :
    (tree.withDirectory settings.outputDirectory).Joins added
      (tree'.withDirectory settings.outputDirectory) :=
  h.joins.withDirectory h.grounded hapart.written
    (hapart.output "a" ⟨by decide, by decide, by decide⟩).above

theorem ordinary_made (hapart : OutOfTheWay settings place added tree) :
    (tree'.withDirectory settings.outputDirectory).AllNames FileTree.Ordinary :=
  h.ordinary.withDirectory fun part hpart hup hshort =>
    ⟨⟨(hapart.written part hpart).1, (hapart.written part hpart).2, hup⟩, hshort⟩

theorem input_made :
    (tree.withDirectory settings.outputDirectory).locate settings.inputDirectory = .ok place :=
  FileTree.locate_keeps (FileTree.keeps_withDirectory tree _) h.input

theorem isDirectory_made :
    FileTree.entry? (tree.withDirectory settings.outputDirectory) place = some .directory :=
  (FileTree.keeps_withDirectory tree _).directory h.isDirectory

/-- What a scan finds besides are the added files that its rules do not exclude. -/
theorem mem_extras_iff (hapart : OutOfTheWay settings place added tree)
    (hcheck : settings.check tree = .ok plan) (hrules : plan.rules = .ok rules) (path : Path) :
    path ∈ (tree'.withDirectory settings.outputDirectory).sourceFiles settings.inputDirectory
          rules ∧
        FileTree.isCommon added settings.inputDirectory place path = false ↔
      ∃ names bytes, path = settings.inputDirectory.below names ∧
        added (place ++ names) = some (.file bytes) ∧ ¬rules.Excludes names := by
  refine (h.joins_made hapart).mem_extras_iff (FileTree.grounded_withDirectory h.grounded' _)
    (h.ordinary_made hapart) h.input_made h.isDirectory_made h.noLinks ?_
  -- A file that is merely too long can be read, and so its path can be asked for.
  intro names bytes hadded hincluded
  exact (FileTree.locate_eq_ok_iff.mp (h.tooLong_at hcheck hrules hadded hincluded).1).1

theorem sourceFiles_eq_filter (hapart : OutOfTheWay settings place added tree)
    (hcheck : settings.check tree = .ok plan) (hrules : plan.rules = .ok rules) :
    (tree.withDirectory settings.outputDirectory).sourceFiles settings.inputDirectory rules
      = ((tree'.withDirectory settings.outputDirectory).sourceFiles settings.inputDirectory
          rules).filter (FileTree.isCommon added settings.inputDirectory place) :=
  (h.joins_made hapart).sourceFiles_eq_filter (FileTree.grounded_withDirectory h.grounded _)
    (FileTree.grounded_withDirectory h.grounded' _) (h.ordinary_made hapart) h.input_made
    h.isDirectory_made (hapart.sources plan rules hcheck hrules)

/-- Nothing that is added lies on the way of a source that is not. -/
theorem avoids_of_isCommon (hapart : OutOfTheWay settings place added tree)
    (hcheck : settings.check tree = .ok plan) (hrules : plan.rules = .ok rules) {path : Path}
    (hpath : path ∈ (tree'.withDirectory settings.outputDirectory).sourceFiles
      settings.inputDirectory rules)
    (hcommon : FileTree.isCommon added settings.inputDirectory place path = true) :
    (tree.withDirectory settings.outputDirectory).Avoids added path := by
  -- The files that both trees have in common are those of the smaller one.
  have hmem : path ∈ (tree.withDirectory settings.outputDirectory).sourceFiles
      settings.inputDirectory rules := by
    rw [h.sourceFiles_eq_filter hapart hcheck hrules]
    exact List.mem_filter.mpr ⟨hpath, hcommon⟩
  obtain ⟨other, found, hother, -, hfound, rfl⟩ := FileTree.exists_of_mem_sourceFiles hmem
  cases h.input_made.symm.trans hother
  have hgrounded := FileTree.grounded_withDirectory h.grounded settings.outputDirectory
  have hnames := (h.joins_made hapart).allNames (h.ordinary_made hapart)
  rw [← List.append_nil place] at hfound
  obtain ⟨entry, hthere, -⟩ := FileTree.entry_of_mem_filesIn hfound
  exact FileTree.Avoids.of_place (h.joins_made hapart) hgrounded hnames h.input_made
    (by rw [hthere]; rfl) (hapart.sources plan rules hcheck hrules found hmem)

/-- Settings that pass overlook what is added. -/
theorem overlooks (hapart : OutOfTheWay settings place added tree)
    (hcheck : settings.check tree = .ok plan) :
    Overlooks added (FileTree.isCommon added settings.inputDirectory place) plan tree tree' := by
  have hpasses := Settings.check_eq_ok_iff.mp hcheck
  refine ⟨h.joins, h.grounded, h.grounded', ?_, ?_, ?_, ?_, ?_⟩ <;>
    rw [hpasses.outputDirectory]
  · exact hapart.written
  · exact hapart.output
  · rw [hpasses.inputDirectory]
    exact fun rules hrules => h.sourceFiles_eq_filter hapart hcheck hrules
  · rw [hpasses.inputDirectory]
    exact fun rules hrules path hpath => h.avoids_of_isCommon hapart hcheck hrules hpath
  · rw [hpasses.inputDirectory]
    intro rules hrules path hpath hextra
    -- A file that only the larger tree has was added, and is a source by its name, so it is too
    -- long.
    obtain ⟨names, bytes, rfl, hadded, hincluded⟩ :=
      (h.mem_extras_iff hapart hcheck hrules path).mp ⟨hpath, hextra⟩
    obtain ⟨hlocation, text, hdecode, hlong⟩ := h.tooLong_at hcheck hrules hadded hincluded
    exact ⟨_, bytes, text, FileTree.locate_keeps (FileTree.keeps_withDirectory tree' _) hlocation,
      hadded, hdecode, hlong⟩

end AddsIneligible

/-- Two runs from the same numbers, over a tree and over one that has files added that do not
count, both return or both stop alike, if nothing that is added lies on the way of a source or of
the output.  If they return, they have handed over and written the same, have the same numbers
left, and tell the same, but that the second one reports each added file that is merely too long
as skipped. -/
theorem together_of_ineligible [Chooser σ] {tools : Toolchain} {opening : Run σ Unit}
    (hopening : Opening settings opening)
    (hineligible : AddsIneligible settings place added tree tree')
    (hapart : OutOfTheWay settings place added tree) (chance : σ) (grammars : Grammars) :
    Together (World.Beside fun first second => first.Joins added second)
      (OnlySkipsMore settings place added tree)
      (mutateAfter opening tools settings (World.fresh tree chance grammars))
      (mutateAfter opening tools settings (World.fresh tree' chance grammars)) := by
  -- The input directory is there in both trees, so the settings are accepted in both or in neither.
  have hdirectory : tree.isDirectory settings.inputDirectory = .ok true := by
    simp [FileTree.isDirectory, FileTree.holdsAt, FileTree.entryAt, hineligible.input,
      hineligible.isDirectory]
  have hdirectory' : tree'.isDirectory settings.inputDirectory = .ok true := by
    simp [FileTree.isDirectory, FileTree.holdsAt, FileTree.entryAt,
      FileTree.locate_keeps hineligible.joins.keeps hineligible.input,
      hineligible.joins.keeps.directory hineligible.isDirectory]
  have hboth : Together _ _ (mutateAfter opening tools settings (World.fresh tree chance grammars))
      (mutateAfter opening tools settings (World.fresh tree' chance grammars)) :=
    together_mutateAfter hopening (hdirectory'.trans hdirectory.symm)
      (fun plan hcheck => hineligible.overlooks hapart hcheck) chance grammars
  generalize mutateAfter opening tools settings (World.fresh tree chance grammars) = one at hboth ⊢
  generalize mutateAfter opening tools settings (World.fresh tree' chance grammars) = other
    at hboth ⊢
  cases hboth with
  | stopped => exact .stopped _ _ _
  | returned hresult hworlds =>
    -- The files that are skipped besides are those that were added.
    obtain ⟨plan, hcheck, hsame, rules, hrules, hsources⟩ := hresult
    have hpasses := Settings.check_eq_ok_iff.mp hcheck
    rw [hpasses.inputDirectory, hpasses.outputDirectory] at hsources
    exact .returned ⟨hsame, plan, rules, _, hcheck, hrules, FileTree.nodup_sourceFiles _ _ _,
      hsources, hineligible.mem_extras_iff hapart hcheck hrules⟩ hworlds

/-! ### Files of every sort that does not count -/

/-- One source of one line. -/
def shortTree : FileTree where
  workDirectory := ["w"]
  entries := ⟨[(["w"], .directory), (["w", "in"], .directory),
    (["w", "in", "a.rs"], .file [0x61, 0x62])]⟩

/-- A file of another suffix, one in a directory that is ignored, and one of two lines. -/
def ineligibleFiles : Ledger Location Entry :=
  ⟨[(["w", "in", "notes.txt"], .file [0x63]), (["w", "in", "skip"], .directory),
    (["w", "in", "skip", "b.rs"], .file [0x64]),
    (["w", "in", "long.rs"], .file [0x65, 0x0a, 0x66])]⟩

/-- What all deletions ask for. -/
def deletionsPlan : Plan where
  inputDirectory := deletions.inputDirectory
  outputDirectory := deletions.outputDirectory
  mode := .deleteOnly
  count := 0
  language := .rust
  maxLines := 500
  stallLimit := some 100
  stallText := "100"
  ignorePatterns := []

/-- All deletions of sources of one line that are not in a directory `skip`. -/
def shortDeletions : Settings :=
  { deletions with maxLines := .int 2, ignorePatterns := .texts ["skip/"] }

/-- What these ask for. -/
def shortPlan : Plan := { deletionsPlan with maxLines := 2, ignorePatterns := ["skip/"] }

/-- The rules of their scan. -/
def shortRules : ScanRules := shortPlan.rules.toOption.getD ⟨[], []⟩

theorem eq_shortPlan {plan : Plan} (h : shortDeletions.check shortTree = .ok plan) :
    plan = shortPlan :=
  Except.ok.inj (h.symm.trans rfl)

theorem eq_shortRules {rules : ScanRules} (h : shortPlan.rules = .ok rules) :
    rules = shortRules := by
  rw [shortRules, h]
  rfl

theorem addsIneligible_shortTree :
    AddsIneligible shortDeletions ["w", "in"] ineligibleFiles.get? shortTree
      (shortTree.besides ineligibleFiles) where
  joins := FileTree.joins_besides (by decide +kernel)
  noLinks := by
    intro location target h
    have hmem := Ledger.mem_entries_of_get? h
    simp [ineligibleFiles] at hmem
  grounded := by decide
  grounded' := by decide
  ordinary := by decide +kernel
  input := by decide +kernel
  isDirectory := by decide
  ineligible := by
    intro plan rules hplan hrules names bytes hadded
    obtain rfl := eq_shortPlan hplan
    obtain rfl := eq_shortRules hrules
    have hmem := Ledger.mem_entries_of_get? hadded
    simp only [ineligibleFiles, List.cons_append, List.nil_append, List.mem_cons, Prod.mk.injEq,
      List.cons.injEq, true_and, Entry.file.injEq, reduceCtorEq, and_false, List.not_mem_nil,
      or_false, false_or] at hmem
    -- One file has another suffix, one is excluded by a pattern, and one is too long.
    rcases hmem with ⟨rfl, rfl⟩ | ⟨rfl, rfl⟩ | ⟨rfl, rfl⟩
    · exact .inl (.inl (by decide +kernel))
    · exact .inl (.inr (.inr ⟨1, by decide +kernel⟩))
    · exact .inr ⟨"e\nf", ⟨[0x65, 0x0a, 0x66], by decide +kernel⟩, by decide +kernel⟩

theorem outOfTheWay_shortTree :
    OutOfTheWay shortDeletions ["w", "in"] ineligibleFiles.get? shortTree where
  written := by decide
  output := by
    have hplace : (shortTree.withDirectory shortDeletions.outputDirectory).locate
        shortDeletions.outputDirectory = .ok ["w", "out"] := by decide +kernel
    exact fun name _ =>
      FileTree.Avoids.of_empty (by decide +kernel) hplace (by decide +kernel) (by decide) name
  sources := by
    intro plan rules hplan hrules names hmem
    obtain rfl := eq_shortPlan hplan
    obtain rfl := eq_shortRules hrules
    have hfiles : (shortTree.withDirectory shortDeletions.outputDirectory).sourceFiles
        shortDeletions.inputDirectory shortRules = [⟨.relative, ["in", "a.rs"]⟩] := by
      decide +kernel
    rw [hfiles, List.mem_singleton] at hmem
    obtain rfl : names = ["a.rs"] := by simpa [Path.below, shortDeletions, deletions] using hmem
    decide +kernel

/-- What they come to over a tree; nothing is drawn. -/
def shortRun (tree : FileTree) : Except Stop Summary × World Script :=
  mutate firstByteTools shortDeletions (World.fresh tree ⟨[]⟩ .empty)

/-- What is told of the source. -/
def shortReport : SourceReport where
  path := "in/a.rs"
  spanCount := 1
  mutantCount := 1
  written := ["out/mut_a.rs_1.rs"]

/-- The run over one source tells of one mutant.  With the other files beside it, the run tells the
same and that the long one was skipped. -/
theorem shortTree_together :
    AddsIneligible shortDeletions ["w", "in"] ineligibleFiles.get? shortTree
        (shortTree.besides ineligibleFiles) ∧
      OutOfTheWay shortDeletions ["w", "in"] ineligibleFiles.get? shortTree ∧
      ∃ (summary summary' : Summary) (first second : World Script),
        shortRun shortTree = (.ok summary, first) ∧
          shortRun (shortTree.besides ineligibleFiles) = (.ok summary', second) ∧
          World.Beside (fun tree tree' => tree.Joins ineligibleFiles.get? tree') first second ∧
          OnlySkipsMore shortDeletions ["w", "in"] ineligibleFiles.get? shortTree summary summary' ∧
          summary.sources = [shortReport] ∧
          summary'.sources = [shortReport, skippedReport 2 ⟨.relative, ["in", "long.rs"]⟩] := by
  have hboth : Together _ _ (shortRun shortTree) (shortRun (shortTree.besides ineligibleFiles)) :=
    together_of_ineligible .given addsIneligible_shortTree outOfTheWay_shortTree _ _
  have hsources : (shortRun shortTree).1.toOption.map Summary.sources = some [shortReport] := by
    decide +kernel
  have hsources' :
      (shortRun (shortTree.besides ineligibleFiles)).1.toOption.map Summary.sources
        = some [shortReport, skippedReport 2 ⟨.relative, ["in", "long.rs"]⟩] := by
    decide +kernel
  refine ⟨addsIneligible_shortTree, outOfTheWay_shortTree, ?_⟩
  -- Both runs are evaluated above; from here on only what is known of them is used.
  generalize shortRun shortTree = one at hboth hsources ⊢
  generalize shortRun (shortTree.besides ineligibleFiles) = other at hboth hsources' ⊢
  cases hboth with
  | stopped => cases hsources
  | @returned summary summary' first second hresult hworlds =>
    exact ⟨summary, summary', first, second, rfl, rfl, hworlds, hresult, Option.some.inj hsources,
      Option.some.inj hsources'⟩

/-! ### A source that is a link to an added file -/

/-- A source that is a link, to a file that is not there. -/
def linkedNotesTree : FileTree where
  workDirectory := ["w"]
  entries := ⟨[(["w"], .directory), (["w", "in"], .directory),
    (["w", "in", "z.rs"], .link "notes.txt")]⟩

/-- The file that the link is to; it has another suffix itself. -/
def linkedNotes : Ledger Location Entry := ⟨[(["w", "in", "notes.txt"], .file [0x61])]⟩

/-- The added file does not count, since it has another suffix, and it is not on the way of the
output.  Without it the run stops at the link, which cannot be read; with it the link is a
source. -/
theorem linkedNotes_makes_source :
    AddsIneligible deletions ["w", "in"] linkedNotes.get? linkedNotesTree
        (linkedNotesTree.besides linkedNotes) ∧
      (∀ name, (linkedNotesTree.withDirectory deletions.outputDirectory).Avoids linkedNotes.get?
        (deletions.outputDirectory.below [name])) ∧
      (mutate firstByteTools deletions
        (World.fresh linkedNotesTree (⟨[]⟩ : Script) .empty)).1.toOption.isNone ∧
      (mutate firstByteTools deletions (World.fresh (linkedNotesTree.besides linkedNotes)
        (⟨[]⟩ : Script) .empty)).1.toOption.map Summary.totalMutants = some 1 := by
  have hplace : (linkedNotesTree.withDirectory deletions.outputDirectory).locate
      deletions.outputDirectory = .ok ["w", "out"] := by decide +kernel
  refine ⟨?_, FileTree.Avoids.of_empty (by decide +kernel) hplace (by decide +kernel) (by decide),
    by decide +kernel, by decide +kernel⟩
  refine ⟨FileTree.joins_besides (by decide +kernel), fun location target h => ?_, by decide,
    by decide, by decide +kernel, by decide +kernel, by decide, ?_⟩
  · have hmem := Ledger.mem_entries_of_get? h
    simp [linkedNotes] at hmem
  -- What is added is no source by its own name; it is one through the link.
  · intro plan rules hplan hrules names bytes hadded
    obtain rfl : plan = deletionsPlan := Except.ok.inj (hplan.symm.trans rfl)
    obtain rfl : rules = ⟨[".rs"], []⟩ := Except.ok.inj (hrules.symm.trans rfl)
    have hmem := Ledger.mem_entries_of_get? hadded
    obtain ⟨rfl, -⟩ : names = ["notes.txt"] ∧ bytes = [0x61] := by simpa [linkedNotes] using hmem
    exact .inl (.inl (by decide +kernel))

end SourceMutation.Run
