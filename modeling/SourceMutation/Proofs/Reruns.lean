import SourceMutation.Proofs.Ineligible
import SourceMutation.Proofs.Readiness
import SourceMutation.Proofs.Replays

/-!
# Running again

A run that leaves its own sources as they are can be run again on the files that it leaves: the
second run finds and reads the same sources, draws and hands over the same mutants, and writes the
same files over what is there already, so that it leaves everything as it was
(`Run.mutateAfter_again`).

## How it is shown

The second run follows the first one step by step (`Run.Follows`): where a step of the first one
returns, the same step of the second one returns the same.

- Up to the pass that mutates, the first tree has an output directory and no more than that, and the
  second one is that of the end.  Both have the same sources, since only files were added, none of
  which is a source (`FileTree.AddsFiles.sourceFiles_eq`).
- In the pass that mutates, the second run writes to the last tree what the first run writes
  (`FileTree.Retraces`).
- Grammars were loaded by the first run and serve the second one as well (`World.Trails`).

## Which runs leave their sources

Whether a run leaves its input alone is a condition on its files (`Plan.LeavesInput`), which holds
if what it writes is apart from what it reads (`Run.leavesInput_of_apart`).
-/

namespace SourceMutation

variable {σ α β : Type}

/-! ## Where only files were added -/

namespace FileTree

variable {first second : FileTree} {place : Location} {directory : Path} {rules : ScanRules}

theorem isDirectory_keeps (h : first.Keeps second) (hfirst : first.isDirectory directory = .ok true) :
    second.isDirectory directory = .ok true := by
  obtain ⟨place, hplace, hentry⟩ := leadsToDirectory_of_isDirectory hfirst
  simp [isDirectory, holdsAt, entryAt, locate_keeps h hplace, h.directory hentry]

namespace AddsFiles

variable (h : first.AddsFiles second)

include h

theorem isDirectory_eq (location : Location) :
    (second.entry? location == some .directory) = (first.entry? location == some .directory) := by
  rw [Bool.eq_iff_iff, beq_iff_eq, beq_iff_eq]
  exact ⟨h.directory, h.keeps.directory⟩

/-- What counts as a directory counted as one before. -/
theorem leadsToDirectory_eq (directory : Path) (location : Location) (names : List String) :
    second.leadsToDirectory directory location names
      = first.leadsToDirectory directory location names := by
  rw [Bool.eq_iff_iff]
  refine ⟨fun hleads => ?_, leadsToDirectory_keeps h.keeps⟩
  rcases directory_or_link_of_leads hleads with hentry | ⟨text, hentry⟩
  · rw [leadsToDirectory_of_stands (.inl (h.directory hentry)), h.directory hentry]
    rfl
  · obtain ⟨hshort, target, hfollow, htarget⟩ := (leadsToDirectory_of_link hentry).mp hleads
    have hbefore := h.directory htarget
    rw [h.keeps.workDirectory] at hfollow
    exact (leadsToDirectory_of_link (h.link hentry)).mpr
      ⟨hshort, target, follow_back h (by rw [hbefore]; rfl) hfollow, hbefore⟩

/-- A directory in which nothing has come up has the same names. -/
theorem sorted_names_eq
    (hbelow : ∀ name, (second.entry? (place ++ [name])).isSome →
      (first.entry? (place ++ [name])).isSome) :
    sorted (second.names place) = sorted (first.names place) := by
  have hnames : ∀ name, name ∈ second.names place ↔ name ∈ first.names place ∧ true = true := by
    intro name
    have hroot : place ++ [name] ≠ [] := by simp
    rw [mem_names, mem_names, ← isSome_iff_mem_keys hroot, ← isSome_iff_mem_keys hroot]
    refine ⟨fun hthere => ⟨hbelow name hthere, rfl⟩, fun ⟨hthere, _⟩ => ?_⟩
    obtain ⟨old, hold⟩ := Option.isSome_iff_exists.mp hthere
    obtain ⟨new, hnew, -⟩ := h.keeps.entries _ old hold
    rw [hnew]
    rfl
  -- How names are sorted depends on which names there are.
  have hsorted := sorted_eq_filter (nodup_eraseDups _) (nodup_eraseDups _) hnames
  rwa [List.filter_true] at hsorted

/-- A walk below which nothing has come up meets the same files. -/
theorem filesIn_eq (depth : Nat) {names : List String}
    (hbelow : ∀ more, (second.entry? (place ++ more)).isSome →
      (first.entry? (place ++ more)).isSome) :
    second.filesIn rules directory depth place names
      = first.filesIn rules directory depth place names := by
  induction depth generalizing place names with
  | zero => rfl
  | succ depth ih =>
    -- Which names are wanted and which are entered is told by where they lead.
    have hwanted : second.isWanted rules directory place names
        = first.isWanted rules directory place names := by
      funext name
      rw [isWanted, isWanted, h.leadsToDirectory_eq]
    have hentered : second.isEntered rules directory place names
        = first.isEntered rules directory place names := by
      funext name
      rw [isEntered, isEntered, h.isDirectory_eq]
    have hdeeper : ∀ name, second.filesIn rules directory depth (place ++ [name]) (names ++ [name])
        = first.filesIn rules directory depth (place ++ [name]) (names ++ [name]) := by
      intro name
      apply ih
      intro more hmore
      rw [List.append_assoc] at hmore ⊢
      exact hbelow _ hmore
    rw [filesIn_succ, filesIn_succ, h.sorted_names_eq fun name => hbelow [name], hwanted, hentered]
    simp only [hdeeper]

/-- A scan of a directory below which nothing has come up finds the same sources. -/
theorem sourceFiles_eq (hgrounded : first.Grounded) (hgrounded' : second.Grounded)
    (hplace : first.locate directory = .ok place) (hentry : first.entry? place = some .directory)
    (hbelow : ∀ more, (second.entry? (place ++ more)).isSome →
      (first.entry? (place ++ more)).isSome) (rules : ScanRules) :
    second.sourceFiles directory rules = first.sourceFiles directory rules := by
  rw [FileTree.sourceFiles_eq hplace hentry,
    FileTree.sourceFiles_eq (locate_keeps h.keeps hplace) (h.keeps.directory hentry)]
  -- Each walk goes deeper than its tree does, so both may go as deep as the two together.
  have hdeep : second.filesIn rules directory second.depth place []
      = second.filesIn rules directory (first.depth + second.depth) place [] :=
    filesIn_eq_of_deep hgrounded' (by unfold depth; omega) (by unfold depth; omega) []
  have hdeep' : first.filesIn rules directory first.depth place []
      = first.filesIn rules directory (first.depth + second.depth) place [] :=
    filesIn_eq_of_deep hgrounded (by unfold depth; omega) (by unfold depth; omega) []
  rw [hdeep, hdeep', h.filesIn_eq _ hbelow]

end AddsFiles

/-- Whether files that can be read in one tree are read alike in another one. -/
def ReadsAlike (paths : List Path) (first second : FileTree) : Prop :=
  ∀ path ∈ paths, ∀ bytes, first.read path = .ok bytes → second.read path = .ok bytes

end FileTree

/-- Whether no entry has come up below a plan's input directory, and each source of the plan has the
bytes that it had. -/
structure Plan.LeavesInput (plan : Plan) (before after : FileTree) : Prop where
  entries : ∀ place, before.locate plan.inputDirectory = .ok place → ∀ more,
    (after.entry? (place ++ more)).isSome → (before.entry? (place ++ more)).isSome
  sources : ∀ rules, plan.rules = .ok rules →
    ∀ path ∈ before.sourceFiles plan.inputDirectory rules, after.read path = before.read path

theorem Plan.LeavesInput.readsAlike {plan : Plan} {before after : FileTree}
    (h : plan.LeavesInput before after) {rules : ScanRules} (hrules : plan.rules = .ok rules) :
    FileTree.ReadsAlike (before.sourceFiles plan.inputDirectory rules) before after :=
  fun path hpath _ hread => (h.sources rules hrules path hpath).trans hread

/-! ## Worlds that trail others

The second run starts from what the first one has left, so the two worlds are not alike: there are
mutants among the files already, and grammars are loaded.
-/

namespace World

variable {tools : Toolchain} {language : Language} {T T' : FileTree → FileTree → Prop}
  {first second first' second' : World σ}

/-- Whether two worlds have related files and the same numbers, the same mutants were handed over in
both, and the second one can load whatever grammar the first one can. -/
structure Trails (tools : Toolchain) (language : Language) (T : FileTree → FileTree → Prop)
    (first second : World σ) : Prop where
  trees : T first.tree second.tree
  chance : first.chance = second.chance
  serves : Grammars.Serves tools.installed language first.grammars second.grammars
  acceptances : first.acceptances = second.acceptances

theorem paired_trails (tools : Toolchain) (language : Language) (T : FileTree → FileTree → Prop) :
    Paired (Trails (σ := σ) tools language T) where
  chance h := h.chance
  after h event := { h with
    acceptances := by rw [acceptances_after, acceptances_after, h.acceptances] }
  withChance h _ := { h with chance := rfl }

namespace Trails

variable (h : Trails tools language T first second)

include h

theorem after (event : Event) : Trails tools language T (first.after event) (second.after event) :=
  (paired_trails tools language T).after h event

theorem mono (htrees : T' first.tree second.tree) : Trails tools language T' first second :=
  { h with trees := htrees }

/-- What leaves either world untouched leaves the second one trailing. -/
theorem untouched (hfirst : first.Untouched first') (hsecond : second.Untouched second') :
    Trails tools language T first' second' where
  trees := hfirst.tree ▸ hsecond.tree ▸ h.trees
  chance := hfirst.chance.symm.trans (h.chance.trans hsecond.chance)
  serves := by
    rw [hfirst.grammars, hsecond.grammars]
    exact h.serves
  acceptances := hfirst.acceptances.trans (h.acceptances.trans hsecond.acceptances.symm)

end Trails

end World

namespace Run

/-! ## Runs that follow others

Only one direction is asked for.  Where the first run returns, so does the second one; nothing is
said of a first run that stops.
-/

/-- Whether, if a run returns, another one returns the same and leaves a related world. -/
def Follows (R : World σ → World σ → Prop) (one other : Except Stop α × World σ) : Prop :=
  ∀ a first, one = (.ok a, first) → ∃ second, other = (.ok a, second) ∧ R first second

section Follows

variable {R R' : World σ → World σ → Prop} {first second : World σ}

theorem follows_pure (a : α) (h : R first second) :
    Follows R ((pure a : Run σ α) first) ((pure a : Run σ α) second) := by
  rintro _ _ ⟨⟩
  exact ⟨second, rfl, h⟩

theorem follows_of_blind {m : Run σ α} (hm : Blind R m) (h : R first second) :
    Follows R (m first) (m second) := by
  intro a after hrun
  obtain ⟨hresult, hworlds⟩ := hm first second h
  rw [hrun] at hresult hworlds
  exact ⟨(m second).2, Prod.ext hresult.symm rfl, hworlds⟩

/-- Two parts are followed if the first part is, and the second one from where that leads. -/
theorem follows_bind {m n : Run σ α} {f g : α → Run σ β} (h : Follows R (m first) (n second))
    (hnext : ∀ a between between', m first = (.ok a, between) → R between between' →
      Follows R' (f a between) (g a between')) :
    Follows R' ((m >>= f) first) ((n >>= g) second) := by
  intro b last hrun
  obtain ⟨a, between, hm, hf⟩ := Chance.bind_eq_ok.mp hrun
  obtain ⟨between', hn, hworlds⟩ := h a between hm
  obtain ⟨last', hg, hlast⟩ := hnext a between between' hm hworlds b last hf
  exact ⟨last', Chance.bind_eq_ok.mpr ⟨a, between', hn, hg⟩, hlast⟩

theorem follows_log_bind {f g : Unit → Run σ α} (line : LogLine)
    (h : Follows R (f () (first.after (.logged line))) (g () (second.after (.logged line)))) :
    Follows R ((log line >>= f) first) ((log line >>= g) second) := by
  rw [log_bind_apply, log_bind_apply]
  exact h

end Follows

/-! ### Sources -/

section Sources

variable {tools : Toolchain} {language : Language} {T : FileTree → FileTree → Prop}
  {maxLines used : Nat} {directory path : Path} {corpus : Corpus} {met met' : List Visit}
  {paths : List Path} {first second : World σ}

theorem follows_readSource (h : World.Trails tools language T first second)
    (hread : ∀ bytes, first.tree.read path = .ok bytes → second.tree.read path = .ok bytes) :
    Follows (World.Trails tools language T) ((readSource path : Run σ String) first)
      ((readSource path : Run σ String) second) := by
  intro text after hrun
  obtain ⟨bytes, hbytes, hdecode, rfl⟩ := readSource_eq_ok hrun
  refine ⟨second.after (.read path bytes), ?_, h.after _⟩
  rw [readSource_apply, hread bytes hbytes]
  dsimp only
  rw [hdecode]

/-- Whoever harvests has a parser. -/
theorem exists_parser_of_harvestOf {text : String} {grammars : Grammars} {found : Harvest}
    (h : tools.harvestOf language path text grammars = .ok found) :
    ∃ handle, (Grammars.parser tools.installed language grammars).answer = .ok handle := by
  rw [Toolchain.harvestOf] at h
  split at h
  case h_1 => cases h
  case h_2 handle hanswer => exact ⟨handle, hanswer⟩

theorem follows_harvestText (h : World.Trails tools language T first second) (text : String) :
    Follows (World.Trails tools language T)
      ((harvestText tools text language path : Run σ Harvest) first)
      ((harvestText tools text language path : Run σ Harvest) second) := by
  intro found after hrun
  obtain ⟨after', hrun', hlevel', hkept'⟩ := harvestText_apply tools language path text second
  obtain ⟨harvested, hharvest, hlevel, hkept⟩ := harvestText_apply tools language path text first
  have hboth := hharvest.symm.trans hrun
  obtain rfl : harvested = after := congrArg Prod.snd hboth
  have hfound : tools.harvestOf language path text first.grammars = .ok found :=
    congrArg Prod.fst hboth
  have hquiet : World.Quiet first harvested :=
    (respects_harvest World.tolerant_quiet tools _ _ _).of_run hrun
  have hquiet' : World.Quiet second after' :=
    (respects_harvest World.tolerant_quiet tools _ _ _).of_run hrun'
  rw [Toolchain.harvestOf_of_serves h.serves hfound] at hrun'
  refine ⟨after', hrun', ?_⟩
  exact {
    trees := hlevel.tree ▸ hlevel'.tree ▸ h.trees
    chance := hlevel.chance.symm.trans (h.chance.trans hlevel'.chance)
    serves := by
      -- The first world had a parser, so the second one had, and has it from now on.
      obtain ⟨handle, hhandle⟩ := exists_parser_of_harvestOf hfound
      obtain ⟨again, hagain⟩ := h.serves handle hhandle
      rw [hkept']
      exact fun _ _ => Grammars.serves_kept _ _ _ again hagain
    acceptances := hquiet.1.trans (h.acceptances.trans hquiet'.1.symm) }

theorem follows_addFile (h : World.Trails tools language T first second)
    (hread : ∀ bytes, first.tree.read path = .ok bytes → second.tree.read path = .ok bytes) :
    Follows (World.Trails tools language T) (addFile tools language maxLines path corpus first)
      (addFile tools language maxLines path corpus second) := by
  have hlog := World.paired_trails (σ := σ) tools language T
  refine follows_bind (follows_readSource h hread) fun text between between' _ hworlds => ?_
  split
  · refine follows_bind (follows_harvestText hworlds text) fun found _ _ _ hharvested => ?_
    refine follows_of_blind ?_ hharvested
    split
    · exact blind_fail _
    · exact blind_bind (blind_log hlog _) fun _ => blind_pure _
  · exact follows_of_blind (blind_bind (blind_log hlog _) fun _ => blind_pure _) hworlds

/-- Whatever else two scans met, the same files add the same to a corpus. -/
theorem follows_addVisits (hpaths : filesOf directory met = paths)
    (hpaths' : filesOf directory met' = paths)
    (hreads : ∀ {tree tree'}, T tree tree' → FileTree.ReadsAlike paths tree tree')
    (h : World.Trails tools language T first second) :
    Follows (World.Trails tools language T)
      (addVisits tools language maxLines directory met used corpus first)
      (addVisits tools language maxLines directory met' used corpus second) := by
  -- The induction is on the files; what is met between two of them leaves both worlds untouched.
  induction paths generalizing met met' used corpus first second with
  | nil =>
    have hnone : ∀ path ∈ filesOf directory met, first.tree.TooLong maxLines path := by
      simp [hpaths]
    have hnone' : ∀ path ∈ filesOf directory met', second.tree.TooLong maxLines path := by
      simp [hpaths']
    obtain ⟨after, hrun, hsame⟩ := addVisits_of_tooLong tools language used corpus hnone
    obtain ⟨after', hrun', hsame'⟩ := addVisits_of_tooLong tools language used corpus hnone'
    rw [hrun, hrun']
    rintro _ _ ⟨⟩
    exact ⟨after', rfl, h.untouched hsame hsame'⟩
  | cons path paths ih =>
    have hothers : ∀ {tree tree'}, T tree tree' → FileTree.ReadsAlike paths tree tree' :=
      fun htrees other hother => hreads htrees other (List.mem_cons_of_mem _ hother)
    obtain ⟨rest, hrest, hnext⟩ := addVisits_next (σ := σ) tools language maxLines hpaths
    obtain ⟨rest', hrest', hnext'⟩ := addVisits_next (σ := σ) tools language maxLines hpaths'
    obtain ⟨logged, hlogged, hrun⟩ := hnext used corpus first
    obtain ⟨logged', hlogged', hrun'⟩ := hnext' used corpus second
    rw [hrun, hrun']
    have hboth := h.untouched hlogged hlogged'
    refine follows_bind (follows_addFile hboth (hreads hboth.trees path List.mem_cons_self)) ?_
    intro added between between' _ hworlds
    exact ih hrest hrest' hothers hworlds

/-- Scans that find the same sources make the same corpus. -/
theorem follows_buildCorpus {patterns : Value} {rules : ScanRules} (hlines : 1 ≤ maxLines)
    (hrules : ScanRules.ofValues (.texts language.suffixes) patterns = .ok rules)
    (haskable : FileTree.unaskable? directory ≠ some .nullCharacter)
    (hfiles : second.tree.sourceFiles directory rules = first.tree.sourceFiles directory rules)
    (hreads : ∀ {tree tree'}, T tree tree' →
      FileTree.ReadsAlike (first.tree.sourceFiles directory rules) tree tree')
    (h : World.Trails tools language T first second) :
    Follows (World.Trails tools language T)
      (buildCorpus tools directory (.text language.name) (.int maxLines) patterns first)
      (buildCorpus tools directory (.text language.name) (.int maxLines) patterns second) := by
  intro corpus last hrun
  obtain ⟨start, hstart, hbuild⟩ := buildCorpus_apply tools hlines hrules haskable first
  obtain ⟨start', hstart', hbuild'⟩ := buildCorpus_apply tools hlines hrules haskable second
  -- The first run's visits are added, and the second run adds the same files.
  rcases hadded : addVisits tools language maxLines directory (first.tree.visits directory rules) 0
    .empty start with ⟨result, added⟩
  obtain ⟨built, hbuilt, hsame⟩ := hbuild result added hadded
  have hboth := hbuilt.symm.trans hrun
  rcases result with stop | ⟨used, joint⟩
  · cases hboth
  · cases hboth
    obtain ⟨added', hadded', hworlds⟩ := follows_addVisits rfl hfiles hreads
      (h.untouched hstart hstart') _ _ hadded
    obtain ⟨built', hbuilt', hsame'⟩ := hbuild' _ _ hadded'
    exact ⟨built', hbuilt', hworlds.untouched hsame hsame'⟩

end Sources

/-! ### Up to the pass that mutates -/

section Gathering

variable {tools : Toolchain} {plan : Plan} {tree last : FileTree} {files : List Path}
  {rules : ScanRules} {directory : Path} {first second : World σ}

/-- Where there is an output directory already, a survey finds the sources and does no more. -/
theorem follows_survey (hpresent : last.isPresent plan.outputDirectory = .ok true)
    (hfinds : ∀ rules, plan.rules = .ok rules → last.sourceFiles plan.inputDirectory rules
      = (tree.withDirectory plan.outputDirectory).sourceFiles plan.inputDirectory rules)
    (h : World.Trails tools plan.language (Are tree last) first second) :
    Follows (World.Trails tools plan.language
        (Are (tree.withDirectory plan.outputDirectory) last))
      (survey plan first) (survey plan second) := by
  obtain ⟨hfirst, hsecond⟩ := h.trees
  intro files after hrun
  obtain ⟨⟨⟩, made, hmade, hscan⟩ := Chance.bind_eq_ok.mp hrun
  obtain ⟨rules, hrules, haskable, rfl, hscanned⟩ := scan_eq_ok hscan
  -- The first run has left the directory, so the second one does nothing about it.
  have hmade' : ensureOutputDirectory plan.outputDirectory second = (.ok (), second) := by
    rw [ensureOutputDirectory_apply, hsecond, hpresent]
  obtain ⟨after', hscan', hscanned'⟩ := scan_apply hrules haskable second
  have hmaking := untouched_ensureOutputDirectory hmade
  have htree : made.tree = tree.withDirectory plan.outputDirectory := by
    rw [← hmaking.tree, hfirst]
  have hsame : second.tree.sourceFiles plan.inputDirectory rules
      = filesOf plan.inputDirectory (made.tree.visits plan.inputDirectory rules) := by
    rw [hsecond, hfinds rules hrules, htree]
    rfl
  refine ⟨after', ?_, ?_⟩
  · rw [survey, Chance.bind_apply, hmade', ← hsame]
    exact hscan'
  · have hready : World.Trails tools plan.language
        (Are (tree.withDirectory plan.outputDirectory) last)
        { first with tree := first.tree.withDirectory plan.outputDirectory } second :=
      { h with trees := ⟨by rw [hfirst], hsecond⟩ }
    exact hready.untouched (hmaking.trans hscanned) hscanned'

/-- What is gathered where the output directory and the files were left is gathered again. -/
theorem follows_gather (hlines : 1 ≤ plan.maxLines)
    (hpresent : last.isPresent plan.outputDirectory = .ok true)
    (hfinds : ∀ rules, plan.rules = .ok rules → last.sourceFiles plan.inputDirectory rules
      = (tree.withDirectory plan.outputDirectory).sourceFiles plan.inputDirectory rules)
    (hreads : ∀ rules, plan.rules = .ok rules → FileTree.ReadsAlike
      ((tree.withDirectory plan.outputDirectory).sourceFiles plan.inputDirectory rules)
      (tree.withDirectory plan.outputDirectory) last)
    (h : World.Trails tools plan.language (Are tree last) first second) :
    Follows (World.Trails tools plan.language
        (Are (tree.withDirectory plan.outputDirectory) last))
      (gather tools plan first) (gather tools plan second) := by
  rw [gather_eq]
  refine follows_bind (follows_survey hpresent hfinds h) fun files between between' hrun hworlds => ?_
  refine follows_bind ?_ fun corpus _ _ _ hgathered => follows_pure _ hgathered
  rw [planCorpus]
  split
  -- The corpus is built in both runs from the tree that has the output directory.
  · obtain ⟨hfirst, hsecond⟩ := hworlds.trees
    obtain ⟨-, -, rules, hrules, haskable, -⟩ := survey_eq_ok hrun
    rw [map_eq_pure_bind]
    refine follows_bind (follows_buildCorpus hlines hrules haskable ?_ ?_ hworlds)
      fun corpus _ _ _ hbuilt => follows_pure _ hbuilt
    · rw [hfirst, hsecond]
      exact hfinds rules hrules
    · rintro _ _ ⟨rfl, rfl⟩
      rw [hfirst]
      exact hreads rules hrules
  · exact follows_pure none hworlds

end Gathering

/-! ### The pass that mutates -/

section Mutating

variable {tools : Toolchain} {language : Language} {directory path : Path}
  {origin last : FileTree} {first second : World σ}

theorem follows_writeOutput
    (h : World.Trails tools language (FileTree.Retraces directory origin last) first second)
    (bytes : Bytes) :
    Follows (World.Trails tools language (FileTree.Retraces directory origin last))
      ((writeOutput path bytes : Run σ Unit) first)
      ((writeOutput path bytes : Run σ Unit) second) := by
  intro _ written hrun
  rw [writeOutput_apply] at hrun
  split at hrun
  case h_1 => cases hrun
  -- The file may be written over now, and the bytes are the same.
  case h_2 after hafter =>
    cases hrun
    obtain ⟨after', hafter', htrees⟩ := h.trees.write hafter
    have hboth : World.Trails tools language (FileTree.Retraces directory origin last)
        { first with tree := after } { second with tree := after' } := { h with trees := htrees }
    refine ⟨_, ?_, hboth.after (.wrote path bytes)⟩
    rw [writeOutput_apply, hafter']

theorem follows_writeNumbered (source : String) (index : Nat) (mutants : List Mutant)
    (h : World.Trails tools language (FileTree.Retraces directory origin last) first second) :
    Follows (World.Trails tools language (FileTree.Retraces directory origin last))
      ((writeNumbered directory source index mutants : Run σ _) first)
      ((writeNumbered directory source index mutants : Run σ _) second) := by
  induction mutants generalizing index first second with
  | nil => exact follows_pure [] h
  | cons mutant rest ih =>
    refine follows_bind (follows_of_blind (blind_ofExcept _) h) fun name _ _ _ hnamed => ?_
    refine follows_bind (follows_writeOutput hnamed _) fun _ _ _ _ hwritten => ?_
    exact follows_bind (ih (index + 1) hwritten) fun paths _ _ _ hrest => follows_pure _ hrest

theorem follows_writeMutants (source : Path) (mutants : List Mutant)
    (h : World.Trails tools language (FileTree.Retraces directory origin last) first second) :
    Follows (World.Trails tools language (FileTree.Retraces directory origin last))
      ((writeMutants directory source mutants : Run σ _) first)
      ((writeMutants directory source mutants : Run σ _) second) := by
  rw [writeMutants]
  split
  · exact follows_pure [] h
  · -- The output directory is there in both worlds.
    have hensure : Follows (World.Trails tools language (FileTree.Retraces directory origin last))
        (ensureOutputDirectory directory first) (ensureOutputDirectory directory second) := by
      rw [ensureOutputDirectory_apply, ensureOutputDirectory_apply, h.trees.present,
        h.trees.present']
      exact follows_pure () h
    refine follows_bind hensure fun _ _ _ _ hensured => ?_
    refine follows_bind (follows_writeNumbered _ 1 mutants hensured) fun _ _ _ _ hwritten => ?_
    exact follows_log_bind _ (follows_pure _ (hwritten.after _))

variable [Chooser σ] {plan : Plan} {corpus : Option Corpus} {paths : List Path}

theorem follows_mutateText (text : String)
    (h : World.Trails tools plan.language
      (FileTree.Retraces plan.outputDirectory origin last) first second) :
    Follows (World.Trails tools plan.language
        (FileTree.Retraces plan.outputDirectory origin last))
      (mutateText tools plan corpus path text first)
      (mutateText tools plan corpus path text second) := by
  have hpaired := World.paired_trails (σ := σ) tools plan.language
    (FileTree.Retraces plan.outputDirectory origin last)
  cases hwithin : Lines.within text plan.maxLines with
  | false =>
    rw [mutateText_of_not_within hwithin]
    exact follows_log_bind _ (follows_pure _ (h.after _))
  -- Step by step, with the same harvest, the same numbers and the same mutants in both worlds.
  | true =>
    rw [mutateText_of_within hwithin]
    refine follows_bind (follows_harvestText h text) fun found _ _ _ hharvested => ?_
    refine follows_bind (follows_of_blind (blind_mutants hpaired _ _ _ _) hharvested)
      fun made _ _ _ hdrawn => ?_
    refine follows_bind (follows_of_blind (blind_handOver hpaired _ _) hdrawn)
      fun _ _ _ _ hhanded => ?_
    refine follows_bind (follows_writeMutants path made hhanded) fun _ _ _ _ hwritten => ?_
    exact follows_log_bind _ (follows_pure _ (hwritten.after _))

/-- Sources that were left as they were are mutated again as they were. -/
theorem follows_mutateFiles (hsame : ∀ path ∈ paths, last.read path = origin.read path)
    (h : World.Trails tools plan.language
      (FileTree.Retraces plan.outputDirectory origin last) first second) :
    Follows (World.Trails tools plan.language
        (FileTree.Retraces plan.outputDirectory origin last))
      (mutateFiles tools plan corpus paths first) (mutateFiles tools plan corpus paths second) := by
  induction paths generalizing first second with
  | nil => exact follows_pure [] h
  | cons path rest ih =>
    obtain ⟨hpath, hrest⟩ := List.forall_mem_cons.mp hsame
    -- A source is read as before, since nothing that was written is one of them.
    have hfile : Follows (World.Trails tools plan.language
          (FileTree.Retraces plan.outputDirectory origin last))
        (mutateFile tools plan corpus path first) (mutateFile tools plan corpus path second) := by
      refine follows_log_bind _ ?_
      refine follows_bind (follows_readSource (h.after _) fun bytes => h.trees.read hpath) ?_
      exact fun text _ _ _ hread => follows_mutateText text hread
    refine follows_bind hfile fun report _ _ _ hmutated => ?_
    exact follows_bind (ih hrest hmutated) fun reports _ _ _ hothers => follows_pure _ hothers

end Mutating

end Run

/-! ## Whole runs -/

namespace Run

/-- Whether a run draws the same numbers from two generators: they are in one state, or the settings
have a seed of their own. -/
inductive DrawsAlike (settings : Settings) : {σ : Type} → Run σ Unit → σ → σ → Prop
  | state {σ : Type} {opening : Run σ Unit} (hopening : Opening settings opening) (chance : σ) :
      DrawsAlike settings opening chance chance
  | ownSeed {twister : Twister} (hseed : Twister.ofSetting settings.seed = .ok (some twister))
      (chance chance' : Twister) : DrawsAlike settings (seed settings.seed) chance chance'

/-- Settings that pass have an input directory. -/
theorem isDirectory_of_check {settings : Settings} {tree : FileTree} {plan : Plan}
    (h : settings.check tree = .ok plan) : tree.isDirectory plan.inputDirectory = .ok true := by
  have hpasses := Settings.check_eq_ok_iff.mp h
  have hchecked := hpasses.isDirectory
  rw [← hpasses.inputDirectory] at hchecked
  unfold Settings.checkInputDirectory at hchecked
  split at hchecked
  case h_1 hdirectory => exact hdirectory
  case h_2 => cases hchecked
  case h_3 => cases hchecked

/-- Settings that pass go on passing. -/
theorem check_keeps {settings : Settings} {tree tree' : FileTree} {plan : Plan}
    (hkeeps : tree.Keeps tree') (h : settings.check tree = .ok plan) :
    settings.check tree' = .ok plan := by
  have hinput := isDirectory_of_check h
  rw [(Settings.check_eq_ok_iff.mp h).inputDirectory] at hinput
  rw [check_congr ((FileTree.isDirectory_keeps hkeeps hinput).trans hinput.symm)]
  exact h

section Whole

variable {tools : Toolchain} {settings : Settings} {plan : Plan} {opening : Run σ Unit}
  {tree last : FileTree} {chance chance' : σ} {grammars others : Grammars}
  {language : Language}

theorem DrawsAlike.opens (h : DrawsAlike settings opening chance chance') :
    Opening settings opening := by
  cases h with
  | state hopening => exact hopening
  | ownSeed => exact .seeded

/-- From then on the numbers are the same. -/
theorem DrawsAlike.follows (h : DrawsAlike settings opening chance chance')
    (hserves : Grammars.Serves tools.installed language grammars others) (event : Event) :
    Follows (World.Trails tools language (Are tree last))
      (opening ((World.fresh tree chance grammars).after event))
      (opening ((World.fresh last chance' others).after event)) := by
  cases h with
  | state hopening =>
    have hstart : World.Trails tools language (Are tree last) (World.fresh tree chance grammars)
        (World.fresh last chance others) := ⟨⟨rfl, rfl⟩, rfl, hserves, rfl⟩
    exact follows_of_blind (hopening.blind (World.paired_trails _ _ _)) (hstart.after event)
  | ownSeed hseed =>
    rw [seed, hseed]
    rintro _ _ ⟨⟩
    exact ⟨_, rfl, ⟨rfl, rfl⟩, rfl, hserves, rfl⟩

variable [Chooser σ] {summary : Summary} {world : World σ}

/-- Once there is an output directory, a plan that is carried out only writes files. -/
theorem addsFiles_of_carryOut {first carried : World σ} (hgrounded : first.tree.Grounded)
    (h : carryOut tools plan first = (.ok summary, carried)) :
    (first.tree.withDirectory plan.outputDirectory).AddsFiles carried.tree ∧
      carried.tree.Grounded := by
  obtain ⟨files, corpus, gathered, sources, mutated, hgathered, hmutated, rfl, rfl⟩ :=
    carryOutBy_eq_ok.mp h
  have htree : gathered.tree = first.tree.withDirectory plan.outputDirectory :=
    (gather_finds hgathered).1
  rw [← htree, World.tree_after]
  exact (respects_mutateFiles (World.steps_onlyWrites _) files).of_run hmutated
    (htree ▸ FileTree.grounded_withDirectory hgrounded _) (present_of_gather hgathered)

/-- A plan that was carried out can be carried out again on the files that were left. -/
theorem carryOut_again {tree : GroundedTree} {first second carried : World σ}
    (hinput : tree.isDirectory plan.inputDirectory = .ok true) (hlines : 1 ≤ plan.maxLines)
    (h : carryOut tools plan first = (.ok summary, carried))
    (hleaves : plan.LeavesInput (tree.withDirectory plan.outputDirectory) carried.tree)
    (hworlds : World.Trails tools plan.language (Are tree carried.tree) first second) :
    ∃ carried', carryOut tools plan second = (.ok summary, carried') ∧
      World.Trails tools plan.language (· = ·) carried carried' := by
  have hfirst := hworlds.trees.1
  obtain ⟨hadds, hgrounded'⟩ := addsFiles_of_carryOut (hfirst ▸ tree.grounded) h
  rw [hfirst] at hadds
  obtain ⟨files, corpus, gathered, sources, mutated, hgathered, hmutated, rfl, rfl⟩ :=
    carryOutBy_eq_ok.mp h
  obtain ⟨htree, rules, hrules, -, rfl⟩ := gather_finds hgathered
  rw [World.tree_after] at htree hleaves hadds hgrounded'
  rw [hfirst] at htree
  have hmade := FileTree.grounded_withDirectory tree.grounded plan.outputDirectory
  have hpresent := present_of_gather hgathered
  rw [← htree] at hadds hleaves hmade
  -- The second scan finds what the first one found, since nothing has come up below its start.
  have hfinds : ∀ rules, mutated.tree.sourceFiles plan.inputDirectory rules
      = gathered.tree.sourceFiles plan.inputDirectory rules := by
    obtain ⟨place, hplace, hentry⟩ := FileTree.leadsToDirectory_of_isDirectory
      (FileTree.isDirectory_keeps (FileTree.keeps_withDirectory tree plan.outputDirectory) hinput)
    rw [← htree] at hplace hentry
    exact hadds.sourceFiles_eq hmade hgrounded' hplace hentry (hleaves.entries place hplace)
  have hfollows : Follows
      (World.Trails tools plan.language (Are (tree.withDirectory plan.outputDirectory) mutated.tree))
      (gather tools plan (first.after (.logged (startLine plan))))
      (gather tools plan (second.after (.logged (startLine plan)))) := by
    refine follows_gather hlines (FileTree.isPresent_keeps hadds.keeps hpresent) ?_ ?_
      (hworlds.after _)
    · exact fun rules _ => htree ▸ hfinds rules
    · exact fun rules hrules => htree ▸ hleaves.readsAlike hrules
  obtain ⟨gathered', hgathered', hgather⟩ := hfollows _ _ hgathered
  -- From here on the second world has the files that are still to be written.
  have hstart : World.Trails tools plan.language
      (FileTree.Retraces plan.outputDirectory gathered.tree mutated.tree) gathered gathered' := by
    apply hgather.mono
    rw [hgather.trees.2]
    exact .start hadds hmade hpresent
  obtain ⟨mutated', hmutated', hmutate⟩ :=
    follows_mutateFiles (hleaves.sources rules hrules) hstart _ _ hmutated
  refine ⟨_, carryOutBy_eq_ok.mpr
    ⟨_, corpus, gathered', sources, mutated', hgathered', hmutated', rfl, rfl⟩, ?_⟩
  have hend : World.Trails tools plan.language (· = ·) mutated mutated' :=
    hmutate.mono hmutate.trees.eq.symm
  exact hend.after _

/--
A run that returns can be run again on the files that it left, if these have nothing new below the
input directory and each source as it was.  From numbers that are the same, the second run returns
the same, hands over the same mutants, and leaves the files as they are.
-/
theorem mutateAfter_again {tree : GroundedTree}
    (hdraws : DrawsAlike settings opening chance chance')
    (h : mutateAfter opening tools settings (World.fresh tree chance grammars)
      = (.ok summary, world))
    (hplan : settings.check tree = .ok plan)
    (hleaves : plan.LeavesInput (tree.withDirectory plan.outputDirectory) world.tree)
    (hserves : Grammars.Serves tools.installed plan.language grammars others) :
    ∃ again, mutateAfter opening tools settings (World.fresh world.tree chance' others)
        = (.ok summary, again) ∧
      again.acceptances = world.acceptances ∧ again.tree = world.tree ∧
      again.chance = world.chance := by
  -- The check asks for nothing but the input directory, which is still there.
  have hkeeps := (mutateAfter_accounted hdraws.opens h).keeps
  have hagain := check_keeps hkeeps hplan
  obtain ⟨_, opened, carried, hplan', hopened, hcarried, rfl⟩ := mutateAfter_eq_ok h
  cases hplan.symm.trans hplan'
  have hpasses := Settings.check_eq_ok_iff.mp hplan
  obtain ⟨opened', hopened', hopens⟩ := hdraws.follows hserves _ _ _ hopened
  obtain ⟨carried', hcarried', hworlds⟩ := carryOut_again
    (isDirectory_of_check hplan) (Settings.checkMaxLines_pos hpasses.maxLines) hcarried hleaves hopens
  have hend := hworlds.after (.logged (.completed "run_mutation"))
  exact ⟨_, traced_of_carryOutBy (mutateFiles tools) hagain hopened' hcarried',
    hend.acceptances.symm, hend.trees.symm, hend.chance.symm⟩

end Whole

end Run

/-! ## Runs that leave their input alone -/

namespace Run

variable [Chooser σ] {tools : Toolchain} {settings : Settings} {plan : Plan} {opening : Run σ Unit}
  {tree : FileTree} {chance : σ} {grammars : Grammars} {summary : Summary} {world : World σ}

/-- When a plan is carried out, each source is read. -/
theorem exists_read_of_carryOut {first carried : World σ}
    (h : carryOut tools plan first = (.ok summary, carried)) {rules : ScanRules}
    (hrules : plan.rules = .ok rules) {path : Path}
    (hpath : path ∈ (first.tree.withDirectory plan.outputDirectory).sourceFiles plan.inputDirectory
      rules) : ∃ bytes, .read path bytes ∈ carried.events := by
  obtain ⟨files, corpus, gathered, sources, mutated, hgathered, hmutated, rfl, rfl⟩ :=
    carryOutBy_eq_ok.mp h
  obtain ⟨htree, rules', hrules', -, rfl⟩ := gather_finds hgathered
  cases hrules.symm.trans hrules'
  rw [World.tree_after] at htree
  obtain ⟨texts, htexts, hread, -⟩ := mutateFiles_texts hmutated
  rw [← htree, ← htexts] at hpath
  -- Each source that was found is one of those whose texts were read.
  obtain ⟨source, hsource, rfl⟩ := List.mem_map.mp hpath
  obtain ⟨before, bytes, after, hevents, -⟩ := hread source hsource
  exact ⟨bytes, by simp [hevents]⟩

/-- From the moment when there is an output directory, a run that returns only writes files. -/
theorem addsFiles_of_mutateAfter {tree : GroundedTree} (hopening : Opening settings opening)
    (h : mutateAfter opening tools settings (World.fresh tree chance grammars)
      = (.ok summary, world))
    (hplan : settings.check tree = .ok plan) :
    (tree.withDirectory plan.outputDirectory).AddsFiles world.tree := by
  obtain ⟨_, opened, carried, hplan', hopened, hcarried, rfl⟩ := mutateAfter_eq_ok h
  cases hplan.symm.trans hplan'
  have htree : opened.tree = tree :=
    (hopening.respects World.tolerant_sameTree).of_run hopened
  rw [World.tree_after, ← htree]
  exact (addsFiles_of_carryOut (htree ▸ tree.grounded) hcarried).1

/-- A run that writes nothing below its input directory, and nothing where a source stands that it
reads, leaves its input alone. -/
theorem leavesInput_of_apart {tree : GroundedTree} (hopening : Opening settings opening)
    (h : mutateAfter opening tools settings (World.fresh tree chance grammars)
      = (.ok summary, world))
    (hplan : settings.check tree = .ok plan)
    (hbelow : ∀ target bytes, .wrote target bytes ∈ world.events → ∀ place more,
      world.tree.locate plan.inputDirectory = .ok place →
      world.tree.locate target ≠ .ok (place ++ more))
    (hapart : ∀ event ∈ world.events, ∀ other ∈ world.events, event.Apart world.tree other) :
    plan.LeavesInput (tree.withDirectory plan.outputDirectory) world.tree := by
  have haccounted := mutateAfter_accounted hopening h
  have hmakes := FileTree.makesDirectories_withDirectory tree plan.outputDirectory
  have hadds := addsFiles_of_mutateAfter hopening h hplan
  constructor
  · intro place hplace more hthere
    obtain ⟨entry, hentry⟩ := Option.isSome_iff_exists.mp hthere
    rcases hadds.others _ entry hentry with hbefore | ⟨bytes, rfl⟩
    · rw [hbefore]
      rfl
    · -- A file that nothing was written to was there at first.
      have hfile := haccounted.fileAt_eq fun target bytes hmem =>
        hbelow target bytes hmem place more (FileTree.locate_keeps hadds.keeps hplace)
      rw [← hmakes.fileAt_eq, FileTree.fileAt_eq_some_iff.mpr hentry] at hfile
      rw [FileTree.fileAt_eq_some_iff.mp hfile.symm]
      rfl
  · intro rules hrules path hpath
    obtain ⟨bytes, hread⟩ : ∃ bytes, .read path bytes ∈ world.events := by
      obtain ⟨_, opened, carried, hplan', hopened, hcarried, hworld⟩ := mutateAfter_eq_ok h
      cases hplan.symm.trans hplan'
      have htree : opened.tree = tree :=
        (hopening.respects World.tolerant_sameTree).of_run hopened
      rw [← htree] at hpath
      obtain ⟨bytes, hread⟩ := exists_read_of_carryOut hcarried hrules hpath
      exact ⟨bytes, by simp [hworld, hread]⟩
    obtain ⟨location, hlocation, hbefore, hafter⟩ := haccounted.fileAt_of_read hread
      fun target written hmem => hapart _ hread _ hmem
    rw [← hmakes.fileAt_eq] at hbefore
    -- The source was there before the run, so its path has led to it all along.
    have hplace := FileTree.locate_back hadds
      (by rw [FileTree.fileAt_eq_some_iff.mp hbefore]; rfl) hlocation
    rw [FileTree.read_eq_ok_iff.mpr ⟨location, hplace, hbefore⟩]
    exact FileTree.read_eq_ok_iff.mpr ⟨location, hlocation, hafter⟩

end Run

/-! ## Runs in one process -/

namespace Run

variable {tools : Toolchain} {settings : Settings} {plan : Plan} {opening : Run σ Unit}
  {tree : FileTree} {chance : σ} {grammars : Grammars} {summary : Summary}
  {first second world : World σ}

theorem serves_of_gather (hlines : 1 ≤ plan.maxLines) {files : List Path} {corpus : Option Corpus}
    (h : gather tools plan first = (.ok (files, corpus), second)) :
    Grammars.Serves tools.installed plan.language first.grammars second.grammars := by
  cases hshared : plan.mode.usesSharedCorpus with
  -- The corpus pass has loaded the parser.
  | true =>
    obtain ⟨shared, rfl⟩ := gather_some hshared h
    obtain ⟨met, used, start, added, -, -, hstart, hadded, hsame⟩ := addVisits_of_gather hlines h
    obtain ⟨-, hserves, -⟩ := ready_of_addVisits hadded
    rw [hsame.grammars, ← hstart]
    exact hserves
  -- Without a corpus pass no grammar is loaded yet.
  | false =>
    rw [gather_of_not_shared hshared] at h
    rcases hsurvey : survey plan first with ⟨stop | found, made⟩
    · rw [hsurvey] at h
      cases h
    · rw [hsurvey] at h
      cases h
      obtain ⟨-, hgrammars, -⟩ := survey_eq_ok hsurvey
      rw [hgrammars]
      exact .refl _ _ _

theorem Opening.grammars_eq (h : Opening settings opening) (world : World σ) :
    (opening world).2.grammars = world.grammars := by
  cases h with
  | given => rfl
  | seeded =>
    rw [seed]
    rcases Twister.ofSetting settings.seed with failure | _ | twister <;> rfl

variable [Chooser σ]

/-- The grammars that a run leaves loaded serve as well as those that it found. -/
theorem serves_of_mutateAfter (hopening : Opening settings opening)
    (h : mutateAfter opening tools settings (World.fresh tree chance grammars)
      = (.ok summary, world))
    (hplan : settings.check tree = .ok plan) :
    Grammars.Serves tools.installed plan.language grammars world.grammars := by
  obtain ⟨_, opened, carried, hplan', hopened, hcarried, rfl⟩ := mutateAfter_eq_ok h
  cases hplan.symm.trans hplan'
  obtain ⟨files, corpus, gathered, sources, mutated, hgathered, hmutated, rfl, rfl⟩ :=
    carryOutBy_eq_ok.mp hcarried
  have hsame := hopening.grammars_eq
    ((World.fresh tree chance grammars).after (.logged (.entered "run_mutation")))
  rw [hopened] at hsame
  have hlines := Settings.checkMaxLines_pos (Settings.check_eq_ok_iff.mp hplan).maxLines
  -- Grammars are loaded by the gathering and by the turns of the sources, and are kept.
  have hserves : Grammars.Serves tools.installed plan.language opened.grammars mutated.grammars :=
    (serves_of_gather hlines hgathered).trans (serves_of_mutateFiles hmutated)
  rw [hsame] at hserves
  exact hserves

/-! ### A run over two sources of one name -/

/-- Both sources are left alone, though the mutant of one is written over that of the other. -/
theorem namesakes_leavesInput :
    deletionsPlan.LeavesInput (namesakesTree.withDirectory deletionsPlan.outputDirectory)
      namesakesRun.2.tree := by
  have hinput : namesakesRun.2.tree.locate deletionsPlan.inputDirectory = .ok ["w", "in"] := by
    decide +kernel
  have htargets : ∀ written ∈ namesakesRun.2.writings,
      namesakesRun.2.tree.locate written.1 = .ok ["w", "out", "mut_lib.rs_1.rs"] := by
    decide +kernel
  refine leavesInput_of_apart .given namesakesRun_eq rfl ?_ (by decide +kernel)
  intro target bytes hmem place more hplace htarget
  cases hinput.symm.trans hplace
  have hwritten : (target, bytes) ∈ namesakesRun.2.writings :=
    List.mem_filterMap.mpr ⟨_, hmem, rfl⟩
  simp [htargets _ hwritten] at htarget

/-- So the run can be run again, with the grammars that it has loaded. -/
theorem namesakes_again :
    namesakesRun = (.ok namesakesSummary, namesakesRun.2) ∧
      deletionsPlan.LeavesInput (namesakesTree.withDirectory deletionsPlan.outputDirectory)
        namesakesRun.2.tree ∧
      ∃ again, mutate firstByteTools deletions
          (World.fresh namesakesRun.2.tree ⟨[]⟩ namesakesRun.2.grammars)
            = (.ok namesakesSummary, again) ∧
        again.acceptances = namesakesRun.2.acceptances ∧
        again.tree = namesakesRun.2.tree ∧ again.chance = namesakesRun.2.chance := by
  have hplan : deletions.check namesakesTree = .ok deletionsPlan := rfl
  exact ⟨namesakesRun_eq, namesakes_leavesInput,
    mutateAfter_again (.state .given _) namesakesRun_eq hplan namesakes_leavesInput
      (serves_of_mutateAfter .given namesakesRun_eq hplan)⟩

end Run

end SourceMutation
