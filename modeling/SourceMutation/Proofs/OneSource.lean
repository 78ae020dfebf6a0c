import SourceMutation.Proofs.FreeChoices
import SourceMutation.Proofs.ReadFirst
import SourceMutation.Proofs.TwoPasses
import SourceMutation.Proofs.Writings

/-!
# Splicing one source with its own texts

Splicing a source with texts of its own is splicing it with those of its corpus: both look for the
same candidates first, and where there is a candidate both draw by the same choices
(`Splice.fromSelf_eq_fromOwn`).

So where a scan is after one source only that is short enough, a run that takes each source's own
texts leaves the same files and numbers as one that takes the texts of all sources
(`Run.selfSplice_agrees_with_splice`): the corpus that is built before the sources are mutated is
that of the one source.

## How it is shown

- The pass over the sources comes to the turn of the one source: the others are passed over, before
  it and after it (`Run.mutateFiles_of_oneSource`).  They stand outside the output directory, so
  they are as long after the turn as they were before.
- The corpus pass harvests the one source to what its turn harvests (`Run.gather_of_oneSource`).
- If the source cannot be harvested or has no corpus, one run stops in the corpus pass and the other
  one in the turn, and neither has written anything (`Run.carryOut_of_own`,
  `Run.carryOut_of_shared`).
-/

namespace SourceMutation

variable {σ : Type}

/-! ## Draws that agree

The two modes draw by different rules.  For the spans of one source these come to the same, and the
loop asks a rule for no other span.
-/

namespace DrawLoop

variable [Chooser σ] {harvest : Harvest} {draw other : Draw σ}

/-- One draw is the same if the candidates are drawn alike for all spans. -/
theorem once_congr (h : ∀ span ∈ harvest.spans, draw span = other span) (index : Nat) :
    once harvest draw index = once harvest other index := by
  funext state
  rw [once, once, Chance.bind_apply, Chance.bind_apply]
  rcases hpick : Chance.pick harvest.spans state with ⟨stop | span, between⟩
  · rfl
  · -- Only spans of the source are drawn.
    dsimp only
    rw [h span (Chance.mem_of_pick hpick)]

/-- The loop looks at a draw rule only for spans of the source. -/
theorem more_congr (h : ∀ span ∈ harvest.spans, draw span = other span) (stall : StallLimit)
    (fuel missing made attempts : Nat) :
    more harvest draw stall fuel missing made attempts
      = more harvest other stall fuel missing made attempts := by
  induction fuel generalizing missing made attempts with
  | zero => cases missing <;> rfl
  | succ fuel ih =>
    cases missing with
    | zero => rfl
    | succ missing =>
      funext state
      simp only [more, once_congr h, ih]

end DrawLoop

namespace Splice

variable [Chooser σ] {harvest : Harvest}

/-- A pass of draws is the same if the candidates are drawn alike for all spans. -/
theorem drawn_congr {draw other : Draw σ} (h : ∀ span ∈ harvest.spans, draw span = other span)
    (patience count : Nat) (stall : StallLimit) (possible : Except Failure Bool) :
    drawn patience harvest count stall draw possible
      = drawn patience harvest count stall other possible := by
  have hmutants : DrawLoop.mutants patience harvest count draw stall
      = DrawLoop.mutants patience harvest count other stall := by
    rw [DrawLoop.mutants, DrawLoop.mutants, DrawLoop.more_congr h]
  funext state
  simp only [drawn, hmutants]

/-- Splices with texts of the source's own corpus. -/
def fromOwn (patience : Nat) (harvest : Harvest) (count : Int) (stall : StallLimit) : Pass σ :=
  fun state =>
    match Corpus.ofSource harvest with
    | .error failure => (.failed failure, state)
    | .ok own => fromCorpus patience harvest own count stall state

/-- A source without a corpus of its own has no splices with it. -/
theorem fromOwn_of_error {failure : Failure} (h : Corpus.ofSource harvest = .error failure)
    (patience : Nat) (count : Int) (stall : StallLimit) (state : σ) :
    fromOwn patience harvest count stall state = (.failed failure, state) := by
  rw [fromOwn, h]

/-- Splices with a source's own corpus are splices with that corpus. -/
theorem fromOwn_of_ok {own : Corpus} (h : Corpus.ofSource harvest = .ok own) (patience : Nat)
    (count : Int) (stall : StallLimit) :
    fromOwn (σ := σ) patience harvest count stall = fromCorpus patience harvest own count stall := by
  funext state
  rw [fromOwn, h]

/-- With a count, splicing with texts of the source is splicing with those of its own corpus. -/
theorem fromSelf_eq_fromOwn {count : Int} (hcount : 1 ≤ count) (patience : Nat)
    (harvest : Harvest) (stall : StallLimit) :
    fromSelf (σ := σ) patience harvest count stall = fromOwn patience harvest count stall := by
  obtain ⟨count, rfl⟩ := Int.eq_ofNat_of_zero_le (by omega : 0 ≤ count)
  have hpos : 1 ≤ count := by omega
  cases hown : Corpus.ofSource harvest with
  | error failure =>
    funext state
    rw [fromOwn_of_error hown, fromSelf, checkCount_of_pos hpos, hown]
  | ok own =>
    rw [fromOwn_of_ok hown, fromSelf_of_pos hpos hown, fromCorpus_of_pos hpos]
    -- Each span has its own text among the candidates, so that there is always one to draw.
    apply drawn_congr
    intro span hspan
    obtain ⟨text, -, hlisted⟩ := Corpus.exists_mem_candidates_of_ofSource hown hspan
    exact (drawSameKind_eq (List.ne_nil_of_mem hlisted)).symm

end Splice

/-! ## Sources outside the output directory -/

namespace FileTree

variable {tree : FileTree} {directory : Path} {files : List Path}

/-- Whether no name in a directory leads where one of some files stands. -/
def Outside (tree : FileTree) (directory : Path) (files : List Path) : Prop :=
  ∀ name, Plain name → ∀ file ∈ files, tree.locate (directory.below [name]) ≠ tree.locate file

/-- Files that stand in other directories are outside of one that has no links. -/
theorem outside_of_locate {place : Location} (hplace : tree.locate directory = .ok place)
    (hlinks : ∀ name target, tree.entry? (place ++ [name]) ≠ some (.link target))
    (hfiles : ∀ file ∈ files, ∃ location, tree.locate file = .ok location ∧
      location.dropLast ≠ place) : tree.Outside directory files := by
  intro name hplain file hmem heq
  obtain ⟨location, hlocation, hne⟩ := hfiles file hmem
  rw [hlocation] at heq
  obtain rfl := locate_below hplain hplace (hlinks name) heq
  exact hne List.dropLast_concat

end FileTree

namespace Run

section Writing

variable [Chooser σ] {tools : Toolchain} {plan : Plan} {corpus : Option Corpus} {path : Path}
  {report : SourceReport} {world world' : World σ}

/-- What is written of a source has a plain name in the output directory. -/
theorem mutateFile_writes (h : mutateFile tools plan corpus path world = (.ok report, world'))
    {new : List Event} (hnew : world'.events = world.events ++ new) {target : Path} {bytes : Bytes}
    (hmem : .wrote target bytes ∈ new) :
    ∃ name, FileTree.Plain name ∧ plan.outputDirectory.below [name] = target := by
  obtain ⟨text, between, ⟨-, hquiet⟩, htext⟩ := mutateFile_eq_ok h
  obtain ⟨mutants, -, -, hwritten⟩ := mutateText_eq_ok htext
  -- All that was written in this turn are the mutants of its source.
  have hnew' : new.filterMap Event.written?
      = ((Yield.mk path mutants report).targets plan.outputDirectory).map written := by
    have hwritings : world'.writings = world.writings ++ new.filterMap Event.written? := by
      rw [World.writings, hnew, List.filterMap_append]
      rfl
    rw [hwritten, hquiet] at hwritings
    exact (List.append_cancel_left hwritings).symm
  have hwrote : (target, bytes) ∈ new.filterMap Event.written? :=
    List.mem_filterMap.mpr ⟨_, hmem, rfl⟩
  rw [hnew', List.mem_map] at hwrote
  obtain ⟨⟨path, mutant⟩, htarget, heq⟩ := hwrote
  cases heq
  obtain ⟨name, hname, hbelow⟩ := Yield.mem_targets.mp ⟨_, htarget, rfl⟩
  exact ⟨name, Yield.plain_of_mem_names hname, hbelow⟩

/-- A source outside the output directory is read as before, whatever was mutated meanwhile. -/
theorem read_of_mutateFile (hgrounded : world.tree.Grounded)
    (hpresent : world.tree.isPresent plan.outputDirectory = .ok true)
    (h : mutateFile tools plan corpus path world = (.ok report, world')) {other : Path}
    (houtside : world.tree.Outside plan.outputDirectory [other]) {bytes : Bytes}
    (hread : world.tree.read other = .ok bytes) : world'.tree.read other = .ok bytes := by
  obtain ⟨new, hnew, haccounted⟩ :=
    (respects_mutateFile (World.steps_accounts _) path).of_run h hgrounded
  obtain ⟨hadds, -⟩ :=
    (respects_mutateFile (World.steps_onlyWrites _) path).of_run h hgrounded hpresent
  apply haccounted.read_again hread
  intro target written hmem
  obtain ⟨name, hplain, rfl⟩ := mutateFile_writes h hnew hmem
  exact hadds.locate_ne hread (houtside name hplain other List.mem_cons_self)

end Writing

end Run

/-! ## One source -/

/-- Whether exactly one of the files that a plan's scan is after is short enough to be harvested,
and all of them stand outside the output directory. -/
structure OneSource (tree : FileTree) (plan : Plan) (path : Path) (text : String) : Prop where
  /-- All other files are too long. -/
  scanned : ∀ rules, plan.rules = .ok rules → ∃ earlier later,
    tree.sourceFiles plan.inputDirectory rules = earlier ++ path :: later ∧
      ∀ other ∈ earlier ++ later, tree.TooLong plan.maxLines other
  hasText : tree.HasText path text
  within : Lines.within text plan.maxLines = true
  outside : ∀ rules, plan.rules = .ok rules →
    tree.Outside plan.outputDirectory (tree.sourceFiles plan.inputDirectory rules)

namespace Run

variable [Chooser σ] {tools : Toolchain} {plan : Plan} {corpus : Option Corpus} {path : Path}
  {text : String} {found : Harvest} {world : World σ}

/-! ### The pass that mutates -/

/-- What is too long and stands outside the output directory stays too long. -/
theorem tooLong_of_mutateFile {report : SourceReport} {world' : World σ}
    (hgrounded : world.tree.Grounded)
    (hpresent : world.tree.isPresent plan.outputDirectory = .ok true)
    (h : mutateFile tools plan corpus path world = (.ok report, world')) {other : Path}
    (houtside : world.tree.Outside plan.outputDirectory [other]) {maxLines : Nat}
    (hlong : world.tree.TooLong maxLines other) : world'.tree.TooLong maxLines other := by
  obtain ⟨text, ⟨bytes, hread, hdecode⟩, hwithin⟩ := hlong
  exact ⟨text, ⟨bytes, read_of_mutateFile hgrounded hpresent h houtside hread, hdecode⟩, hwithin⟩

/-- The one source decides what the pass over all files comes to. -/
theorem mutateFiles_of_oneSource (tools : Toolchain) (corpus : Option Corpus)
    (hgrounded : world.tree.Grounded)
    (hpresent : world.tree.isPresent plan.outputDirectory = .ok true)
    (hone : OneSource world.tree plan path text) {rules : ScanRules}
    (hrules : plan.rules = .ok rules) :
    ∃ harvested, world.Level harvested ∧
      World.Level
        (match tools.harvestOf plan.language path text world.grammars with
          | .error _ => harvested
          | .ok found => (mutateHarvest tools plan corpus path found harvested).2)
        (mutateFiles tools plan corpus
          (filesOf plan.inputDirectory (world.tree.visits plan.inputDirectory rules)) world).2 := by
  obtain ⟨earlier, later, hfiles, hlong⟩ := hone.scanned rules hrules
  have houtside := hone.outside rules hrules
  have hsame : filesOf plan.inputDirectory (world.tree.visits plan.inputDirectory rules)
      = earlier ++ path :: later := hfiles
  rw [hfiles] at houtside
  rw [hsame]
  obtain ⟨first, hstill, hpass⟩ := mutateFiles_of_one tools corpus path later
    fun other hmem => hlong other (List.mem_append_left _ hmem)
  have htext := hone.hasText
  rw [hstill.tree] at hgrounded hpresent hlong houtside htext
  obtain ⟨harvested, hlevel, -, hfile⟩ := mutateFile_of_within tools corpus htext hone.within
  refine ⟨harvested, hstill.toLevel.trans hlevel, ?_⟩
  rw [hstill.grammars] at hfile
  rcases hrun : mutateFile tools plan corpus path first with ⟨result, second⟩
  -- The sources after it are outside the output directory, and so they are too long as before.
  have hlater : ∀ report, result = .ok report →
      ∀ other ∈ later, second.tree.TooLong plan.maxLines other := by
    rintro report rfl other hmem
    apply tooLong_of_mutateFile hgrounded hpresent hrun
    · intro name hplain file hsingle
      cases List.mem_singleton.mp hsingle
      exact houtside name hplain other (List.mem_append_right _ (List.mem_cons_of_mem _ hmem))
    · exact hlong other (List.mem_append_right _ hmem)
  have hafter := hpass result second hrun hlater
  rw [hrun] at hfile
  cases hharvest : tools.harvestOf plan.language path text world.grammars with
  | error stop =>
    rw [hharvest] at hfile
    cases hfile
    exact hafter
  | ok found =>
    rw [hharvest] at hfile
    dsimp only at hfile ⊢
    rw [← hfile]
    exact hafter

/-- A pass that fails at once leaves the world as it was. -/
theorem mutateHarvest_of_failed {failure : Failure}
    (h : ∀ state : σ, plan.mode.mutants tools.patience found plan.count corpus plan.stallLimit state
      = (.failed failure, state)) (path : Path) (world : World σ) :
    (mutateHarvest tools plan corpus path found world).2 = world := by
  have hmutants : mutants tools plan found corpus world = (.error (.failed failure), world) := by
    rw [mutants, Chance.bind_apply, draft_apply, h]
    rfl
  rw [mutateHarvest, Chance.bind_apply, hmutants]

/-- A plan in the mode of own texts splices with the source's own corpus. -/
theorem mutants_inMode (hcount : 1 ≤ plan.count) (tools : Toolchain) (found : Harvest) :
    (plan.inMode .selfSplice).mode.mutants (σ := σ) tools.patience found
        (plan.inMode .selfSplice).count none (plan.inMode .selfSplice).stallLimit
      = Splice.fromOwn tools.patience found plan.count plan.stallLimit := by
  have hcount' : (1 : Int) ≤ plan.count := by omega
  show Splice.fromSelf tools.patience found plan.count plan.stallLimit = _
  rw [Splice.fromSelf_eq_fromOwn hcount']

/-- The one source is mutated alike with its own texts and with those of its corpus. -/
theorem mutateHarvest_inMode (hmode : plan.mode = .splice) (hcount : 1 ≤ plan.count)
    (path : Path) {own : Corpus} (hown : Corpus.ofSource found = .ok own) :
    (mutateHarvest tools (plan.inMode .selfSplice) none path found : Run σ SourceReport)
      = mutateHarvest tools plan (some own) path found := by
  have hpasses : (plan.inMode .selfSplice).mode.mutants (σ := σ) tools.patience found
        (plan.inMode .selfSplice).count none (plan.inMode .selfSplice).stallLimit
      = plan.mode.mutants tools.patience found plan.count (some own) plan.stallLimit := by
    rw [mutants_inMode hcount, Splice.fromOwn_of_ok hown, hmode]
    rfl
  rw [mutateHarvest, mutateHarvest, mutants, mutants, hpasses]
  rfl

/-- In level worlds, the same is left of the one source with its own texts and with its corpus. -/
theorem level_mutateHarvest_inMode (hmode : plan.mode = .splice) (hcount : 1 ≤ plan.count)
    (tools : Toolchain) (path : Path) (found : Harvest) {first second : World σ}
    (hlevel : first.Level second) :
    World.Level (mutateHarvest tools (plan.inMode .selfSplice) none path found first).2
      (match Corpus.ofSource found with
        | .error _ => second
        | .ok own => (mutateHarvest tools plan (some own) path found second).2) := by
  cases hcorpus : Corpus.ofSource found with
  | error failure =>
    -- A source without a corpus of its own cannot be spliced with its own texts, either.
    have hfailed : ∀ state : σ, (plan.inMode .selfSplice).mode.mutants tools.patience found
        (plan.inMode .selfSplice).count none (plan.inMode .selfSplice).stallLimit state
        = (.failed failure, state) := by
      intro state
      rw [mutants_inMode hcount, Splice.fromOwn_of_error hcorpus]
    rw [mutateHarvest_of_failed hfailed]
    exact hlevel
  | ok own =>
    dsimp only
    rw [mutateHarvest_inMode hmode hcount path hcorpus]
    exact (blind_mutateHarvest World.indistinct_level tools plan (some own) path found
      first second hlevel).2

/-! ### Plans that are carried out -/

section Surveyed

variable {files : List Path} {made : World σ}
  (hsurvey : survey plan (world.after (.logged (startLine plan))) = (.ok files, made))
  (hgrounded : made.tree.Grounded) (hone : OneSource made.tree plan path text)

include hsurvey hgrounded hone

/-- Without a shared corpus, the one source is mutated as it was harvested. -/
theorem carryOut_of_own (hmode : plan.mode.usesSharedCorpus = false) (tools : Toolchain) :
    ∃ harvested, made.Level harvested ∧
      World.Level
        (match tools.harvestOf plan.language path text made.grammars with
          | .error _ => harvested
          | .ok found => (mutateHarvest tools plan none path found harvested).2)
        (carryOut tools plan world).2 := by
  obtain ⟨-, -, rules, hrules, -, rfl⟩ := survey_eq_ok hsurvey
  have hgathered := gather_of_survey tools hsurvey
  -- No corpus is built, so the pass that mutates starts from the files that were surveyed.
  rw [planCorpus, if_neg (Bool.eq_false_iff.mp hmode)] at hgathered
  obtain ⟨place, hplace, hentry⟩ := locate_of_gather hgathered
  have hpresent := FileTree.isPresent_of_locate hplace hentry
  obtain ⟨harvested, hlevel, hpass⟩ :=
    mutateFiles_of_oneSource tools none hgrounded hpresent hone hrules
  exact ⟨harvested, hlevel, hpass.trans (level_carryOut hgathered)⟩

omit [Chooser σ] hgrounded in
/-- With a shared corpus, what is gathered is the corpus of the one source. -/
theorem gather_of_oneSource (hmode : plan.mode.usesSharedCorpus = true)
    (hlines : 1 ≤ plan.maxLines) (tools : Toolchain) :
    ∃ built, made.Level built ∧
      built.grammars = (Grammars.parser tools.installed plan.language made.grammars).kept ∧
      gather tools plan (world.after (.logged (startLine plan)))
        = ((joined .empty (tools.harvestOf plan.language path text made.grammars)).map
            fun own => (files, some own), built) := by
  obtain ⟨-, -, rules, hrules, haskable, rfl⟩ := survey_eq_ok hsurvey
  obtain ⟨earlier, later, hfiles, hlong⟩ := hone.scanned rules hrules
  have htext := hone.hasText
  -- The corpus pass adds the one source, and passes over the others.
  obtain ⟨start, hstart, hbuild⟩ := buildCorpus_apply tools hlines hrules haskable made
  rw [hstart.tree] at hlong htext
  obtain ⟨added, hadded, hlevel, hkept⟩ := addVisits_of_one tools plan.language 0 .empty hfiles
    (fun other hmem => hlong other (List.mem_append_left _ hmem))
    (fun other hmem => hlong other (List.mem_append_right _ hmem)) htext hone.within
  obtain ⟨built, hbuilt, hstill⟩ := hbuild _ _ hadded
  rw [hstart.grammars] at hbuilt hkept
  refine ⟨built, hstart.toLevel.trans (hlevel.trans hstill.toLevel), ?_, ?_⟩
  · rw [hstill.grammars, hkept]
  · rw [gather_of_survey tools hsurvey, planCorpus_of_shared hmode hbuilt]
    cases joined .empty (tools.harvestOf plan.language path text made.grammars) <;> rfl

/-- With a shared corpus, the one source is mutated with its own corpus. -/
theorem carryOut_of_shared (hmode : plan.mode.usesSharedCorpus = true) (hlines : 1 ≤ plan.maxLines)
    (tools : Toolchain) :
    ∃ harvested, made.Level harvested ∧
      World.Level
        (match tools.harvestOf plan.language path text made.grammars with
          | .error _ => harvested
          | .ok found =>
            match Corpus.ofSource found with
            | .error _ => harvested
            | .ok own => (mutateHarvest tools plan (some own) path found harvested).2)
        (carryOut tools plan world).2 := by
  obtain ⟨built, hmadeBuilt, hkept, hgathered⟩ :=
    gather_of_oneSource hsurvey hone hmode hlines tools
  obtain ⟨-, -, rules, hrules, -, rfl⟩ := survey_eq_ok hsurvey
  cases hharvest : tools.harvestOf plan.language path text made.grammars with
  | error stop =>
    rw [hharvest] at hgathered
    refine ⟨built, hmadeBuilt, ?_⟩
    rw [carryOut_of_stop hgathered]
    exact .refl built
  | ok found =>
    rw [hharvest, joined_empty] at hgathered
    cases hown : Corpus.ofSource found with
    | error failure =>
      rw [hown] at hgathered
      refine ⟨built, hmadeBuilt, ?_⟩
      rw [carryOut_of_stop hgathered]
      dsimp only
      rw [hown]
      exact .refl built
    | ok own =>
      rw [hown] at hgathered
      obtain ⟨place, hplace, hentry⟩ := locate_of_gather hgathered
      have hpresent := FileTree.isPresent_of_locate hplace hentry
      rw [hmadeBuilt.tree] at hgrounded hone
      obtain ⟨harvested, hharvested, hpass⟩ :=
        mutateFiles_of_oneSource tools (some own) hgrounded hpresent hone hrules
      -- The source was harvested before, with the grammars that are loaded now.
      have hagain := Toolchain.harvestOf_of_serves (Grammars.serves_kept _ _ _) hharvest
      rw [hkept, hagain, ← hmadeBuilt.tree] at hpass
      refine ⟨harvested, hmadeBuilt.trans hharvested, ?_⟩
      dsimp only
      rw [hown]
      exact hpass.trans (level_carryOut hgathered)

end Surveyed

/-- Carrying out a plan with one source leaves the same with its own texts and with those of all
sources. -/
theorem carryOut_inMode (hmode : plan.mode = .splice) (hcount : 1 ≤ plan.count)
    (hlines : 1 ≤ plan.maxLines) (hgrounded : world.tree.Grounded)
    (hone : OneSource (world.tree.withDirectory plan.outputDirectory) plan path text) :
    (carryOut tools (plan.inMode .selfSplice) world).2.Level (carryOut tools plan world).2 := by
  have hstarted : (world.after (.logged (startLine (plan.inMode .selfSplice)))).Level
      (world.after (.logged (startLine plan))) :=
    (world.still_logged _).toLevel.symm.trans (world.still_logged _).toLevel
  -- No survey depends on the mode.
  rcases hsurvey : survey plan (world.after (.logged (startLine plan))) with ⟨result, made⟩
  obtain ⟨made', hsurvey', hmade⟩ :=
    (blind_survey World.indistinct_level plan).of_run hstarted hsurvey
  have hown : survey (plan.inMode .selfSplice)
      (world.after (.logged (startLine (plan.inMode .selfSplice)))) = (result, made') := hsurvey'
  cases result with
  | error stop =>
    rw [carryOut_of_stop (gather_of_stop hown), carryOut_of_stop (gather_of_stop hsurvey)]
    exact hmade
  | ok files =>
    obtain ⟨htree, hgrammars, -⟩ := survey_eq_ok hsurvey
    obtain ⟨-, hgrammars', -⟩ := survey_eq_ok hown
    have hsame : made'.grammars = made.grammars := hgrammars'.trans hgrammars.symm
    have hmadeGrounded : made.tree.Grounded := by
      rw [htree]
      exact FileTree.grounded_withDirectory hgrounded plan.outputDirectory
    have hmadeOne : OneSource made.tree plan path text := htree ▸ hone
    have hownOne : OneSource made'.tree (plan.inMode .selfSplice) path text :=
      ⟨hmade.tree ▸ hmadeOne.scanned, hmade.tree ▸ hmadeOne.hasText, hmadeOne.within,
        hmade.tree ▸ hmadeOne.outside⟩
    obtain ⟨first, hfirst, hcarried⟩ :=
      carryOut_of_own hown (hmade.tree ▸ hmadeGrounded) hownOne rfl tools
    obtain ⟨second, hsecond, hcarried'⟩ :=
      carryOut_of_shared hsurvey hmadeGrounded hmadeOne (hmode ▸ rfl) hlines tools
    -- Both runs harvest the source with the same grammars, and go on from level worlds.
    have hharvested : first.Level second := hfirst.symm.trans (hmade.trans hsecond)
    refine hcarried.symm.trans (.trans ?_ hcarried')
    rw [hsame]
    show World.Level (match tools.harvestOf plan.language path text made.grammars with
      | .error _ => first
      | .ok found => (mutateHarvest tools (plan.inMode .selfSplice) none path found first).2) _
    cases tools.harvestOf plan.language path text made.grammars with
    | error stop => exact hharvested
    | ok found => exact level_mutateHarvest_inMode hmode hcount tools path found hharvested

/-! ### Whole runs -/

/-- Around what settings ask for, a run does nothing but log. -/
theorem level_mutateAfter (tools : Toolchain) (opening : Run σ Unit) {settings : Settings}
    (world : World σ) (hplan : settings.check world.tree = .ok plan) :
    World.Level ((opening >>= fun _ => carryOut tools plan : Run σ Summary)
        (world.after (.logged (.entered "run_mutation")))).2
      (mutateAfter opening tools settings world).2 := by
  -- The settings are accepted, and the rest is the opening and the plan.
  have hbody : (do
        let plan ← ofExcept (settings.check (← tree))
        opening
        carryOut tools plan : Run σ Summary) (world.after (.logged (.entered "run_mutation")))
      = (opening >>= fun _ => carryOut tools plan : Run σ Summary)
          (world.after (.logged (.entered "run_mutation"))) := by
    rw [Chance.bind_apply, tree_apply]
    dsimp only
    rw [World.tree_after, hplan, Chance.bind_apply, ofExcept_ok_apply]
  rcases hrest : (opening >>= fun _ => carryOut tools plan : Run σ Summary)
    (world.after (.logged (.entered "run_mutation"))) with ⟨result, between⟩
  obtain ⟨world', hrun, hstill⟩ := traced_apply (hbody.trans hrest)
  rw [mutateAfter, hrun]
  exact hstill.toLevel

/--
With a count, splicing a source with its own texts is splicing it with those of its own corpus, by
the same choices.  And where one source only is short enough, a run that takes each source's own
texts leaves the same files, writings and numbers as one that takes the texts of all sources.
-/
theorem selfSplice_agrees_with_splice :
    (∀ (patience : Nat) (harvest : Harvest) (count : Int) (stall : StallLimit), 1 ≤ count →
      Splice.fromSelf (σ := σ) patience harvest count stall
        = Splice.fromOwn patience harvest count stall) ∧
    ∀ (tools : Toolchain) (settings : Settings) {opening : Run σ Unit} {tree : GroundedTree}
      {plan : Plan} {path : Path} {text : String}, Opening settings opening →
      (settings.inMode .splice).check tree = .ok plan →
      OneSource (tree.withDirectory plan.outputDirectory) plan path text →
      ∀ (chance : σ) (grammars : Grammars),
        (mutateAfter opening tools (settings.inMode .selfSplice)
            (World.fresh tree chance grammars)).2.Level
          (mutateAfter opening tools (settings.inMode .splice)
            (World.fresh tree chance grammars)).2 := by
  refine ⟨fun patience harvest count stall hcount =>
    Splice.fromSelf_eq_fromOwn hcount patience harvest stall, ?_⟩
  intro tools settings opening tree plan path text hopening hplan hone chance grammars
  -- Both runs have the same plan but for the mode.
  obtain ⟨hmode, hcount, hlines, hown⟩ := Settings.check_inMode hplan
  let start := World.fresh tree chance grammars
  have hfirst := level_mutateAfter tools opening start hown
  have hsecond := level_mutateAfter tools opening start hplan
  refine hfirst.symm.trans (.trans ?_ hsecond)
  rw [Chance.bind_apply, Chance.bind_apply]
  rcases hopened : opening (start.after (.logged (.entered "run_mutation")))
    with ⟨stop | ⟨⟩, opened⟩
  · exact .refl opened
  · -- An opening leaves the files alone.
    have hsame : opened.tree = tree := (hopening.respects World.tolerant_sameTree).of_run hopened
    exact carryOut_inMode hmode hcount hlines (hsame ▸ tree.grounded) (hsame ▸ hone)

end Run

/-! ### A run with one short source -/

namespace Run

/-- The source `a b`, and one of three empty lines. -/
def shortAndLongTree : GroundedTree where
  workDirectory := ["w"]
  entries := ⟨[(["w"], .directory), (["w", "in"], .directory),
    (["w", "in", "a.rs"], .file [0x61, 0x20, 0x62]),
    (["w", "in", "z.rs"], .file [0x0A, 0x0A, 0x0A])]⟩
  grounded := by decide

/-- One splice of each source in `in` that has less than two lines, written to `out`. -/
def shortSplices : Settings := { selfSplices with count := .int 1, maxLines := .int 2 }

/-- What these settings ask for where the texts of all sources are taken. -/
def shortSplicesPlan : Plan where
  inputDirectory := ⟨.relative, ["in"]⟩
  outputDirectory := ⟨.relative, ["out"]⟩
  mode := .splice
  count := 1
  language := .rust
  maxLines := 2
  stallLimit := some 100
  stallText := "100"
  ignorePatterns := []

/-- The world after a run in a mode, by the first identifier and then the second one's text. -/
def shortSplicesWorld (mode : Mode) : World Script :=
  (mutate { twoNamesTools with patience := 1 } (shortSplices.inMode mode)
    (World.fresh shortAndLongTree ⟨[0, 2]⟩ .empty)).2

/-- Of a short source and a long one, the short one is the only one that counts. -/
theorem oneSource_shortAndLong :
    OneSource (shortAndLongTree.withDirectory ⟨.relative, ["out"]⟩) shortSplicesPlan
      ⟨.relative, ["in", "a.rs"]⟩ "a b" := by
  have hrules : shortSplicesPlan.rules = .ok ⟨[".rs"], []⟩ := rfl
  have hmade : shortAndLongTree.withDirectory ⟨.relative, ["out"]⟩
      = { shortAndLongTree.toFileTree with
          entries := ⟨shortAndLongTree.entries.entries ++ [(["w", "out"], .directory)]⟩ } := rfl
  have hfiles : (shortAndLongTree.withDirectory ⟨.relative, ["out"]⟩).sourceFiles
      ⟨.relative, ["in"]⟩ ⟨[".rs"], []⟩
        = [⟨.relative, ["in", "a.rs"]⟩, ⟨.relative, ["in", "z.rs"]⟩] := by decide +kernel
  have hlong : (shortAndLongTree.withDirectory ⟨.relative, ["out"]⟩).TooLong 2
      ⟨.relative, ["in", "z.rs"]⟩ :=
    ⟨"\n\n\n", ⟨[0x0A, 0x0A, 0x0A], rfl, Utf8.decode_eq_ok_iff.mpr (by decide)⟩, by decide +kernel⟩
  refine ⟨?_, ?_, by decide +kernel, ?_⟩
  -- The other file is too long.
  · intro rules h
    cases hrules.symm.trans h
    exact ⟨[], [_], hfiles, fun other hmem => List.mem_singleton.mp hmem ▸ hlong⟩
  · exact ⟨[0x61, 0x20, 0x62], rfl, Utf8.decode_eq_ok_iff.mpr (by decide)⟩
  · intro rules h
    cases hrules.symm.trans h
    have hplace : (shortAndLongTree.withDirectory ⟨.relative, ["out"]⟩).locate
        ⟨.relative, ["out"]⟩ = .ok ["w", "out"] := rfl
    apply FileTree.outside_of_locate hplace
    · intro name target
      rw [hmade]
      simp [FileTree.entry?, Ledger.get?, shortAndLongTree]
    · intro file hmem
      rw [show shortSplicesPlan.inputDirectory = ⟨.relative, ["in"]⟩ from rfl, hfiles] at hmem
      rcases List.mem_cons.mp hmem with rfl | hmem
      · exact ⟨["w", "in", "a.rs"], rfl, by decide⟩
      · cases List.mem_singleton.mp hmem
        exact ⟨["w", "in", "z.rs"], rfl, by decide⟩

/-- The run writes `b b` in both modes, and the pass draws alike from any script. -/
theorem shortSplices_agree :
    OneSource (shortAndLongTree.withDirectory ⟨.relative, ["out"]⟩) shortSplicesPlan
        ⟨.relative, ["in", "a.rs"]⟩ "a b" ∧
      (shortSplicesWorld .selfSplice).Level (shortSplicesWorld .splice) ∧
      (shortSplicesWorld .splice).writings
        = [(⟨.relative, ["out", "mut_a.rs_1.rs"]⟩, [0x62, 0x20, 0x62])] ∧
      Splice.fromSelf (σ := Script) 4 accented 2 (some 1)
        = Splice.fromOwn 4 accented 2 (some 1) := by
  have hplan : (shortSplices.inMode .splice).check shortAndLongTree = .ok shortSplicesPlan := rfl
  obtain ⟨hpasses, hruns⟩ := selfSplice_agrees_with_splice (σ := Script)
  have hlevel := hruns { twoNamesTools with patience := 1 } shortSplices .given hplan
    oneSource_shortAndLong ⟨[0, 2]⟩ .empty
  exact ⟨oneSource_shortAndLong, hlevel, by decide +kernel, hpasses 4 _ 2 (some 1) (by decide)⟩

end Run

end SourceMutation
