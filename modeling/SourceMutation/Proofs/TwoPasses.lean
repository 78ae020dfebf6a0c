import SourceMutation.Proofs.Corpora
import SourceMutation.Proofs.Harvesting
import SourceMutation.Proofs.Likeness
import SourceMutation.Proofs.Plans
import SourceMutation.Proofs.Yields

/-!
# The two passes over the sources

A run with a shared corpus goes through its sources twice: to build the corpus, and to mutate them.
Both passes go through the sources of one scan.  A source that is too long leaves nothing
but lines in the log, in either pass (`Run.addFile_of_tooLong`, `Run.mutateFile_of_tooLong`), and a
source that is short enough is harvested to the same, however often that is done
(`Run.harvestText_apply`, `Grammars.serves_kept`).

## Worlds before and after

Steps are told by how much of the world they leave as it was.

- They leave it level if the files, the numbers and what was written are the same (`World.Level`).
- They leave it still if the grammars are the same as well (`World.Still`).
- They leave it untouched if nothing was handed over either (`World.Untouched`).
-/

namespace SourceMutation

variable {σ : Type}

/-! ## Worlds that are level -/

namespace World

/-- Whether two worlds have the same files and numbers, and the same was written in both. -/
structure Level (first second : World σ) : Prop where
  tree : first.tree = second.tree
  chance : first.chance = second.chance
  writings : first.writings = second.writings

theorem Level.refl (world : World σ) : world.Level world := ⟨rfl, rfl, rfl⟩

theorem Level.symm {first second : World σ} (h : first.Level second) : second.Level first :=
  ⟨h.tree.symm, h.chance.symm, h.writings.symm⟩

theorem Level.trans {first second third : World σ} (h : first.Level second)
    (h' : second.Level third) : first.Level third :=
  ⟨h.tree.trans h'.tree, h.chance.trans h'.chance, h.writings.trans h'.writings⟩

/-- Worlds that are level have the same files and numbers. -/
theorem indistinct_level : Indistinct (Level (σ := σ)) where
  tree h := h.tree
  chance h := h.chance
  after h event := ⟨h.tree, h.chance, by rw [writings_after, writings_after, h.writings]⟩
  withTree h _ := ⟨rfl, h.chance, h.writings⟩
  withChance h _ := ⟨h.tree, rfl, h.writings⟩

theorem level_loaded (world : World σ) (grammars : Grammars) :
    world.Level { world with grammars } := ⟨rfl, rfl, rfl⟩

/-- Whether two worlds are level, and no grammars were loaded in between. -/
structure Still (first second : World σ) : Prop extends first.Level second where
  grammars : second.grammars = first.grammars

theorem Still.refl (world : World σ) : world.Still world := ⟨.refl world, rfl⟩

theorem Still.trans {first second third : World σ} (h : first.Still second)
    (h' : second.Still third) : first.Still third :=
  ⟨h.toLevel.trans h'.toLevel, h'.grammars.trans h.grammars⟩

/-- What does not write leaves a world still. -/
theorem still_after {event : Event} (h : event.written? = none) (world : World σ) :
    world.Still (world.after event) :=
  ⟨⟨rfl, rfl, by rw [writings_after, h, Option.toList_none, List.append_nil]⟩, rfl⟩

theorem still_logged (world : World σ) (line : LogLine) :
    world.Still (world.after (.logged line)) := still_after rfl world

/-- Lines of the log leave a world still. -/
theorem still_afterLines (world : World σ) (lines : List LogLine) :
    world.Still (world.afterLines lines) := by
  induction lines generalizing world with
  | nil => exact .refl world
  | cons line rest ih => exact (world.still_logged line).trans (ih (world.after (.logged line)))

/-- Whether two worlds are still, and nothing was handed over in between. -/
structure Untouched (first second : World σ) : Prop extends first.Still second where
  acceptances : second.acceptances = first.acceptances

theorem Untouched.refl (world : World σ) : world.Untouched world := ⟨.refl world, rfl⟩

theorem Untouched.trans {first second third : World σ} (h : first.Untouched second)
    (h' : second.Untouched third) : first.Untouched third :=
  ⟨h.toStill.trans h'.toStill, h'.acceptances.trans h.acceptances⟩

/-- What neither hands over nor writes leaves a world untouched. -/
theorem untouched_after {event : Event} (hhanded : event.accepted? = none)
    (hwritten : event.written? = none) (world : World σ) : world.Untouched (world.after event) :=
  ⟨still_after hwritten world, (quiet_after hhanded hwritten world).1⟩

theorem untouched_logged (world : World σ) (line : LogLine) :
    world.Untouched (world.after (.logged line)) := untouched_after rfl rfl world

/-- Lines of the log leave a world untouched. -/
theorem untouched_afterLines (world : World σ) (lines : List LogLine) :
    world.Untouched (world.afterLines lines) := by
  induction lines generalizing world with
  | nil => exact .refl world
  | cons line rest ih => exact (world.untouched_logged line).trans (ih (world.after (.logged line)))

end World

/-! ## Harvesting twice

The second pass finds the parser that the first one has loaded.  What was harvested once is
harvested again, although the grammars are no longer those from the beginning.
-/

namespace Grammars

variable {installed : Language → Bool} {language : Language} {kept : Grammars}

/-- Something is found for a language once an entry was put behind the others. -/
theorem lookup_concat_isSome (language : Language) (handle : Handle)
    (loaded : List (Language × Handle)) :
    (List.lookup language (loaded ++ [(language, handle)])).isSome := by
  rw [List.lookup_append, Option.isSome_or, List.lookup_cons_self, Option.isSome_some,
    Bool.or_true]

/-- Whether a parser that can be loaded with some grammars can be loaded with others as well. -/
def Serves (installed : Language → Bool) (language : Language) (first second : Grammars) : Prop :=
  ∀ handle, (parser installed language first).answer = .ok handle →
    ∃ again, (parser installed language second).answer = .ok again

theorem Serves.refl (installed : Language → Bool) (language : Language) (kept : Grammars) :
    Serves installed language kept kept := fun handle h => ⟨handle, h⟩

/-- Grammars serve as well as those from which they are reached in two steps. -/
theorem Serves.trans {first second third : Grammars} (h : Serves installed language first second)
    (h' : Serves installed language second third) : Serves installed language first third := by
  intro handle hhandle
  obtain ⟨again, hagain⟩ := h handle hhandle
  exact h' again hagain

/-- A parser that could be loaded is there when it is asked for again. -/
theorem serves_kept (installed : Language → Bool) (language : Language) (kept : Grammars) :
    Serves installed language kept (parser installed language kept).kept := by
  -- A parser that is kept is answered whatever else there is.
  have hthere : ∀ kept : Grammars, (List.lookup language kept.parsers).isSome →
      ∃ again, (parser installed language kept).answer = .ok again := by
    intro kept hsome
    obtain ⟨again, hagain⟩ := Option.isSome_iff_exists.mp hsome
    exact ⟨again, by rw [parser, hagain]⟩
  intro handle h
  apply hthere
  rw [parser] at h ⊢
  cases hlookup : List.lookup language kept.parsers with
  | some found => simp [hlookup]
  | none =>
    rw [hlookup] at h
    dsimp only [makeParser] at h ⊢
    cases hloaded : (grammar installed language kept).answer with
    | error failure =>
      rw [hloaded] at h
      cases h
    -- The parser is made of its grammar, and is kept from now on.
    | ok grammar => exact lookup_concat_isSome ..

end Grammars

/-- What the parser of a language makes of a text. -/
def Toolchain.parsed (tools : Toolchain) (language : Language) (path : Path) (text : String) :
    Except Failure Harvest :=
  Harvest.ofParse (Utf8.encode text) language.name (some path.text)
    (tools.parse language (Utf8.encode text))

/-- What harvesting a text comes to, by the grammars that are loaded. -/
def Toolchain.harvestOf (tools : Toolchain) (language : Language) (path : Path) (text : String)
    (grammars : Grammars) : Except Stop Harvest :=
  match (Grammars.parser tools.installed language grammars).answer with
  | .error failure => .error (.failed failure)
  | .ok _ => (tools.parsed language path text).mapError .failed

/-- A harvest is what the parser made of the text. -/
theorem Toolchain.parsed_of_harvestOf {tools : Toolchain} {language : Language} {path : Path}
    {text : String} {grammars : Grammars} {found : Harvest}
    (h : tools.harvestOf language path text grammars = .ok found) :
    tools.parsed language path text = .ok found := by
  rw [harvestOf] at h
  split at h
  case h_1 => cases h
  case h_2 => exact mapError_eq_ok.mp h

/-- What is harvested with some grammars is harvested with others that serve as well. -/
theorem Toolchain.harvestOf_of_serves {tools : Toolchain} {language : Language} {path : Path}
    {text : String} {grammars others : Grammars} {found : Harvest}
    (hserves : Grammars.Serves tools.installed language grammars others)
    (h : tools.harvestOf language path text grammars = .ok found) :
    tools.harvestOf language path text others = .ok found := by
  rw [harvestOf] at h ⊢
  cases hanswer : (Grammars.parser tools.installed language grammars).answer with
  | error failure =>
    rw [hanswer] at h
    cases h
  | ok handle =>
    obtain ⟨again, hagain⟩ := hserves handle hanswer
    rw [hanswer] at h
    rw [hagain]
    exact h

namespace Run

/-- A text is harvested by the grammars that are there, and its parser is kept then. -/
theorem harvestText_apply (tools : Toolchain) (language : Language) (path : Path) (text : String)
    (world : World σ) :
    ∃ world', (harvestText tools text language path : Run σ Harvest) world
        = (tools.harvestOf language path text world.grammars, world') ∧
      world.Level world' ∧
      world'.grammars = (Grammars.parser tools.installed language world.grammars).kept := by
  let loaded : World σ :=
    { world with grammars := (Grammars.parser tools.installed language world.grammars).kept }
  -- Past the loading of the parser, a harvest can only add lines to the log.
  suffices hlines : ∃ lines, (harvestText tools text language path : Run σ Harvest) world
      = (tools.harvestOf language path text world.grammars, loaded.afterLines lines) by
    obtain ⟨lines, hrun⟩ := hlines
    have hstill := loaded.still_afterLines lines
    exact ⟨_, hrun, (world.level_loaded _).trans hstill.toLevel, hstill.grammars⟩
  rw [harvestText, harvest, Grammars.checkLanguage_name, Chance.bind_apply, loadParser_apply,
    Grammars.askParser_name, Toolchain.harvestOf, Toolchain.parsed]
  cases (Grammars.parser tools.installed language world.grammars).answer with
  | error failure => exact ⟨_, rfl⟩
  | ok handle =>
    dsimp only
    rw [Chance.bind_apply, ofExcept_ok_apply]
    dsimp only
    cases Harvest.ofParse (Utf8.encode text) language.name (some path.text)
        (tools.parse language (Utf8.encode text)) with
    | error failure => exact ⟨_, rfl⟩
    | ok found =>
      rw [Chance.bind_apply, ofExcept_ok_apply]
      dsimp only
      split
      · rw [log_bind_apply, World.after_afterLines]
        exact ⟨_, rfl⟩
      · exact ⟨_, rfl⟩

end Run

/-! ## Sources by their length -/

/-- Whether a path leads to a file with a text. -/
def FileTree.HasText (tree : FileTree) (path : Path) (text : String) : Prop :=
  ∃ bytes, tree.read path = .ok bytes ∧ Utf8.decode bytes = .ok text

/-- Whether a path leads to a text that is too long. -/
def FileTree.TooLong (tree : FileTree) (maxLines : Nat) (path : Path) : Prop :=
  ∃ text, tree.HasText path text ∧ Lines.within text maxLines = false

/-- The files among what a scan of a directory met. -/
def filesOf (directory : Path) (visits : List Visit) : List Path :=
  visits.filterMap fun visit => visit.file?.map directory.below

/-- What is met and is no file adds none. -/
theorem filesOf_cons_of_none {directory : Path} {visit : Visit} (h : visit.file? = none)
    (rest : List Visit) : filesOf directory (visit :: rest) = filesOf directory rest := by
  simp [filesOf, h]

/-- A file that is met is the first one. -/
theorem filesOf_cons_of_some {directory : Path} {visit : Visit} {names : List String}
    (h : visit.file? = some names) (rest : List Visit) :
    filesOf directory (visit :: rest) = directory.below names :: filesOf directory rest := by
  simp [filesOf, h]

namespace FileTree

/-- The files once there is a directory, which is made unless something stands there. -/
def withDirectory (tree : FileTree) (directory : Path) : FileTree :=
  match tree.isPresent directory with
  | .ok false => (tree.ensureDirectories directory).2
  | _ => tree

/-- A tree with a directory has no more than directories besides. -/
theorem makesDirectories_withDirectory (tree : FileTree) (directory : Path) :
    tree.MakesDirectories (tree.withDirectory directory) := by
  rw [withDirectory]
  split
  · exact makesDirectories_ensureDirectories tree directory
  · exact .refl tree

/-- A tree with a directory is grounded if the tree was. -/
theorem grounded_withDirectory {tree : FileTree} (h : tree.Grounded) (directory : Path) :
    (tree.withDirectory directory).Grounded :=
  (makesDirectories_withDirectory tree directory).grounded h

/-- A tree with a directory keeps what the tree had. -/
theorem keeps_withDirectory (tree : FileTree) (directory : Path) :
    tree.Keeps (tree.withDirectory directory) :=
  (makesDirectories_withDirectory tree directory).keeps

end FileTree

namespace Run

variable {tools : Toolchain} {language : Language} {maxLines used : Nat} {directory path : Path}
  {text : String} {corpus : Corpus} {met : List Visit} {world : World σ}

/-- A source with a text is read, which leaves the world untouched. -/
theorem readSource_of_hasText (h : world.tree.HasText path text) :
    ∃ world', (readSource path : Run σ String) world = (.ok text, world') ∧
      world.Untouched world' := by
  obtain ⟨bytes, hread, hdecode⟩ := h
  refine ⟨world.after (.read path bytes), ?_, World.untouched_after rfl rfl world⟩
  rw [readSource_apply, hread]
  dsimp only
  rw [hdecode]

/-! ### The corpus pass -/

/-- A source that is too long adds nothing to a corpus. -/
theorem addFile_of_tooLong (tools : Toolchain) (language : Language) (corpus : Corpus)
    (h : world.tree.TooLong maxLines path) :
    ∃ world', addFile tools language maxLines path corpus world = (.ok (false, corpus), world') ∧
      world.Untouched world' := by
  obtain ⟨text, htext, hlong⟩ := h
  obtain ⟨between, hread, hsame⟩ := readSource_of_hasText htext
  rw [addFile, Chance.bind_apply, hread]
  dsimp only
  rw [hlong]
  exact ⟨_, rfl, hsame.trans (between.untouched_logged _)⟩

/-- What adding a harvest to a corpus comes to, if there is one. -/
def joined (corpus : Corpus) : Except Stop Harvest → Except Stop Corpus
  | .error stop => .error stop
  | .ok found =>
    match corpus.addSource found with
    | (.error failure, _) => .error (.failed failure)
    | (.ok _, corpus) => .ok corpus

/-- A harvest makes its own corpus of the empty one. -/
theorem joined_empty (found : Harvest) :
    joined .empty (.ok found) = (Corpus.ofSource found).mapError .failed := by
  rw [joined, Corpus.ofSource]
  rcases Corpus.empty.addSource found with ⟨failure | added, corpus⟩ <;> rfl

/-- A source that is short enough adds its harvest to a corpus. -/
theorem addFile_of_within (tools : Toolchain) (language : Language) (corpus : Corpus)
    (htext : world.tree.HasText path text) (hwithin : Lines.within text maxLines = true) :
    ∃ world', addFile tools language maxLines path corpus world
        = ((joined corpus (tools.harvestOf language path text world.grammars)).map (true, ·),
          world') ∧
      world.Level world' ∧
      world'.grammars = (Grammars.parser tools.installed language world.grammars).kept := by
  obtain ⟨first, hread, hstill⟩ := readSource_of_hasText htext
  obtain ⟨harvested, hharvest, hlevel, hkept⟩ :=
    harvestText_apply tools language path text first
  rw [hstill.grammars] at hharvest hkept
  have hharvested : world.Level harvested := hstill.toLevel.trans hlevel
  rw [addFile, Chance.bind_apply, hread]
  dsimp only
  rw [hwithin, if_pos rfl, Chance.bind_apply, hharvest]
  cases tools.harvestOf language path text world.grammars with
  | error stop => exact ⟨_, rfl, hharvested, hkept⟩
  | ok found =>
    simp only [joined]
    -- A line is logged once the source was added, and nothing is if it could not be.
    rcases corpus.addSource found with ⟨failure | added, after⟩
    · exact ⟨_, rfl, hharvested, hkept⟩
    · exact ⟨_, rfl, hharvested.trans (harvested.still_logged _).toLevel, hkept⟩

/-- Sources that are all too long leave a corpus as it is. -/
theorem addVisits_of_tooLong (tools : Toolchain) (language : Language) (used : Nat)
    (corpus : Corpus) (h : ∀ path ∈ filesOf directory met, world.tree.TooLong maxLines path) :
    ∃ world', addVisits tools language maxLines directory met used corpus world
        = (.ok (used, corpus), world') ∧ world.Untouched world' := by
  induction met generalizing world with
  | nil => exact ⟨world, rfl, .refl world⟩
  | cons visit rest ih =>
    rw [addVisits, logAll_bind_apply]
    have hlogged := world.untouched_afterLines (visitLine? visit).toList
    rw [hlogged.tree] at h
    generalize world.afterLines (visitLine? visit).toList = logged at h hlogged ⊢
    cases hfile : visit.file? with
    -- What is no file is only logged.
    | none =>
      rw [filesOf_cons_of_none hfile] at h
      obtain ⟨world', hrun, hrest⟩ := ih h
      exact ⟨world', hrun, hlogged.trans hrest⟩
    | some names =>
      rw [filesOf_cons_of_some hfile] at h
      obtain ⟨hlong, hothers⟩ := List.forall_mem_cons.mp h
      obtain ⟨between, hadd, hstill⟩ := addFile_of_tooLong tools language corpus hlong
      rw [hstill.tree] at hothers
      obtain ⟨world', hrun, hrest⟩ := ih hothers
      refine ⟨world', ?_, hlogged.trans (hstill.trans hrest)⟩
      dsimp only
      rw [Chance.bind_apply, hadd]
      exact hrun

/-- Among sources that are too long, one that is not makes the corpus. -/
theorem addVisits_of_one (tools : Toolchain) (language : Language) (used : Nat) (corpus : Corpus)
    {earlier later : List Path}
    (hfiles : filesOf directory met = earlier ++ path :: later)
    (hearlier : ∀ other ∈ earlier, world.tree.TooLong maxLines other)
    (hlater : ∀ other ∈ later, world.tree.TooLong maxLines other)
    (htext : world.tree.HasText path text) (hwithin : Lines.within text maxLines = true) :
    ∃ world', addVisits tools language maxLines directory met used corpus world
        = ((joined corpus (tools.harvestOf language path text world.grammars)).map (used + 1, ·),
          world') ∧
      world.Level world' ∧
      world'.grammars = (Grammars.parser tools.installed language world.grammars).kept := by
  induction met generalizing world earlier with
  | nil => simp [filesOf] at hfiles
  | cons visit rest ih =>
    rw [addVisits, logAll_bind_apply]
    have hlogged := world.still_afterLines (visitLine? visit).toList
    rw [hlogged.tree] at hearlier hlater htext
    rw [← hlogged.grammars]
    generalize world.afterLines (visitLine? visit).toList = logged at hearlier hlater htext hlogged ⊢
    cases hfile : visit.file? with
    | none =>
      rw [filesOf_cons_of_none hfile] at hfiles
      obtain ⟨world', hrun, hlevel, hkept⟩ := ih hfiles hearlier hlater htext
      exact ⟨world', hrun, hlogged.toLevel.trans hlevel, hkept⟩
    | some names =>
      rw [filesOf_cons_of_some hfile] at hfiles
      dsimp only
      cases earlier with
      | nil =>
        -- This is the source: whatever follows it adds nothing.
        obtain ⟨rfl, rfl⟩ := List.cons.inj hfiles
        obtain ⟨between, hadd, hlevel, hkept⟩ :=
          addFile_of_within tools language corpus htext hwithin
        rw [hlevel.tree] at hlater
        rw [Chance.bind_apply, hadd]
        cases joined corpus (tools.harvestOf language (directory.below names) text
            logged.grammars) with
        | error stop => exact ⟨between, rfl, hlogged.toLevel.trans hlevel, hkept⟩
        | ok both =>
          obtain ⟨world', hrun, hrest⟩ :=
            addVisits_of_tooLong tools language (used + 1) both hlater
          exact ⟨world', hrun, hlogged.toLevel.trans (hlevel.trans hrest.toLevel),
            hrest.grammars.trans hkept⟩
      | cons other earlier =>
        rw [List.cons_append] at hfiles
        obtain ⟨rfl, hrest⟩ := List.cons.inj hfiles
        obtain ⟨hlong, hothers⟩ := List.forall_mem_cons.mp hearlier
        obtain ⟨between, hadd, hstill⟩ := addFile_of_tooLong tools language corpus hlong
        rw [hstill.tree] at hothers hlater htext
        obtain ⟨world', hrun, hlevel, hkept⟩ := ih hrest hothers hlater htext
        rw [hstill.grammars] at hrun hkept
        refine ⟨world', ?_, hlogged.toLevel.trans (hstill.toLevel.trans hlevel), hkept⟩
        rw [Chance.bind_apply, hadd]
        exact hrun

/-! ### Scans and corpora -/

/-- A traced step comes to what its body comes to, and logs lines. -/
theorem traced_apply {α : Type} {step : String} {body : Run σ α} {result : Except Stop α}
    {between : World σ} (h : body (world.after (.logged (.entered step))) = (result, between)) :
    ∃ world', traced step body world = (result, world') ∧ between.Untouched world' := by
  rw [traced, log_bind_apply, Chance.bind_apply, Chance.tryCatch_apply, h]
  rcases result with (failure | _) | a
  · exact ⟨_, rfl, between.untouched_logged _⟩
  · exact ⟨between, rfl, .refl between⟩
  · exact ⟨_, rfl, between.untouched_logged _⟩

/-- Rules that the settings spell are read, and nothing is touched by that. -/
theorem scanRules_apply {suffixes patterns : Value} {rules : ScanRules}
    (h : ScanRules.ofValues suffixes patterns = .ok rules) (world : World σ) :
    ∃ world', scanRules suffixes patterns world = (.ok rules, world') ∧
      world.Untouched world' := by
  rw [scanRules, h, Chance.bind_apply, ofExcept_ok_apply]
  dsimp only
  split
  · exact ⟨_, rfl, world.untouched_logged _⟩
  · exact ⟨world, rfl, .refl world⟩

/-- A scan that returns has met what its rules say. -/
theorem scan_eq_ok {suffixes patterns : Value} {files : List Path} {world world' : World σ}
    (h : scan directory suffixes patterns world = (.ok files, world')) :
    ∃ rules, ScanRules.ofValues suffixes patterns = .ok rules ∧
      FileTree.unaskable? directory ≠ some .nullCharacter ∧
      files = filesOf directory (world.tree.visits directory rules) ∧
      world.Untouched world' := by
  obtain ⟨rules, first, hrules, hvisits⟩ := Chance.bind_eq_ok.mp h
  have hchecked := scanRules_eq_ok hrules
  obtain ⟨first', hrules', hsame⟩ := scanRules_apply hchecked world
  rw [hrules'] at hrules
  cases hrules
  obtain ⟨met, second, hmet, hfiles⟩ := Chance.bind_eq_ok.mp hvisits
  -- A path that cannot be asked for would have stopped the scan.
  have haskable : FileTree.unaskable? directory ≠ some .nullCharacter := by
    intro hnull
    rw [visits, if_pos hnull] at hmet
    cases hmet
  obtain ⟨rfl, rfl⟩ := visits_eq_ok hmet
  rw [logAll_bind_apply] at hfiles
  cases hfiles
  refine ⟨rules, hchecked, haskable, ?_, hsame.trans (World.untouched_afterLines _ _)⟩
  rw [hsame.tree]
  rfl

/-- A scan meets what the files say. -/
theorem visits_apply (rules : ScanRules)
    (h : FileTree.unaskable? directory ≠ some .nullCharacter) (world : World σ) :
    visits directory rules world = (.ok (world.tree.visits directory rules), world) := by
  rw [visits, if_neg h]
  rfl

/-- A scan by rules that can be read finds what they are after. -/
theorem scan_apply {suffixes patterns : Value} {rules : ScanRules}
    (hrules : ScanRules.ofValues suffixes patterns = .ok rules)
    (haskable : FileTree.unaskable? directory ≠ some .nullCharacter) (world : World σ) :
    ∃ world', scan directory suffixes patterns world
        = (.ok (world.tree.sourceFiles directory rules), world') ∧ world.Untouched world' := by
  obtain ⟨scanned, hscanned, hsame⟩ := scanRules_apply hrules world
  rw [scan, Chance.bind_apply, hscanned]
  dsimp only
  rw [Chance.bind_apply, visits_apply rules haskable, hsame.tree]
  dsimp only
  rw [logAll_bind_apply]
  exact ⟨_, rfl, hsame.trans (World.untouched_afterLines _ _)⟩

/-- The corpus of a directory is what going through the visits of a scan comes to. -/
theorem buildCorpus_apply (tools : Toolchain) {language : Language} {patterns : Value}
    {rules : ScanRules} (hlines : 1 ≤ maxLines)
    (hrules : ScanRules.ofValues (.texts language.suffixes) patterns = .ok rules)
    (haskable : FileTree.unaskable? directory ≠ some .nullCharacter) (world : World σ) :
    ∃ start, world.Untouched start ∧
      ∀ result added,
        addVisits tools language maxLines directory (world.tree.visits directory rules) 0 .empty
          start = (result, added) →
        ∃ world', buildCorpus tools directory (.text language.name) (.int maxLines) patterns world
            = (result.map Prod.snd, world') ∧ added.Untouched world' := by
  have hlimit : Settings.checkMaxLines (.int maxLines) = .ok maxLines := by
    rw [Settings.checkMaxLines, if_neg (by omega), Int.toNat_natCast]
  -- Up to the first visit nothing but lines is logged.
  let announced := (world.after (.logged (.entered "build_corpus"))).after (.logged (.info
    s!"Building {(Value.text language.name).shown} corpus from '{directory.text}'"))
  have hannounced : world.Untouched announced :=
    (world.untouched_logged _).trans (World.untouched_logged _ _)
  obtain ⟨start, hstart, hscanned⟩ := scanRules_apply hrules announced
  have hsame := hannounced.trans hscanned
  have hvisits := visits_apply rules haskable start
  rw [← hsame.tree] at hvisits
  refine ⟨start, hsame, fun result added hadded => ?_⟩
  -- Whether or not the visits are all added, the lines around them touch nothing.
  rcases result with stop | ⟨used, corpus⟩
  · unfold buildCorpus
    apply traced_apply
    simp only [Chance.bind_apply, hlimit, ofExcept_ok_apply, log_apply,
      Grammars.checkLanguage_name, announced, hstart, hvisits, hadded]
    rfl
  · -- After the last visit the corpus is announced.
    let told := added.after (.logged (.info (s!"Corpus built from {used} files: {corpus.size} kinds, "
      ++ s!"{corpus.snippetCount} snippets")))
    have htold : added.Untouched told := added.untouched_logged _
    have hbuilt : ∃ world',
        buildCorpus tools directory (.text language.name) (.int maxLines) patterns world
          = (.ok corpus, world') ∧ told.Untouched world' := by
      unfold buildCorpus
      apply traced_apply
      simp only [Chance.bind_apply, hlimit, ofExcept_ok_apply, log_apply,
        Grammars.checkLanguage_name, announced, hstart, hvisits, hadded]
      rfl
    obtain ⟨world', hrun, hlater⟩ := hbuilt
    exact ⟨world', hrun, htold.trans hlater⟩

/-! ### Up to the pass that mutates -/

section Gathering

variable {tools : Toolchain} {plan : Plan} {files : List Path} {world' : World σ}

/-- Makes the output directory and finds the sources. -/
def survey (plan : Plan) : Run σ (List Path) := do
  ensureOutputDirectory plan.outputDirectory
  scan plan.inputDirectory (.texts plan.language.suffixes) (.texts plan.ignorePatterns)

/-- Making the output directory and scanning look at the files alone. -/
theorem blind_survey {R : World σ → World σ → Prop} (hR : World.Indistinct R) (plan : Plan) :
    Blind R (survey plan : Run σ (List Path)) :=
  blind_bind (blind_ensureOutputDirectory hR _) fun _ => blind_scan hR _ _ _

/-- Apart from the files, making the output directory changes nothing but the log. -/
theorem untouched_ensureOutputDirectory {directory : Path}
    (h : ensureOutputDirectory directory world = (.ok (), world')) :
    World.Untouched { world with tree := world.tree.withDirectory directory } world' := by
  rw [ensureOutputDirectory_apply] at h
  rw [FileTree.withDirectory]
  split at h
  case h_1 => cases h
  -- Something is there already, which counts as a directory here.
  case h_2 hpresent =>
    cases h
    rw [hpresent]
    exact .refl _
  case h_3 habsent =>
    split at h
    case h_1 tree hmade =>
      cases h
      rw [habsent, hmade]
      exact World.untouched_logged _ _
    case h_2 => cases h

/-- A survey that returns found the files that the plan's rules are after. -/
theorem survey_eq_ok (h : survey plan world = (.ok files, world')) :
    world'.tree = world.tree.withDirectory plan.outputDirectory ∧
      world'.grammars = world.grammars ∧
      ∃ rules, plan.rules = .ok rules ∧
        FileTree.unaskable? plan.inputDirectory ≠ some .nullCharacter ∧
        files = filesOf plan.inputDirectory (world'.tree.visits plan.inputDirectory rules) := by
  obtain ⟨⟨⟩, made, hmade, hscan⟩ := Chance.bind_eq_ok.mp h
  obtain ⟨rules, hrules, haskable, hfiles, hstill⟩ := scan_eq_ok hscan
  have hsame := (untouched_ensureOutputDirectory hmade).trans hstill
  rw [hstill.tree] at hfiles
  exact ⟨hsame.tree.symm, hsame.grammars, rules, hrules, haskable, hfiles⟩

/-- Once the sources were found, the output directory is there. -/
theorem locate_of_survey (h : survey plan world = (.ok files, world')) :
    ∃ place, world'.tree.locate plan.outputDirectory = .ok place ∧
      (world'.tree.entry? place).isSome := by
  obtain ⟨⟨⟩, made, hmade, hscan⟩ := Chance.bind_eq_ok.mp h
  have hsame : world'.tree = made.tree :=
    (respects_scan World.tolerant_sameTree _ _ _).of_run hscan
  rw [hsame]
  exact locate_of_ensureOutputDirectory hmade

/-- What is gathered is surveyed first. -/
theorem gather_eq (tools : Toolchain) (plan : Plan) :
    (gather tools plan : Run σ _) = survey plan >>= fun files =>
      planCorpus tools plan >>= fun corpus => pure (files, corpus) := by
  rw [gather, survey, bind_assoc]

/-- What stops the survey stops the gathering. -/
theorem gather_of_stop {stop : Stop} (h : survey plan world = (.error stop, world')) :
    gather tools plan world = (.error stop, world') := by
  rw [gather_eq, Chance.bind_apply, h]

/-- What is gathered are the files of the survey and the corpus that the plan needs. -/
theorem gather_of_survey (tools : Toolchain) (h : survey plan world = (.ok files, world')) :
    gather tools plan world
      = ((planCorpus tools plan world').1.map (files, ·), (planCorpus tools plan world').2) := by
  rw [gather_eq, Chance.bind_apply, h]
  dsimp only
  rw [Chance.bind_apply]
  rcases planCorpus tools plan world' with ⟨stop | corpus, between⟩ <;> rfl

/-- Without a shared corpus, nothing but the files is gathered. -/
theorem gather_of_not_shared (hshared : plan.mode.usesSharedCorpus = false) (world : World σ) :
    gather tools plan world
      = ((survey plan world).1.map (·, none), (survey plan world).2) := by
  rcases hsurvey : survey plan world with ⟨stop | found, made⟩
  · rw [gather_of_stop hsurvey]
    rfl
  · rw [gather_of_survey tools hsurvey, planCorpus, if_neg (Bool.eq_false_iff.mp hshared)]
    rfl

/-- What is gathered are the files that a scan is after once there is an output directory. -/
theorem gather_finds {corpus : Option Corpus}
    (h : gather tools plan world = (.ok (files, corpus), world')) :
    world'.tree = world.tree.withDirectory plan.outputDirectory ∧
      ∃ rules, plan.rules = .ok rules ∧
        FileTree.unaskable? plan.inputDirectory ≠ some .nullCharacter ∧
        files = world'.tree.sourceFiles plan.inputDirectory rules := by
  rcases hsurvey : survey plan world with ⟨stop | found, made⟩
  · cases h.symm.trans (gather_of_stop hsurvey)
  · obtain ⟨htree, -, rules, hrules, haskable, rfl⟩ := survey_eq_ok hsurvey
    have hgathered := h.symm.trans (gather_of_survey tools hsurvey)
    -- Building a corpus only reads.
    have hsame : (planCorpus tools plan made).2.tree = made.tree :=
      respects_planCorpus World.tolerant_sameTree (fun _ _ _ _ => rfl) made
    have hworld : world' = (planCorpus tools plan made).2 := congrArg Prod.snd hgathered
    rw [← hworld] at hsame
    rw [hsame]
    cases hcorpus : (planCorpus tools plan made).1 with
    | error stop =>
      rw [hcorpus] at hgathered
      cases hgathered
    | ok built =>
      rw [hcorpus] at hgathered
      cases congrArg Prod.fst hgathered
      exact ⟨htree, rules, hrules, haskable, rfl⟩

/-- A plan with a shared corpus has the one that is built from its input. -/
theorem planCorpus_of_shared (hshared : plan.mode.usesSharedCorpus = true)
    {result : Except Stop Corpus}
    (h : buildCorpus tools plan.inputDirectory (.text plan.language.name) (.int plan.maxLines)
      (.texts plan.ignorePatterns) world = (result, world')) :
    planCorpus tools plan world = (result.map some, world') := by
  rw [planCorpus, if_pos hshared, map_eq_pure_bind, Chance.bind_apply, h]
  cases result <;> rfl

end Gathering

/-! ### The pass that mutates -/

section Mutating

variable [Chooser σ] {plan : Plan} {shared : Option Corpus}

/-- A file with a text is mutated as the text is. -/
theorem mutateFile_of_hasText (tools : Toolchain) (plan : Plan) (shared : Option Corpus)
    (h : world.tree.HasText path text) :
    ∃ read, world.Untouched read ∧
      mutateFile tools plan shared path world = mutateText tools plan shared path text read := by
  let named := world.after (.logged (.info s!"filename : {path.name}"))
  have hnamed : named.tree.HasText path text := h
  obtain ⟨read, hread, hsame⟩ := readSource_of_hasText hnamed
  refine ⟨read, (world.untouched_logged _).trans hsame, ?_⟩
  rw [mutateFile, log_bind_apply, Chance.bind_apply, hread]

/-- What is reported of a source that is passed over. -/
def skippedReport (maxLines : Nat) (path : Path) : SourceReport :=
  { path := path.text, skipped := true, skipReason := some (tooLong maxLines) }

/-- A source that is too long is passed over. -/
theorem mutateFile_of_tooLong (tools : Toolchain) (shared : Option Corpus)
    (h : world.tree.TooLong plan.maxLines path) :
    ∃ world', mutateFile tools plan shared path world
        = (.ok (skippedReport plan.maxLines path), world') ∧ world.Untouched world' := by
  obtain ⟨text, htext, hlong⟩ := h
  obtain ⟨read, hsame, hfile⟩ := mutateFile_of_hasText tools plan shared htext
  rw [hfile, mutateText_of_not_within hlong, log_bind_apply]
  exact ⟨_, rfl, hsame.trans (read.untouched_logged _)⟩

/-- Sources that are all too long are passed over. -/
theorem mutateFiles_of_tooLong (tools : Toolchain) (shared : Option Corpus) {paths : List Path}
    (h : ∀ path ∈ paths, world.tree.TooLong plan.maxLines path) :
    ∃ reports world', mutateFiles tools plan shared paths world = (.ok reports, world') ∧
      world.Untouched world' := by
  induction paths generalizing world with
  | nil => exact ⟨[], world, rfl, .refl world⟩
  | cons path rest ih =>
    obtain ⟨hlong, hothers⟩ := List.forall_mem_cons.mp h
    obtain ⟨between, hfile, hsame⟩ := mutateFile_of_tooLong tools shared hlong
    rw [hsame.tree] at hothers
    obtain ⟨reports, world', hfiles, hrest⟩ := ih hothers
    -- Each file has a report that it was skipped.
    refine ⟨skippedReport plan.maxLines path :: reports, world', ?_, hsame.trans hrest⟩
    rw [mutateFiles, Chance.bind_apply, hfile]
    dsimp only
    rw [Chance.bind_apply, hfiles]
    rfl

/-- Among sources that are too long, one that is not decides what the pass comes to. -/
theorem mutateFiles_of_one (tools : Toolchain) (shared : Option Corpus) (path : Path)
    (later : List Path) {earlier : List Path}
    (hearlier : ∀ other ∈ earlier, world.tree.TooLong plan.maxLines other) :
    ∃ first, world.Still first ∧
      ∀ result second, mutateFile tools plan shared path first = (result, second) →
        (∀ report, result = .ok report → ∀ other ∈ later, second.tree.TooLong plan.maxLines other) →
        second.Level (mutateFiles tools plan shared (earlier ++ path :: later) world).2 := by
  induction earlier generalizing world with
  -- The source is the first one, and those behind it are passed over.
  | nil =>
    refine ⟨world, .refl world, fun result second hfile hlater => ?_⟩
    rw [List.nil_append, mutateFiles, Chance.bind_apply, hfile]
    cases result with
    | error stop => exact .refl second
    | ok report =>
      obtain ⟨reports, world', hfiles, hstill⟩ :=
        mutateFiles_of_tooLong tools shared (hlater report rfl)
      dsimp only
      rw [Chance.bind_apply, hfiles]
      exact hstill.toLevel
  | cons other earlier ih =>
    obtain ⟨hlong, hothers⟩ := List.forall_mem_cons.mp hearlier
    obtain ⟨between, hfile, hstill⟩ := mutateFile_of_tooLong tools shared hlong
    rw [hstill.tree] at hothers
    obtain ⟨first, hrest, hone⟩ := ih hothers
    refine ⟨first, hstill.toStill.trans hrest, fun result second hpath hlater => ?_⟩
    have hrest := hone result second hpath hlater
    rw [List.cons_append, mutateFiles, Chance.bind_apply, hfile]
    dsimp only
    rw [Chance.bind_apply]
    -- The report of the source passed over is all that is put before the others.
    rcases hfiles : mutateFiles tools plan shared (earlier ++ path :: later) between
      with ⟨stop | reports, world'⟩ <;>
    · rw [hfiles] at hrest
      exact hrest

/-- A source that is short enough is harvested, and its harvest is mutated. -/
theorem mutateFile_of_within (tools : Toolchain) (shared : Option Corpus)
    (htext : world.tree.HasText path text) (hwithin : Lines.within text plan.maxLines = true) :
    ∃ harvested, world.Level harvested ∧
      harvested.grammars = (Grammars.parser tools.installed plan.language world.grammars).kept ∧
      mutateFile tools plan shared path world
        = match tools.harvestOf plan.language path text world.grammars with
          | .error stop => (.error stop, harvested)
          | .ok found => mutateHarvest tools plan shared path found harvested := by
  obtain ⟨read, hstill, hfile⟩ := mutateFile_of_hasText tools plan shared htext
  obtain ⟨harvested, hharvest, hlevel, hkept⟩ :=
    harvestText_apply tools plan.language path text read
  -- Reading loads nothing, so the text is harvested by the grammars from before.
  rw [hstill.grammars] at hharvest hkept
  refine ⟨harvested, hstill.toLevel.trans hlevel, hkept, ?_⟩
  rw [hfile, mutateText_of_within hwithin, Chance.bind_apply, hharvest]
  cases tools.harvestOf plan.language path text world.grammars <;> rfl

/-- What is handed over, written and reported of a harvest are the mutants that the pass made. -/
theorem mutateHarvest_eq_ok {found : Harvest} {report : SourceReport}
    {world' : World σ}
    (h : mutateHarvest tools plan shared path found world = (.ok report, world')) :
    ∃ made, (plan.mode.mutants tools.patience found plan.count shared plan.stallLimit
        world.chance).1.result = .ok made ∧
      world'.acceptances = world.acceptances ++ made.map (fun mutant => (path, mutant)) ∧
      world'.writings = world.writings
        ++ (numbered plan.outputDirectory path.name 1 made).map written ∧
      report = {
        path := path.text
        spanCount := found.spans.length
        mutantCount := made.length
        written := (numbered plan.outputDirectory path.name 1 made).map (·.1.text) } := by
  obtain ⟨made, drawn, hmade, hrest⟩ := Chance.bind_eq_ok.mp h
  obtain ⟨handed, hhandOver, hhanded, hunwritten⟩ := handOver_apply path made drawn
  rw [Chance.bind_apply, hhandOver] at hrest
  obtain ⟨paths, last, hwrite, hlast⟩ := Chance.bind_eq_ok.mp hrest
  rw [log_bind_apply] at hlast
  cases hlast
  -- Making mutants neither hands over nor writes.
  have hquiet : World.Quiet world drawn :=
    (respects_mutants World.tolerant_quiet tools plan found shared).of_run hmade
  obtain ⟨rfl, hkept, hwritten⟩ := writeMutants_eq_ok hwrite
  refine ⟨made, result_of_mutants hmade, ?_, ?_, ?_⟩
  · rw [World.acceptances_after, hkept, hhanded, hquiet.1]
    simp [Event.accepted?]
  · rw [World.writings_after, hwritten, hunwritten, hquiet.2]
    simp [Event.written?]
  · simp

/-- A run that stops before the sources are mutated leaves the world as it was then. -/
theorem carryOut_of_stop {stop : Stop} {world' : World σ}
    (h : gather tools plan (world.after (.logged (startLine plan))) = (.error stop, world')) :
    (carryOut tools plan world).2 = world' := by
  rw [carryOut, carryOutBy, log_bind_apply, Chance.bind_apply, h]

/-- After the sources were mutated, nothing but a line is logged. -/
theorem level_carryOut {files : List Path} {world' : World σ}
    (h : gather tools plan (world.after (.logged (startLine plan)))
      = (.ok (files, shared), world')) :
    (mutateFiles tools plan shared files world').2.Level (carryOut tools plan world).2 := by
  rw [carryOut, carryOutBy, log_bind_apply, Chance.bind_apply, h]
  dsimp only
  rw [Chance.bind_apply]
  rcases mutateFiles tools plan shared files world' with ⟨stop | reports, mutated⟩
  · exact .refl mutated
  · exact (mutated.still_logged _).toLevel

end Mutating

end Run

end SourceMutation
