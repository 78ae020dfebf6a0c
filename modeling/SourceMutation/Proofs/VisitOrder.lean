import SourceMutation.Proofs.Scans

/-!
# The order of visits

A scan goes by name through each directory, first through its files and then through the directories
in it.  `Precedes` is that order, of names from the start of the scan on, and it is the order in
which files are found (`FileTree.inVisitOrder_sourceNames`).

It is not quite the order of the paths.  A file of a directory is visited before everything that is
further down, also where its own name comes after that of the directory further down: then it
straggles (`Straggles`).  Files are visited in the order of their paths exactly if no file straggles
(`pairwise_lt_iff`).

A corpus pass reads files in that order, and so does each pass of a run (`Run.visitOrder_precedes`).
-/

namespace SourceMutation

variable {σ α β : Type}

/-! ## Orders of names

The files of a directory are visited before all that stands in the directories below it.  This is
the order of paths, except for a file that straggles.
-/

/-- The order in which a scan finds files, by their names from the start on. -/
inductive Precedes : List String → List String → Prop
  /-- Files of one directory go by name. -/
  | name {first second : String} : first < second → Precedes [first] [second]
  /-- A file of a directory goes before all files further down. -/
  | file (name directory next : String) (rest : List String) :
      Precedes [name] (directory :: next :: rest)
  /-- Files further down go by the names of the directories that they are in. -/
  | directory {first second : String} (next next' : String) (rest rest' : List String) :
      first < second → Precedes (first :: next :: rest) (second :: next' :: rest')
  /-- Within one directory they go by the rest of their names. -/
  | within (directory : String) {first second : List String} :
      Precedes first second → Precedes (directory :: first) (directory :: second)

/-- Whether a file stands beside a directory of a smaller name, and a second file somewhere below
that directory. -/
def Straggles (first second : List String) : Prop :=
  ∃ above name directory next rest, first = above ++ [name] ∧
    second = above ++ directory :: next :: rest ∧ directory < name

variable {first second : List String} {found : List (List String)}

/-- The order below a directory is that of the names from its start. -/
theorem Precedes.append_left (h : Precedes first second) (above : List String) :
    Precedes (above ++ first) (above ++ second) := by
  induction above with
  | nil => exact h
  | cons directory _ ih => exact ih.within directory

/-- Files have names. -/
theorem Precedes.ne_nil (h : Precedes first second) : first ≠ [] ∧ second ≠ [] := by
  cases h <;> simp

/-- No two files come before each other. -/
theorem Precedes.asymm (h : Precedes first second) : ¬ Precedes second first := by
  -- The first names of both decide, unless both files are below the same directory.
  induction h with
  | name hlt =>
    intro hback
    cases hback with
    | name hlt' => exact lt_asymm hlt hlt'
    | within _ hnil => exact hnil.ne_nil.1 rfl
  | file name directory next rest =>
    intro hback
    cases hback with
    | within _ hnil => exact hnil.ne_nil.2 rfl
  | directory next next' rest rest' hlt =>
    intro hback
    cases hback with
    | directory _ _ _ _ hlt' => exact lt_asymm hlt hlt'
    | within => exact lt_irrefl _ hlt
  | within directory hwithin ih =>
    intro hback
    cases hback with
    | name hlt => exact lt_irrefl _ hlt
    | file => exact hwithin.ne_nil.2 rfl
    | directory _ _ _ _ hlt => exact lt_irrefl _ hlt
    | within _ hback => exact ih hback

/-- A file that straggles is visited first. -/
theorem Straggles.precedes (h : Straggles first second) : Precedes first second := by
  obtain ⟨above, name, directory, next, rest, rfl, rfl, -⟩ := h
  exact (Precedes.file name directory next rest).append_left above

/-- Its path is the greater one. -/
theorem Straggles.gt (h : Straggles first second) : second < first := by
  obtain ⟨above, name, directory, next, rest, rfl, rfl, hlt⟩ := h
  exact List.append_left_lt (List.cons_lt_cons_iff.mpr (.inl hlt))

/-- All other files are visited in the order of their paths. -/
theorem Precedes.lt_or_straggles (h : Precedes first second) :
    first < second ∨ Straggles first second := by
  induction h with
  | name hlt => exact .inl (List.cons_lt_cons_iff.mpr (.inl hlt))
  | file name directory next rest =>
    rcases lt_trichotomy name directory with hlt | rfl | hlt
    · exact .inl (List.cons_lt_cons_iff.mpr (.inl hlt))
    · exact .inl (List.cons_lt_cons_iff.mpr (.inr ⟨rfl, List.nil_lt_cons _ _⟩))
    · exact .inr ⟨[], name, directory, next, rest, rfl, rfl, hlt⟩
  | directory _ _ _ _ hlt => exact .inl (List.cons_lt_cons_iff.mpr (.inl hlt))
  | within directory _ ih =>
    rcases ih with hlt | ⟨above, name, other, next, rest, rfl, rfl, hlt⟩
    · exact .inl (List.cons_lt_cons_iff.mpr (.inr ⟨rfl, hlt⟩))
    · exact .inr ⟨directory :: above, name, other, next, rest, rfl, rfl, hlt⟩

/-- Files that are visited in order are in the order of their paths exactly if none straggles. -/
theorem pairwise_lt_iff (h : found.Pairwise Precedes) :
    found.Pairwise (· < ·) ↔ ∀ first ∈ found, ∀ second ∈ found, ¬ Straggles first second := by
  constructor
  · intro hlt first hfirst second hsecond hstraggles
    obtain ⟨i, hi, rfl⟩ := List.getElem_of_mem hfirst
    obtain ⟨j, hj, rfl⟩ := List.getElem_of_mem hsecond
    -- The file that straggles would have to be visited after the other one, which it precedes.
    rcases lt_trichotomy i j with hij | rfl | hij
    · exact lt_asymm hstraggles.gt (List.pairwise_iff_getElem.mp hlt i j hi hj hij)
    · exact lt_irrefl _ hstraggles.gt
    · exact hstraggles.precedes.asymm (List.pairwise_iff_getElem.mp h j i hj hi hij)
  · intro hnone
    refine h.imp_of_mem fun {first second} hfirst hsecond hprecedes => ?_
    exact hprecedes.lt_or_straggles.resolve_right (hnone first hfirst second hsecond)

/-- Whether files are visited in order; and when this is the order of their paths. -/
structure InVisitOrder (found : List (List String)) : Prop where
  precedes : found.Pairwise Precedes
  lt_iff : found.Pairwise (· < ·) ↔ ∀ first ∈ found, ∀ second ∈ found, ¬ Straggles first second

/-- Files each of which precedes all later ones are in the order of visits. -/
theorem inVisitOrder_of_pairwise (h : found.Pairwise Precedes) : InVisitOrder found :=
  ⟨h, pairwise_lt_iff h⟩

theorem inVisitOrder_nil : InVisitOrder [] := inVisitOrder_of_pairwise .nil

/-! ## What a scan finds -/

namespace FileTree

/-- The names of a directory are sorted and different from each other. -/
theorem pairwise_lt_sorted_names (tree : FileTree) (location : Location) :
    (sorted (tree.names location)).Pairwise (· < ·) :=
  (pairwise_sorted _).imp₂ (fun _ _ => lt_of_le_of_ne) (nodup_sorted_names tree location)

/-- What is found in a directory is found in the order of visits. -/
theorem pairwise_filesIn (tree : FileTree) (rules : ScanRules) (directory : Path) (depth : Nat)
    (location : Location) (names : List String) :
    (tree.filesIn rules directory depth location names).Pairwise Precedes := by
  induction depth generalizing location names with
  | zero => exact .nil
  | succ depth ih =>
    have hhere := pairwise_lt_sorted_names tree location
    rw [filesIn_succ]
    refine List.pairwise_append.mpr ⟨?_, ?_, ?_⟩
    -- The files of the directory come by their names.
    · refine List.pairwise_map.mpr ((hhere.filter _).imp fun {first second} hlt => ?_)
      exact (Precedes.name hlt).append_left names
    · -- What is found below two directories differs first in the names of these.
      refine List.pairwise_flatMap.mpr ⟨fun name _ => ih _ _, ?_⟩
      refine (hhere.filter _).imp fun {first second} hlt one hone other hother => ?_
      obtain ⟨next, rest, rfl⟩ := exists_of_mem_filesIn hone
      obtain ⟨next', rest', rfl⟩ := exists_of_mem_filesIn hother
      rw [List.append_assoc, List.append_assoc]
      exact (Precedes.directory next next' rest rest' hlt).append_left names
    -- They come before all that is further down.
    · intro file hfile other hother
      obtain ⟨name, -, rfl⟩ := List.mem_map.mp hfile
      obtain ⟨directory, -, hbelow⟩ := List.mem_flatMap.mp hother
      obtain ⟨next, rest, rfl⟩ := exists_of_mem_filesIn hbelow
      rw [List.append_assoc]
      exact (Precedes.file name directory next rest).append_left names

/-- The names, from the start on, of the files that a scan of a directory is after. -/
def sourceNames (tree : FileTree) (directory : Path) (rules : ScanRules) : List (List String) :=
  (tree.visits directory rules).filterMap Visit.file?

/-- A scan finds its files in the order of visits. -/
theorem inVisitOrder_sourceNames (tree : FileTree) (directory : Path) (rules : ScanRules) :
    InVisitOrder (tree.sourceNames directory rules) := by
  rw [sourceNames, visits]
  cases tree.locate directory with
  | error cause => exact inVisitOrder_nil
  | ok place =>
    dsimp only
    split
    · exact inVisitOrder_of_pairwise (pairwise_filesIn tree rules _ tree.depth place [])
    · exact inVisitOrder_nil

/-- The names of the sources of a language, both the language and ignore patterns given as values.
There are none if these cannot be read. -/
def namesFor (tree : FileTree) (language patterns : Value) (directory : Path) :
    List (List String) :=
  match do ScanRules.ofValues (.texts (← Grammars.checkLanguage language).suffixes) patterns with
  | .ok rules => tree.sourceNames directory rules
  | .error _ => []

/-- The names for a language and patterns that are accepted are those that a scan is after. -/
theorem namesFor_of_ok (tree : FileTree) (directory : Path) {language patterns : Value}
    {checked : Language} {rules : ScanRules}
    (hchecked : Grammars.checkLanguage language = .ok checked)
    (hrules : ScanRules.ofValues (.texts checked.suffixes) patterns = .ok rules) :
    tree.namesFor language patterns directory = tree.sourceNames directory rules := by
  have hboth :
      (do ScanRules.ofValues (.texts (← Grammars.checkLanguage language).suffixes) patterns)
        = .ok rules := except_bind_eq_ok.mpr ⟨checked, hchecked, hrules⟩
  rw [namesFor, hboth]

/-- The names for a language and patterns are in the order of visits, if there are any. -/
theorem inVisitOrder_namesFor (tree : FileTree) (language patterns : Value) (directory : Path) :
    InVisitOrder (tree.namesFor language patterns directory) := by
  rw [namesFor]
  split
  · exact tree.inVisitOrder_sourceNames _ _
  · exact inVisitOrder_nil

/-- The files that a scan meets are those that it is after. -/
theorem filesOf_visits (tree : FileTree) (directory : Path) (rules : ScanRules) :
    filesOf directory (tree.visits directory rules)
      = (tree.sourceNames directory rules).map directory.below :=
  List.map_filterMap.symm

end FileTree

/-! ## What was read

The order is read off the events of a run, so it is told of runs that stop, too: they have read the
first ones of the files.
-/

/-- The path of an event that reads a source. -/
def Event.read? : Event → Option Path
  | .read path _ => some path
  | _ => none

namespace World

/-- The paths of the sources read so far. -/
def readings (world : World σ) : List Path := world.events.filterMap Event.read?

/-- An event adds its reading, if it is one. -/
@[simp] theorem readings_after (world : World σ) (event : Event) :
    (world.after event).readings = world.readings ++ event.read?.toList := by
  cases h : event.read? <;> simp [readings, h]

/-- Whether no source was read between two worlds. -/
def SameReadings (first second : World σ) : Prop := second.readings = first.readings

/-- An event that is no reading adds none. -/
theorem sameReadings_after {event : Event} (h : event.read? = none) (world : World σ) :
    world.SameReadings (world.after event) := by
  simp [SameReadings, h]

/-- Logging, loading and drawing read nothing. -/
theorem tolerant_sameReadings : Tolerant (SameReadings (σ := σ)) where
  refl _ := rfl
  trans h h' := h'.trans h
  logged world _ := sameReadings_after rfl world
  loaded _ _ := rfl
  drawn _ _ := rfl

end World

namespace Run

open World (SameReadings tolerant_sameReadings tolerant_sameTree)

/-- Whether a run reads the sources at some paths, one after another.  It reads all of them if it
returns, and the first ones if it stops. -/
def ReadsAlong (m : Run σ α) (paths : List Path) (world : World σ) : Prop :=
  ∃ read, read <+: paths ∧ (m world).2.readings = world.readings ++ read ∧
    ∀ a, (m world).1 = .ok a → read = paths

variable {m : Run σ α} {f : α → Run σ β} {paths later : List Path} {world : World σ}

/-- A run that adds no readings has read no paths. -/
theorem readsAlong_of_same (h : SameReadings world (m world).2) : ReadsAlong m [] world :=
  ⟨[], List.nil_prefix, h.trans (List.append_nil _).symm, fun _ _ => rfl⟩

theorem readsAlong_pure (a : α) : ReadsAlong (pure a : Run σ α) [] world :=
  readsAlong_of_same rfl

/-- The second part goes on where the first one has read everything. -/
theorem readsAlong_bind (hm : ReadsAlong m paths world)
    (hf : ∀ a between, m world = (.ok a, between) → ReadsAlong (f a) later between) :
    ReadsAlong (m >>= f) (paths ++ later) world := by
  obtain ⟨read, hread, hreadings, hall⟩ := hm
  rw [ReadsAlong, Chance.bind_apply]
  rcases hrun : m world with ⟨stop | a, between⟩
  · -- What the first part has read before it stops is also the beginning of what both would read.
    rw [hrun] at hreadings
    refine ⟨read, hread.trans (List.prefix_append _ _), hreadings, fun b h => ?_⟩
    cases h
  · rw [hrun] at hreadings hall
    obtain rfl := hall a rfl
    obtain ⟨more, hmore, hreadings', hall'⟩ := hf a between hrun
    refine ⟨read ++ more, (List.prefix_append_right_inj read).mpr hmore, ?_, fun b hb => ?_⟩
    · rw [hreadings', hreadings, List.append_assoc]
    · rw [hall' b hb]

/-- What is read after a part that reads nothing. -/
theorem readsAlong_after (hm : SameReadings world (m world).2)
    (hf : ∀ a between, m world = (.ok a, between) → ReadsAlong (f a) paths between) :
    ReadsAlong (m >>= f) paths world :=
  readsAlong_bind (readsAlong_of_same hm) hf

/-- What is read before a part that reads nothing. -/
theorem readsAlong_before (hm : ReadsAlong m paths world) (hf : ∀ a, Respects SameReadings (f a)) :
    ReadsAlong (m >>= f) paths world := by
  have hboth := readsAlong_bind hm fun a between _ => readsAlong_of_same (hf a between)
  rwa [List.append_nil] at hboth

/-- A line of the log in front reads nothing. -/
theorem readsAlong_log (line : LogLine) {m : Run σ α}
    (hm : ReadsAlong m paths (world.after (.logged line))) :
    ReadsAlong (log line >>= fun _ => m) paths world := by
  refine readsAlong_after (tolerant_sameReadings.logged world line) fun _ between hlog => ?_
  cases hlog
  exact hm

/-- A traced step reads what its body does. -/
theorem readsAlong_traced {step : String}
    (hm : ReadsAlong m paths (world.after (.logged (.entered step)))) :
    ReadsAlong (traced step m) paths world := by
  refine readsAlong_log _ (readsAlong_before ?_ fun a => ?_)
  -- A line in the log comes before and after, and neither reads anything.
  · obtain ⟨read, hread, hreadings, hall⟩ := hm
    rw [ReadsAlong, Chance.tryCatch_apply]
    rcases hrun : m _ with ⟨stop | a, between⟩
    · rw [hrun] at hreadings
      refine ⟨read, hread, ?_, fun a h => ?_⟩
      · cases stop with
        | failed failure => exact (tolerant_sameReadings.logged between _).trans hreadings
        | unfinished => exact hreadings
      · cases stop <;> cases h
    · rw [hrun] at hreadings hall
      exact ⟨read, hread, hreadings, fun _ _ => hall a rfl⟩
  · exact respects_bind tolerant_sameReadings (respects_log tolerant_sameReadings _) fun _ =>
      respects_pure tolerant_sameReadings a

/-! ### Steps of a run -/

/-- Reading a source reads it once, or not at all if it cannot be read. -/
theorem readsAlong_readSource (path : Path) (world : World σ) :
    ReadsAlong (readSource path) [path] world := by
  rcases hrun : (readSource path : Run σ String) world with ⟨stop | text, after⟩
  · obtain rfl := readSource_eq_error hrun
    refine ⟨[], List.nil_prefix, ?_, fun text h => ?_⟩
    · rw [hrun, List.append_nil]
    · rw [hrun] at h
      cases h
  · obtain ⟨bytes, -, -, rfl⟩ := readSource_eq_ok hrun
    refine ⟨[path], List.prefix_rfl, ?_, fun _ _ => rfl⟩
    rw [hrun, World.readings_after]
    rfl

/-- Adding a file to a corpus reads that file. -/
theorem readsAlong_addFile (tools : Toolchain) (language : Language) (maxLines : Nat) (path : Path)
    (corpus : Corpus) (world : World σ) :
    ReadsAlong (addFile tools language maxLines path corpus) [path] world := by
  have hR := tolerant_sameReadings (σ := σ)
  refine readsAlong_before (readsAlong_readSource path world) fun text => ?_
  split
  · refine respects_bind hR (respects_harvest hR _ _ _ _) fun harvest => ?_
    split
    · exact respects_throw hR _
    · exact respects_bind hR (respects_log hR _) fun _ => respects_pure hR _
  · exact respects_bind hR (respects_log hR _) fun _ => respects_pure hR _

/-- Adding what a scan met reads the files that it met, as far as it gets. -/
theorem readsAlong_addVisits (tools : Toolchain) (language : Language) (maxLines : Nat)
    (directory : Path) (met : List Visit) (used : Nat) (corpus : Corpus) (world : World σ) :
    ReadsAlong (addVisits tools language maxLines directory met used corpus)
      (filesOf directory met) world := by
  induction met generalizing used corpus world with
  | nil => exact readsAlong_pure _
  | cons visit rest ih =>
    have hlines := respects_logAll tolerant_sameReadings (visitLine? visit).toList world
    rw [addVisits]
    cases hfile : visit.file? with
    -- What is no file is only logged.
    | none =>
      rw [filesOf_cons_of_none hfile]
      exact readsAlong_after hlines fun _ between _ => ih used corpus between
    -- The file is read, and then those that were met after it.
    | some names =>
      rw [filesOf_cons_of_some hfile]
      refine readsAlong_after hlines fun _ between _ => ?_
      exact readsAlong_bind (readsAlong_addFile _ _ _ _ _ between) fun _ next _ => ih _ _ next

/-- A corpus pass reads the sources of its language. -/
theorem readsAlong_buildCorpus (tools : Toolchain) (directory : Path)
    (language maxLines patterns : Value) (world : World σ) :
    ReadsAlong (buildCorpus tools directory language maxLines patterns)
      ((world.tree.namesFor language patterns directory).map directory.below) world := by
  have hR := tolerant_sameReadings (σ := σ)
  have hT := tolerant_sameTree (σ := σ)
  refine readsAlong_traced ?_
  refine readsAlong_after (respects_ofExcept hR _ _) fun maxLines first hfirst => ?_
  refine readsAlong_log _ ?_
  refine readsAlong_after (respects_ofExcept hR _ _) fun checked second hsecond => ?_
  refine readsAlong_after (respects_scanRules hR _ _ _) fun rules third hthird => ?_
  refine readsAlong_after (respects_visits hR _ _ _) fun met fourth hfourth => ?_
  obtain ⟨rfl, rfl⟩ := visits_eq_ok hfourth
  -- Up to here the files have stayed as they were.
  have hsame : fourth.tree = world.tree := by
    have hlimit := (respects_ofExcept hT _).of_run hfirst
    have hlanguage := (respects_ofExcept hT _).of_run hsecond
    have hrules := (respects_scanRules hT _ _).of_run hthird
    exact hrules.trans (hlanguage.trans hlimit)
  rw [FileTree.namesFor_of_ok _ _ (ofExcept_eq_ok hsecond) (scanRules_eq_ok hthird), ← hsame,
    ← FileTree.filesOf_visits]
  -- Nothing is read once the files were added.
  refine readsAlong_before (readsAlong_addVisits _ _ _ _ _ _ _ _) fun _ => ?_
  exact respects_bind hR (respects_log hR _) fun _ => respects_pure hR _

/-- A plan's corpus takes a pass over the plan's sources, if it needs one. -/
theorem readsAlong_planCorpus (tools : Toolchain) {plan : Plan} {rules : ScanRules}
    (hrules : plan.rules = .ok rules) (world : World σ) :
    ∃ before,
      (before = [] ∨ before = world.tree.sourceNames plan.inputDirectory rules) ∧
      ReadsAlong (planCorpus tools plan) (before.map plan.inputDirectory.below) world := by
  rw [planCorpus]
  split
  -- The corpus pass is given the language and the patterns of the plan, and accepts them again.
  · have halong := readsAlong_buildCorpus tools plan.inputDirectory (.text plan.language.name)
      (.int plan.maxLines) (.texts plan.ignorePatterns) world
    rw [world.tree.namesFor_of_ok plan.inputDirectory (Grammars.checkLanguage_name plan.language)
      hrules] at halong
    refine ⟨_, .inr rfl, ?_⟩
    rw [map_eq_pure_bind]
    exact readsAlong_before halong fun _ => respects_pure tolerant_sameReadings _
  · exact ⟨[], .inl rfl, readsAlong_pure _⟩

/-! ### Whole runs -/

/-- Whether a run goes over files below a directory in the order of visits, and maybe went over the
same ones before. -/
def GoesOverInOrder (m : Run σ α) (directory : Path) (world : World σ) : Prop :=
  ∃ before found, InVisitOrder found ∧ (before = [] ∨ before = found) ∧
    ReadsAlong m ((before ++ found).map directory.below) world

/-- What is gone over after a part that reads nothing. -/
theorem goesOverInOrder_after {directory : Path} (hm : SameReadings world (m world).2)
    (hf : ∀ a between, m world = (.ok a, between) → GoesOverInOrder (f a) directory between) :
    GoesOverInOrder (m >>= f) directory world := by
  rcases hrun : m world with ⟨stop | a, between⟩
  · refine ⟨[], [], inVisitOrder_nil, .inl rfl, readsAlong_after hm fun a between h => ?_⟩
    cases hrun.symm.trans h
  · obtain ⟨before, found, horder, hbefore, halong⟩ := hf a between hrun
    refine ⟨before, found, horder, hbefore, readsAlong_after hm fun a' between' h => ?_⟩
    cases hrun.symm.trans h
    exact halong

section Runs

variable [Chooser σ]

/-- Mutating a file reads that file. -/
theorem readsAlong_mutateFile (tools : Toolchain) (plan : Plan) (corpus : Option Corpus)
    (path : Path) (world : World σ) :
    ReadsAlong (mutateFile tools plan corpus path) [path] world := by
  refine readsAlong_log _ (readsAlong_before (readsAlong_readSource path _) fun text => ?_)
  exact respects_mutateText_by tolerant_sameReadings
    (fun world _ => World.sameReadings_after rfl world) (fun _ _ => rfl)
    fun _ _ _ _ _ => World.sameReadings_after rfl _

/-- Mutating files reads them one after another, as far as it gets. -/
theorem readsAlong_mutateFiles (tools : Toolchain) (plan : Plan) (corpus : Option Corpus)
    (paths : List Path) (world : World σ) :
    ReadsAlong (mutateFiles tools plan corpus paths) paths world := by
  have hR := tolerant_sameReadings (σ := σ)
  induction paths generalizing world with
  | nil => exact readsAlong_pure _
  | cons path rest ih =>
    refine readsAlong_bind (readsAlong_mutateFile tools plan corpus path world) ?_
    intro report between _
    exact readsAlong_before (ih between) fun _ => respects_pure hR _

/-- Carrying a plan out goes over its sources, once for their corpus if it needs one. -/
theorem goesOverInOrder_carryOut (tools : Toolchain) (plan : Plan) (world : World σ) :
    GoesOverInOrder (carryOut tools plan) plan.inputDirectory world := by
  have hR := tolerant_sameReadings (σ := σ)
  rw [carryOut, carryOutBy, gather_eq]
  simp only [bind_assoc, pure_bind]
  refine goesOverInOrder_after (respects_log hR _ _) fun _ start _ => ?_
  have hsurvey : Respects SameReadings (survey plan : Run σ (List Path)) :=
    respects_bind hR (respects_ensureOutputDirectory hR _ fun _ _ => rfl) fun _ =>
      respects_scan hR _ _ _
  refine goesOverInOrder_after (hsurvey start) fun files made hmade => ?_
  obtain ⟨-, -, rules, hrules, -, rfl⟩ := survey_eq_ok hmade
  -- The corpus pass scans again, by the same rules and over the same files.
  obtain ⟨before, hbefore, hcorpus⟩ := readsAlong_planCorpus tools hrules made
  refine ⟨before, _, made.tree.inVisitOrder_sourceNames _ _, hbefore, ?_⟩
  rw [List.map_append]
  refine readsAlong_bind hcorpus fun corpus gathered _ => ?_
  rw [FileTree.filesOf_visits]
  refine readsAlong_before (readsAlong_mutateFiles tools plan corpus _ gathered) fun _ => ?_
  exact respects_bind hR (respects_log hR _) fun _ => respects_pure hR _

/-- A run goes over its sources in the order of visits, in each of its passes. -/
theorem goesOverInOrder_mutateAfter {settings : Settings} {opening : Run σ Unit}
    (hopening : Opening settings opening) (tools : Toolchain) (world : World σ) :
    GoesOverInOrder (mutateAfter opening tools settings) settings.inputDirectory world := by
  have hR := tolerant_sameReadings (σ := σ)
  -- The settings are looked at and the run is opened before anything is read.
  have hbody : ∀ start : World σ, GoesOverInOrder (do
      let plan ← ofExcept (settings.check (← tree))
      opening
      carryOut tools plan) settings.inputDirectory start := by
    intro start
    refine goesOverInOrder_after (respects_tree hR _) fun tree first _ => ?_
    refine goesOverInOrder_after (respects_ofExcept hR _ _) fun plan second hplan => ?_
    have hpasses := Settings.check_eq_ok_iff.mp (ofExcept_eq_ok hplan)
    rw [← hpasses.inputDirectory]
    refine goesOverInOrder_after (hopening.respects hR second) fun _ third _ => ?_
    exact goesOverInOrder_carryOut tools plan third
  obtain ⟨before, found, horder, hbefore, halong⟩ := hbody _
  exact ⟨before, found, horder, hbefore, readsAlong_traced halong⟩

/--
A scan finds files in the order of visits, a corpus pass reads them in it, and a run goes over them
in it, with its corpus pass before that if its mode has one.  This is the order of paths exactly if
no file straggles.
-/
theorem visitOrder_precedes {settings : Settings} {opening : Run σ Unit}
    (hopening : Opening settings opening) (tools : Toolchain) (world : World σ) :
    (∀ directory suffixes patterns paths after,
      scan directory suffixes patterns world = (.ok paths, after) →
        ∃ found, InVisitOrder found ∧ paths = found.map directory.below) ∧
    (∀ directory language maxLines patterns, ∃ found, InVisitOrder found ∧
      ReadsAlong (buildCorpus tools directory language maxLines patterns)
        (found.map directory.below) world) ∧
    GoesOverInOrder (mutateAfter opening tools settings) settings.inputDirectory world := by
  refine ⟨?_, ?_, goesOverInOrder_mutateAfter hopening tools world⟩
  · intro directory suffixes patterns paths after hscan
    obtain ⟨rules, -, -, rfl, -⟩ := scan_eq_ok hscan
    exact ⟨_, world.tree.inVisitOrder_sourceNames directory rules,
      world.tree.filesOf_visits directory rules⟩
  · intro directory language maxLines patterns
    exact ⟨_, world.tree.inVisitOrder_namesFor language patterns directory,
      readsAlong_buildCorpus tools directory language maxLines patterns world⟩

/-! ### A file beside an earlier directory -/

/-- A source `b.rs` beside a directory `a` that holds a source `c.rs`. -/
def besideTree : FileTree where
  workDirectory := ["w"]
  entries := ⟨[(["w"], .directory), (["w", "in"], .directory), (["w", "in", "a"], .directory),
    (["w", "in", "a", "c.rs"], .file [0x79]), (["w", "in", "b.rs"], .file [0x78])]⟩

/-- The names of its sources as they are visited. -/
def besideNames : List (List String) := [["b.rs"], ["a", "c.rs"]]

/-- A world with these files, before its first event. -/
def besideStart : World Script := World.fresh besideTree ⟨[]⟩ .empty

/-- Its sources are found in the order of visits, and a run goes over them in it. -/
theorem besideNames_inVisitOrder :
    InVisitOrder besideNames ∧
      GoesOverInOrder (mutate firstByteTools deletions) ⟨.relative, ["in"]⟩ besideStart := by
  obtain ⟨hscans, -, hrun⟩ := visitOrder_precedes (.given : Opening deletions _) firstByteTools
    besideStart
  refine ⟨?_, hrun⟩
  -- What the scan comes to is computed, so that the theorem speaks of these names.
  have hpaths : (scan ⟨.relative, ["in"]⟩ (.texts [".rs"]) .none besideStart).1.toOption
      = some (besideNames.map (Path.below ⟨.relative, ["in"]⟩)) := by decide +kernel
  rcases hscan : scan ⟨.relative, ["in"]⟩ (.texts [".rs"]) .none besideStart with
    ⟨stop | paths, after⟩
  · rw [hscan] at hpaths
    cases hpaths
  · rw [hscan] at hpaths
    obtain ⟨found, horder, rfl⟩ := hscans _ _ _ _ _ hscan
    have hfound : found = besideNames :=
      List.map_injective_iff.mpr (FileTree.below_injective _) (Option.some.inj hpaths)
    rwa [← hfound]

/-- Neither a scan nor a corpus pass nor a run visits them in the order of their paths. -/
theorem besideNames_out_of_order :
    ¬ besideNames.Pairwise (· < ·) ∧
      (scan ⟨.relative, ["in"]⟩ (.texts [".rs"]) .none besideStart).1.toOption
        = some (besideNames.map (Path.below ⟨.relative, ["in"]⟩)) ∧
      (buildCorpus firstByteTools ⟨.relative, ["in"]⟩ (.text "rust") (.int 500) .none
        besideStart).2.readings = besideNames.map (Path.below ⟨.relative, ["in"]⟩) ∧
      (mutate firstByteTools deletions besideStart).2.readings
        = besideNames.map (Path.below ⟨.relative, ["in"]⟩) := by
  decide +kernel

end Runs

end Run

end SourceMutation
