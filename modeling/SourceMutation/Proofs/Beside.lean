import SourceMutation.Proofs.Additions
import SourceMutation.Proofs.SharedCorpora
import SourceMutation.Proofs.Stops

/-!
# Runs beside each other

Two runs go over trees of which the second one has more files.  If the first one's scan finds what
the second one's finds, but for files that are too long, and nothing that is added is on the way of
what is read or written, both runs come to the same, but for the reports of the files that are too
long (`Run.together_mutateAfter`).

## How two runs go together

- The worlds of both runs have related trees, the same numbers and the same grammars, and the same
  was handed over and written in both (`World.Beside`).
- Parts of both runs go together if both return related results in related worlds, or both stop
  (`Run.Together`).  What goes together, part by part, goes together as a whole
  (`Run.together_bind`).
- Up to the pass that mutates, both trees stay as they are, but for the output directory, and the
  second run meets some more files that are too long.
- In the pass that mutates, both runs write the same to trees that go on being related
  (`FileTree.Accompanies`), and each file that is too long adds a report to the second run only
  (`Run.Interleaves`).
-/

namespace SourceMutation

variable {σ α β γ δ : Type}

namespace World

variable {T : FileTree → FileTree → Prop} {first second : World σ}

/-- Whether two worlds have related files, and the same numbers, grammars, mutants handed over and
files written. -/
structure Beside (T : FileTree → FileTree → Prop) (first second : World σ) : Prop where
  trees : T first.tree second.tree
  chance : first.chance = second.chance
  grammars : first.grammars = second.grammars
  acceptances : first.acceptances = second.acceptances
  writings : first.writings = second.writings

theorem loading_beside (T : FileTree → FileTree → Prop) : Loading (Beside (σ := σ) T) where
  chance h := h.chance
  after h event := ⟨h.trees, h.chance, h.grammars,
    by rw [acceptances_after, acceptances_after, h.acceptances],
    by rw [writings_after, writings_after, h.writings]⟩
  withChance h _ := ⟨h.trees, rfl, h.grammars, h.acceptances, h.writings⟩
  grammars h := h.grammars
  withGrammars h _ := ⟨h.trees, h.chance, rfl, h.acceptances, h.writings⟩

theorem Beside.mono {T' : FileTree → FileTree → Prop} (h : Beside T first second)
    (htrees : T' first.tree second.tree) : Beside T' first second := { h with trees := htrees }

/-- What leaves either world untouched leaves them beside each other. -/
theorem Beside.untouched {first' second' : World σ} (h : Beside T first second)
    (hfirst : first.Untouched first') (hsecond : second.Untouched second') :
    Beside T first' second' where
  trees := hfirst.tree ▸ hsecond.tree ▸ h.trees
  chance := hfirst.chance.symm.trans (h.chance.trans hsecond.chance)
  grammars := hfirst.grammars.trans (h.grammars.trans hsecond.grammars.symm)
  acceptances := hfirst.acceptances.trans (h.acceptances.trans hsecond.acceptances.symm)
  writings := hfirst.writings.symm.trans (h.writings.trans hsecond.writings)

theorem Beside.after (h : Beside T first second) (event : Event) :
    Beside T (first.after event) (second.after event) := (loading_beside T).after h event

end World

namespace Run

/-! ## What runs come to together

The smaller and the larger tree are followed side by side.  Results may differ, since the second run
reports more sources; a failure of one run is the same failure of the other.
-/

/-- Whether two runs return related results in related worlds, or stop alike. -/
inductive Together (R : World σ → World σ → Prop) (Q : α → β → Prop) :
    Except Stop α × World σ → Except Stop β × World σ → Prop
  | returned {a : α} {b : β} {first second : World σ} (hresult : Q a b) (hworlds : R first second) :
      Together R Q (.ok a, first) (.ok b, second)
  | stopped (stop : Stop) (first second : World σ) :
      Together R Q (.error stop, first) (.error stop, second)

section Together

variable {R R' : World σ → World σ → Prop} {Q : α → β → Prop} {Q' : γ → δ → Prop}
  {first second after : World σ} {one : Except Stop α × World σ} {other : Except Stop β × World σ}

theorem Together.exists_first (h : Together R Q one other) {b : β}
    (hother : other = (.ok b, after)) :
    ∃ a first, one = (.ok a, first) ∧ Q a b ∧ R first after := by
  subst hother
  cases h with
  | returned hresult hworlds => exact ⟨_, _, rfl, hresult, hworlds⟩

theorem Together.imp {Q' : α → β → Prop} (h : Together R Q one other)
    (hresults : ∀ a b, Q a b → Q' a b) : Together R Q' one other := by
  cases h with
  | returned hresult hworlds => exact .returned (hresults _ _ hresult) hworlds
  | stopped stop first second => exact .stopped _ _ _

theorem together_of_blind {m : Run σ α} (hm : Blind R m) (h : R first second) :
    Together R (· = ·) (m first) (m second) := by
  obtain ⟨hresult, hworlds⟩ := hm first second h
  rcases hfirst : m first with ⟨stop | a, after⟩ <;>
    rcases hsecond : m second with ⟨stop' | b, after'⟩ <;>
    rw [hfirst, hsecond] at hresult hworlds <;> cases hresult
  · exact .stopped _ _ _
  · exact .returned rfl hworlds

theorem together_bind {m : Run σ α} {n : Run σ β} {f : α → Run σ γ} {g : β → Run σ δ}
    (h : Together R Q (m first) (n second))
    (hnext : ∀ a b first second, Q a b → R first second →
      Together R' Q' (f a first) (g b second)) :
    Together R' Q' ((m >>= f) first) ((n >>= g) second) := by
  rw [Chance.bind_apply, Chance.bind_apply]
  generalize m first = one at h ⊢
  generalize n second = other at h ⊢
  cases h with
  | returned hresult hworlds => exact hnext _ _ _ _ hresult hworlds
  | stopped stop first second => exact .stopped _ _ _

/-- Traced steps come to what their bodies come to. -/
theorem together_traced {T T' : FileTree → FileTree → Prop} {step : String} {m : Run σ α}
    {n : Run σ β} (h : World.Beside T first second)
    (hbody : ∀ first second, World.Beside T first second →
      Together (World.Beside T') Q (m first) (n second)) :
    Together (World.Beside T') Q (traced step m first) (traced step n second) := by
  rw [traced, traced, log_bind_apply, log_bind_apply, Chance.bind_apply, Chance.bind_apply,
    Chance.tryCatch_apply, Chance.tryCatch_apply]
  have hentered := hbody _ _ (h.after (.logged (.entered step)))
  generalize m (first.after (.logged (.entered step))) = one at hentered ⊢
  generalize n (second.after (.logged (.entered step))) = other at hentered ⊢
  cases hentered with
  | returned hresult hworlds => exact .returned hresult (hworlds.after _)
  | stopped stop first second => cases stop <;> exact .stopped _ _ _

end Together

/-! ## Sources that both have

A source that only the second tree has is too long to be harvested, so it adds nothing to a corpus
and has no mutants.  The other sources are read alike.
-/

/-- Whether some files are read alike in two trees, but for some that the first tree need not have
and that are too long in the second. -/
def Shares (maxLines : Nat) (common : Path → Bool) (paths : List Path) (first second : FileTree) :
    Prop :=
  ∀ path ∈ paths,
    (common path = true → second.read path = first.read path) ∧
      (common path = false → second.TooLong maxLines path)

section Sources

variable {T : FileTree → FileTree → Prop} {tools : Toolchain} {language : Language}
  {maxLines used used' : Nat} {directory path : Path} {corpus : Corpus} {met met' : List Visit}
  {common : Path → Bool} {paths : List Path} {first second : World σ}

theorem together_readSource (h : World.Beside T first second)
    (hread : second.tree.read path = first.tree.read path) :
    Together (World.Beside T) (· = ·) ((readSource path : Run σ String) first)
      ((readSource path : Run σ String) second) := by
  rw [readSource_apply, readSource_apply, hread]
  cases first.tree.read path with
  | error fault => exact .stopped _ _ _
  | ok bytes =>
    dsimp only
    cases Utf8.decode bytes with
    | error fault => exact .stopped _ _ _
    | ok text => exact .returned rfl (h.after _)

theorem together_addFile (h : World.Beside T first second)
    (hread : second.tree.read path = first.tree.read path) :
    Together (World.Beside T) (· = ·) (addFile tools language maxLines path corpus first)
      (addFile tools language maxLines path corpus second) := by
  have hR := World.loading_beside (σ := σ) T
  refine together_bind (together_readSource h hread) ?_
  rintro text _ first second rfl hworlds
  refine together_of_blind ?_ hworlds
  split
  · refine blind_bind (blind_harvest hR _ _ _ _) fun found => ?_
    split
    · exact blind_fail _
    · exact blind_bind (blind_log hR.toPaired _) fun _ => blind_pure _
  · exact blind_bind (blind_log hR.toPaired _) fun _ => blind_pure _

/-- Going over what a scan met comes to the first file among it, and then to the others. -/
theorem addVisits_next (tools : Toolchain) (language : Language) (maxLines : Nat)
    (h : filesOf directory met = path :: paths) :
    ∃ rest, filesOf directory rest = paths ∧ ∀ used corpus (world : World σ),
      ∃ logged, world.Untouched logged ∧
        addVisits tools language maxLines directory met used corpus world
          = (addFile tools language maxLines path corpus >>= fun added =>
              addVisits tools language maxLines directory rest
                (if added.1 then used + 1 else used) added.2) logged := by
  induction met with
  | nil => cases h
  | cons visit later ih =>
    cases hfile : visit.file? with
    -- What is met first is no file, so it only adds lines.
    | none =>
      rw [filesOf_cons_of_none hfile] at h
      obtain ⟨rest, hrest, hnext⟩ := ih h
      refine ⟨rest, hrest, fun used corpus world => ?_⟩
      obtain ⟨logged, hlogged, hrun⟩ :=
        hnext used corpus (world.afterLines (visitLine? visit).toList)
      refine ⟨logged, (world.untouched_afterLines _).trans hlogged, ?_⟩
      rw [addVisits, logAll_bind_apply, hfile]
      exact hrun
    -- This is the file, and what is met after it is the rest.
    | some names =>
      rw [filesOf_cons_of_some hfile] at h
      obtain ⟨rfl, hrest⟩ := List.cons.inj h
      refine ⟨later, hrest, fun used corpus world =>
        ⟨world.afterLines (visitLine? visit).toList, world.untouched_afterLines _, ?_⟩⟩
      rw [addVisits, logAll_bind_apply, hfile]

/-- What the second scan met besides adds nothing to the corpus. -/
theorem together_addVisits (hpaths : filesOf directory met' = paths)
    (hcommon : filesOf directory met = paths.filter common)
    (hshares : ∀ {tree tree'}, T tree tree' → Shares maxLines common paths tree tree')
    (h : World.Beside T first second) :
    Together (World.Beside T) (fun added added' => added.2 = added'.2)
      (addVisits tools language maxLines directory met used corpus first)
      (addVisits tools language maxLines directory met' used' corpus second) := by
  induction paths generalizing met met' used used' corpus first second with
  | nil =>
    have hnone : ∀ path ∈ filesOf directory met, first.tree.TooLong maxLines path := by
      simp [hcommon]
    have hnone' : ∀ path ∈ filesOf directory met', second.tree.TooLong maxLines path := by
      simp [hpaths]
    obtain ⟨after, hrun, hsame⟩ := addVisits_of_tooLong tools language used corpus hnone
    obtain ⟨after', hrun', hsame'⟩ := addVisits_of_tooLong tools language used' corpus hnone'
    rw [hrun, hrun']
    exact .returned rfl (h.untouched hsame hsame')
  | cons path paths ih =>
    have hothers : ∀ {tree tree'}, T tree tree' → Shares maxLines common paths tree tree' :=
      fun htrees other hother => hshares htrees other (List.mem_cons_of_mem _ hother)
    -- The second scan always comes to this path next; the first one does only if it is common.
    obtain ⟨rest', hrest', hnext'⟩ := addVisits_next (σ := σ) tools language maxLines hpaths
    obtain ⟨logged', hlogged', hrun'⟩ := hnext' used' corpus second
    rw [hrun']
    cases hpath : common path with
    | true =>
      rw [List.filter_cons_of_pos hpath] at hcommon
      obtain ⟨rest, hrest, hnext⟩ := addVisits_next (σ := σ) tools language maxLines hcommon
      obtain ⟨logged, hlogged, hrun⟩ := hnext used corpus first
      rw [hrun]
      have hboth := h.untouched hlogged hlogged'
      refine together_bind (together_addFile hboth
        ((hshares hboth.trees path List.mem_cons_self).1 hpath)) ?_
      rintro added _ first second rfl hworlds
      exact ih hrest' hrest hothers hworlds
    | false =>
      rw [List.filter_cons_of_neg (by simp [hpath])] at hcommon
      have hboth := h.untouched (.refl first) hlogged'
      obtain ⟨after, hadd, hsame⟩ := addFile_of_tooLong tools language corpus
        ((hshares hboth.trees path List.mem_cons_self).2 hpath)
      rw [Chance.bind_apply, hadd]
      exact ih hrest' hcommon hothers (hboth.untouched (.refl first) hsame)

/-- Both scans make the same corpus. -/
theorem together_buildCorpus {patterns : Value} {rules : ScanRules} (hlines : 1 ≤ maxLines)
    (hrules : ScanRules.ofValues (.texts language.suffixes) patterns = .ok rules)
    (haskable : FileTree.unaskable? directory ≠ some .nullCharacter)
    (hcommon : first.tree.sourceFiles directory rules
      = (second.tree.sourceFiles directory rules).filter common)
    (hshares : ∀ {tree tree'}, T tree tree' →
      Shares maxLines common (second.tree.sourceFiles directory rules) tree tree')
    (h : World.Beside T first second) :
    Together (World.Beside T) (· = ·)
      (buildCorpus tools directory (.text language.name) (.int maxLines) patterns first)
      (buildCorpus tools directory (.text language.name) (.int maxLines) patterns second) := by
  obtain ⟨start, hstart, hbuild⟩ := buildCorpus_apply tools hlines hrules haskable first
  obtain ⟨start', hstart', hbuild'⟩ := buildCorpus_apply tools hlines hrules haskable second
  -- Between two stretches that only log, both passes add the same files.
  have hadded : Together (World.Beside T) (fun added added' => added.2 = added'.2)
      (addVisits tools language maxLines directory (first.tree.visits directory rules) 0 .empty
        start)
      (addVisits tools language maxLines directory (second.tree.visits directory rules) 0 .empty
        start') :=
    together_addVisits rfl hcommon hshares (h.untouched hstart hstart')
  rcases hrun : addVisits tools language maxLines directory (first.tree.visits directory rules) 0
    .empty start with ⟨result, added⟩
  rcases hrun' : addVisits tools language maxLines directory (second.tree.visits directory rules) 0
    .empty start' with ⟨result', added'⟩
  rw [hrun, hrun'] at hadded
  obtain ⟨after, hbuilt, hsame⟩ := hbuild result added hrun
  obtain ⟨after', hbuilt', hsame'⟩ := hbuild' result' added' hrun'
  rw [hbuilt, hbuilt']
  cases hadded with
  | returned hresult hworlds => exact .returned hresult (hworlds.untouched hsame hsame')
  | stopped => exact .stopped _ _ _

end Sources

/-! ## Up to the pass that mutates -/

/-- Whether two trees are the two given ones. -/
def Are (tree tree' first second : FileTree) : Prop := first = tree ∧ second = tree'

section Gathering

variable {added : Location → Option Entry} {tree tree' : FileTree} {plan : Plan}
  {first second : World σ}

theorem together_ensureOutputDirectory {directory : Path} (hjoins : tree.Joins added tree')
    (hgrounded : tree.Grounded) (hwritten : directory.IsWritten)
    (havoids : (tree.withDirectory directory).Avoids added directory)
    (h : World.Beside (Are tree tree') first second) :
    Together (World.Beside (Are (tree.withDirectory directory) (tree'.withDirectory directory)))
      (fun _ _ => (tree.withDirectory directory).isPresent directory = .ok true)
      (ensureOutputDirectory directory first) (ensureOutputDirectory directory second) := by
  obtain ⟨hfirst, hsecond⟩ := h.trees
  have hsame := hjoins.isPresent hgrounded havoids.before
  rw [ensureOutputDirectory_apply, ensureOutputDirectory_apply, hfirst, hsecond, hsame]
  unfold FileTree.withDirectory at havoids ⊢
  rw [hsame]
  rcases hpresent : tree.isPresent directory with fault | _ | _
  · exact .stopped _ _ _
  · rw [hpresent] at havoids
    obtain ⟨hresult, -⟩ := hjoins.ensureDirectories hgrounded hwritten havoids
    dsimp only at hresult ⊢
    rcases hmade : tree.ensureDirectories directory with ⟨fault | ⟨⟨⟩⟩, after⟩ <;>
      rcases hmade' : tree'.ensureDirectories directory with ⟨fault' | ⟨⟨⟩⟩, after'⟩ <;>
      rw [hmade, hmade'] at hresult <;> cases hresult
    · exact .stopped _ _ _
    -- Both have made it, or neither has.
    · obtain ⟨place, hplace, hentry⟩ := FileTree.ensureDirectories_leads hmade
      refine .returned (FileTree.isPresent_of_locate hplace (by simp [hentry])) ?_
      have hboth : World.Beside (Are after after') { first with tree := after }
          { second with tree := after' } := { h with trees := ⟨rfl, rfl⟩ }
      exact hboth.after _
  · exact .returned hpresent h

/-- Both scans for the sources of a plan find what its rules are after in their files. -/
theorem together_scan (h : World.Beside (Are tree tree') first second) :
    Together (World.Beside (Are tree tree'))
      (fun files files' =>
        FileTree.unaskable? plan.inputDirectory ≠ some .nullCharacter ∧
        ∃ rules, plan.rules = .ok rules ∧ files = tree.sourceFiles plan.inputDirectory rules ∧
          files' = tree'.sourceFiles plan.inputDirectory rules)
      (scan plan.inputDirectory (.texts plan.language.suffixes) (.texts plan.ignorePatterns) first)
      (scan plan.inputDirectory (.texts plan.language.suffixes) (.texts plan.ignorePatterns)
        second) := by
  obtain ⟨hfirst, hsecond⟩ := h.trees
  -- Rules that cannot be read stop both scans.
  cases hrules : plan.rules with
  | error failure =>
    have hrefused : ScanRules.ofValues (.texts plan.language.suffixes) (.texts plan.ignorePatterns)
        = .error failure := hrules
    rw [scan, scanRules, hrefused]
    exact .stopped _ _ _
  | ok rules =>
    obtain ⟨scanned, hscanned, hsame⟩ := scanRules_apply hrules first
    obtain ⟨scanned', hscanned', hsame'⟩ := scanRules_apply hrules second
    have hboth := h.untouched hsame hsame'
    rw [scan, Chance.bind_apply, Chance.bind_apply, hscanned, hscanned']
    dsimp only
    -- So does a path with a null character.
    by_cases hnull : FileTree.unaskable? plan.inputDirectory = some .nullCharacter
    · rw [visits, if_pos hnull]
      exact .stopped _ _ _
    · rw [Chance.bind_apply, Chance.bind_apply, visits_apply rules hnull, visits_apply rules hnull]
      dsimp only
      rw [logAll_bind_apply, logAll_bind_apply]
      -- What is met is that of the files, which neither the rules nor the lines have touched.
      refine .returned ⟨hnull, rules, rfl, ?_, ?_⟩
        (hboth.untouched (World.untouched_afterLines _ _) (World.untouched_afterLines _ _))
      · rw [← hfirst, hsame.tree]
        rfl
      · rw [← hsecond, hsame'.tree]
        rfl

/-- Both runs find what scans of their files find. -/
theorem together_survey (hjoins : tree.Joins added tree') (hgrounded : tree.Grounded)
    (hwritten : plan.outputDirectory.IsWritten)
    (havoids : (tree.withDirectory plan.outputDirectory).Avoids added plan.outputDirectory)
    (h : World.Beside (Are tree tree') first second) :
    Together (World.Beside (Are (tree.withDirectory plan.outputDirectory)
        (tree'.withDirectory plan.outputDirectory)))
      (fun files files' =>
        (tree.withDirectory plan.outputDirectory).isPresent plan.outputDirectory = .ok true ∧
        FileTree.unaskable? plan.inputDirectory ≠ some .nullCharacter ∧
        ∃ rules, plan.rules = .ok rules ∧
          files = (tree.withDirectory plan.outputDirectory).sourceFiles plan.inputDirectory rules ∧
          files' = (tree'.withDirectory plan.outputDirectory).sourceFiles plan.inputDirectory rules)
      (survey plan first) (survey plan second) := by
  refine together_bind (together_ensureOutputDirectory hjoins hgrounded hwritten havoids h) ?_
  -- The scans go over the trees that have the output directory.
  intro _ _ first second hpresent hworlds
  exact (together_scan hworlds).imp fun files files' hfound => ⟨hpresent, hfound⟩

/-- Both runs make the same corpus, if they need one. -/
theorem together_planCorpus {tools : Toolchain} {common : Path → Bool} {rules : ScanRules}
    (hlines : 1 ≤ plan.maxLines) (hrules : plan.rules = .ok rules)
    (haskable : FileTree.unaskable? plan.inputDirectory ≠ some .nullCharacter)
    (hfinds : tree.sourceFiles plan.inputDirectory rules
      = (tree'.sourceFiles plan.inputDirectory rules).filter common)
    (hshares : Shares plan.maxLines common (tree'.sourceFiles plan.inputDirectory rules) tree tree')
    (h : World.Beside (Are tree tree') first second) :
    Together (World.Beside (Are tree tree')) (· = ·)
      (planCorpus tools plan first) (planCorpus tools plan second) := by
  rw [planCorpus]
  split
  -- The plan has a corpus of all sources, and both runs build it.
  · rw [map_eq_pure_bind]
    obtain ⟨hfirst, hsecond⟩ := h.trees
    have hfound : first.tree.sourceFiles plan.inputDirectory rules
        = (second.tree.sourceFiles plan.inputDirectory rules).filter common := by
      rw [hfirst, hsecond]
      exact hfinds
    refine together_bind (together_buildCorpus hlines hrules haskable hfound ?_ h) ?_
    · rintro _ _ ⟨rfl, rfl⟩
      rw [hsecond]
      exact hshares
    · rintro corpus _ first second rfl hworlds
      exact .returned rfl hworlds
  · exact .returned rfl h

/-- Both runs gather the same corpus, and the second one some sources besides. -/
theorem together_gather {tools : Toolchain} {common : Path → Bool} (hjoins : tree.Joins added tree')
    (hgrounded : tree.Grounded) (hlines : 1 ≤ plan.maxLines)
    (hwritten : plan.outputDirectory.IsWritten)
    (havoids : (tree.withDirectory plan.outputDirectory).Avoids added plan.outputDirectory)
    (hfinds : ∀ rules, plan.rules = .ok rules →
      (tree.withDirectory plan.outputDirectory).sourceFiles plan.inputDirectory rules
        = ((tree'.withDirectory plan.outputDirectory).sourceFiles plan.inputDirectory
            rules).filter common)
    (hshares : ∀ rules, plan.rules = .ok rules →
      (tree.withDirectory plan.outputDirectory).isPresent plan.outputDirectory = .ok true →
      Shares plan.maxLines common
        ((tree'.withDirectory plan.outputDirectory).sourceFiles plan.inputDirectory rules)
        (tree.withDirectory plan.outputDirectory) (tree'.withDirectory plan.outputDirectory))
    (h : World.Beside (Are tree tree') first second) :
    Together (World.Beside (Are (tree.withDirectory plan.outputDirectory)
        (tree'.withDirectory plan.outputDirectory)))
      (fun found found' => found.2 = found'.2 ∧
        (tree.withDirectory plan.outputDirectory).isPresent plan.outputDirectory = .ok true ∧
        ∃ rules, plan.rules = .ok rules ∧ found.1 = found'.1.filter common ∧
          found'.1 = (tree'.withDirectory plan.outputDirectory).sourceFiles plan.inputDirectory
            rules)
      (gather tools plan first) (gather tools plan second) := by
  rw [gather_eq]
  -- Both find their sources first, and build a corpus then.
  refine together_bind (together_survey hjoins hgrounded hwritten havoids h) ?_
  rintro _ _ first second ⟨hpresent, haskable, rules, hrules, rfl, rfl⟩ hworlds
  refine together_bind (together_planCorpus hlines hrules haskable (hfinds rules hrules)
    (hshares rules hrules hpresent) hworlds) ?_
  rintro corpus _ first second rfl hworlds
  exact .returned ⟨rfl, hpresent, rules, hrules, hfinds rules hrules, rfl⟩ hworlds

end Gathering

/-! ## The pass that mutates -/

/-- Whether reports of some files tell of the common ones what others tell, and of the rest that
they were passed over. -/
inductive Interleaves (common : Path → Bool) (maxLines : Nat) :
    List Path → List SourceReport → List SourceReport → Prop
  | nil : Interleaves common maxLines [] [] []
  | shared {path : Path} {paths : List Path} {report : SourceReport}
      {reports reports' : List SourceReport} (hpath : common path = true)
      (hrest : Interleaves common maxLines paths reports reports') :
      Interleaves common maxLines (path :: paths) (report :: reports) (report :: reports')
  | passedOver {path : Path} {paths : List Path} {reports reports' : List SourceReport}
      (hpath : common path = false) (hrest : Interleaves common maxLines paths reports reports') :
      Interleaves common maxLines (path :: paths) reports (skippedReport maxLines path :: reports')

/-- Where all files are common, the reports are the same. -/
theorem Interleaves.eq_of_forall {common : Path → Bool} {maxLines : Nat} {paths : List Path}
    {reports reports' : List SourceReport} (h : Interleaves common maxLines paths reports reports')
    (hall : ∀ path ∈ paths, common path = true) : reports = reports' := by
  induction h with
  | nil => rfl
  | shared _ _ ih => rw [ih fun path hpath => hall path (List.mem_cons_of_mem _ hpath)]
  | passedOver hpath => cases hpath.symm.trans (hall _ List.mem_cons_self)

section Mutating

variable [Chooser σ] {T : FileTree → FileTree → Prop} {tools : Toolchain} {plan : Plan}
  {corpus : Option Corpus} {path : Path} {common : Path → Bool} {paths : List Path}
  {first second : World σ}

/-- A source that both runs have is mutated alike. -/
theorem together_mutateFile
    (hwrite : ∀ mutants, Blind (World.Beside (σ := σ) T)
      (writeMutants plan.outputDirectory path mutants))
    (h : World.Beside T first second) (hread : second.tree.read path = first.tree.read path) :
    Together (World.Beside T) (· = ·) (mutateFile tools plan corpus path first)
      (mutateFile tools plan corpus path second) := by
  rw [mutateFile, log_bind_apply, log_bind_apply]
  refine together_bind (together_readSource (h.after _) hread) ?_
  rintro text _ first second rfl hworlds
  exact together_of_blind (blind_mutateText_by (World.loading_beside T) hwrite corpus text) hworlds

/-- What the second run mutates besides is passed over. -/
theorem together_mutateFiles
    (hshares : ∀ {tree tree'}, T tree tree' → Shares plan.maxLines common paths tree tree')
    (hwrite : ∀ source mutants, Blind (World.Beside (σ := σ) T)
      (writeMutants plan.outputDirectory source mutants))
    (h : World.Beside T first second) :
    Together (World.Beside T) (Interleaves common plan.maxLines paths)
      (mutateFiles tools plan corpus (paths.filter common) first)
      (mutateFiles tools plan corpus paths second) := by
  induction paths generalizing first second with
  | nil => exact .returned .nil h
  | cons path paths ih =>
    have hothers : ∀ {tree tree'}, T tree tree' → Shares plan.maxLines common paths tree tree' :=
      fun htrees other hother => hshares htrees other (List.mem_cons_of_mem _ hother)
    have hsource := hshares h.trees path List.mem_cons_self
    -- A source that only the second run has is too long, and is skipped.
    cases hpath : common path with
    | true =>
      rw [List.filter_cons_of_pos hpath, mutateFiles, mutateFiles]
      refine together_bind (together_mutateFile (hwrite path) h (hsource.1 hpath)) ?_
      rintro report _ first second rfl hworlds
      refine together_bind (ih hothers hworlds) ?_
      intro reports reports' first second hreports hworlds
      exact .returned (.shared hpath hreports) hworlds
    | false =>
      obtain ⟨after, hrun, hsame⟩ := mutateFile_of_tooLong tools corpus (hsource.2 hpath)
      -- Only the second run has a report to put in front, so the first one gets an empty step.
      rw [List.filter_cons_of_neg (by simp [hpath]), mutateFiles, Chance.bind_apply, hrun,
        ← bind_pure (mutateFiles tools plan corpus (paths.filter common))]
      refine together_bind (ih hothers (h.untouched (.refl first) hsame)) ?_
      intro reports reports' first second hreports hworlds
      exact .returned (.passedOver hpath hreports) hworlds

end Mutating

end Run

/-! ## Trees to which both runs write -/

/-- What lasts while two runs write the same to two trees, the second of which has more entries. -/
structure FileTree.Accompanies (added : Location → Option Entry) (directory : Path)
    (maxLines : Nat) (common : Path → Bool) (paths : List Path) (first second : FileTree) :
    Prop where
  joins : first.Joins added second
  grounded : first.Grounded
  grounded' : second.Grounded
  present : first.isPresent directory = .ok true
  names : ∀ name, Plain name → first.Avoids added (directory.below [name])
  sources : ∀ path ∈ paths, common path = true → first.Avoids added path
  extras : ∀ path ∈ paths, common path = false → ∃ location bytes text,
    second.locate path = .ok location ∧ added location = some (.file bytes) ∧
      Utf8.decode bytes = .ok text ∧ Lines.within text maxLines = false

namespace FileTree.Accompanies

variable {added : Location → Option Entry} {directory : Path} {maxLines : Nat}
  {common : Path → Bool} {paths : List Path} {first second : FileTree}

/-- The common files are read alike in both trees, and the others are too long. -/
theorem shares (h : Accompanies added directory maxLines common paths first second) :
    Run.Shares maxLines common paths first second := by
  refine fun path hpath => ⟨fun hcommon => ?_, fun hextra => ?_⟩
  · exact h.joins.read_eq h.grounded (h.sources path hpath hcommon)
  · obtain ⟨location, bytes, text, hlocation, hadded, hdecode, hlong⟩ := h.extras path hpath hextra
    refine ⟨text, ⟨bytes, read_eq_ok_iff.mpr ⟨location, hlocation, ?_⟩, hdecode⟩, hlong⟩
    exact fileAt_eq_some_iff.mpr (h.joins.new location _ hadded)

/-- A file in the output directory is written to both trees, or to none for the same fault. -/
theorem write (h : Accompanies added directory maxLines common paths first second) {name : String}
    (hname : Plain name) (bytes : Bytes) :
    (∃ fault, first.write (directory.below [name]) bytes = .error fault ∧
        second.write (directory.below [name]) bytes = .error fault) ∨
      ∃ after after', first.write (directory.below [name]) bytes = .ok after ∧
        second.write (directory.below [name]) bytes = .ok after' ∧
        Accompanies added directory maxLines common paths after after' := by
  rcases h.joins.write h.grounded (h.names name hname) bytes with
    hfault | ⟨after, after', hafter, hafter', hjoins⟩
  · exact .inl hfault
  refine .inr ⟨after, after', hafter, hafter', ?_⟩
  obtain ⟨location, htarget, rfl⟩ := write_eq_ok_iff.mp hafter
  obtain ⟨location', htarget', rfl⟩ := write_eq_ok_iff.mp hafter'
  have hput := mayPut_of_writeTarget h.grounded htarget bytes
  have hput' := mayPut_of_writeTarget h.grounded' htarget' bytes
  have hway := fun path => onWay_addsFiles hput.addsFiles path
  -- All that was said of both trees is kept by the new file, since it is avoided by the same paths.
  exact {
    joins := hjoins
    grounded := hput.grounded h.grounded
    grounded' := hput'.grounded h.grounded'
    present := isPresent_keeps hput.keeps h.present
    names := fun name hname => (h.names name hname).mono (hway _)
    sources := fun path hpath hcommon => (h.sources path hpath hcommon).mono (hway path)
    extras := fun path hpath hextra => by
      obtain ⟨place, written, text, hplace, hrest⟩ := h.extras path hpath hextra
      exact ⟨place, written, text, locate_keeps hput'.keeps hplace, hrest⟩ }

end FileTree.Accompanies

namespace Run

section Writing

variable {added : Location → Option Entry} {directory : Path} {maxLines : Nat}
  {common : Path → Bool} {paths : List Path}

/-- Mutants are written to both trees alike. -/
theorem blind_writeMutants_accompanied (source : Path) (mutants : List Mutant) :
    Blind (World.Beside (σ := σ) (FileTree.Accompanies added directory maxLines common paths))
      (writeMutants directory source mutants) := by
  refine blind_writeMutants_by (World.loading_beside _).toPaired ?_ ?_ mutants
  · -- What is there already is not made.
    intro first second h
    have hpresent := FileTree.isPresent_keeps h.trees.joins.keeps h.trees.present
    rw [ensureOutputDirectory_apply, ensureOutputDirectory_apply, h.trees.present, hpresent]
    exact ⟨rfl, h⟩
  · intro index bytes first second h
    rw [writeOutput_apply, writeOutput_apply]
    rcases h.trees.write (MutantName.plain_compose source.name index) bytes with
      ⟨fault, hfirst, hsecond⟩ | ⟨after, after', hfirst, hsecond, htrees⟩
    · rw [hfirst, hsecond]
      exact ⟨rfl, h⟩
    · rw [hfirst, hsecond]
      have hboth : World.Beside
          (FileTree.Accompanies added directory maxLines common paths)
          { first with tree := after } { second with tree := after' } := { h with trees := htrees }
      exact ⟨rfl, hboth.after _⟩

end Writing

/-! ## Whole runs -/

/-- What a plan needs to overlook whatever a second tree has besides the entries of the first. -/
structure Overlooks (added : Location → Option Entry) (common : Path → Bool) (plan : Plan)
    (tree tree' : FileTree) : Prop where
  joins : tree.Joins added tree'
  grounded : tree.Grounded
  grounded' : tree'.Grounded
  written : plan.outputDirectory.IsWritten
  names : ∀ name, FileTree.Plain name →
    (tree.withDirectory plan.outputDirectory).Avoids added (plan.outputDirectory.below [name])
  finds : ∀ rules, plan.rules = .ok rules →
    (tree.withDirectory plan.outputDirectory).sourceFiles plan.inputDirectory rules
      = ((tree'.withDirectory plan.outputDirectory).sourceFiles plan.inputDirectory
          rules).filter common
  sources : ∀ rules, plan.rules = .ok rules →
    ∀ path ∈ (tree'.withDirectory plan.outputDirectory).sourceFiles plan.inputDirectory rules,
      common path = true → (tree.withDirectory plan.outputDirectory).Avoids added path
  extras : ∀ rules, plan.rules = .ok rules →
    ∀ path ∈ (tree'.withDirectory plan.outputDirectory).sourceFiles plan.inputDirectory rules,
      common path = false → ∃ location bytes text,
        (tree'.withDirectory plan.outputDirectory).locate path = .ok location ∧
          added location = some (.file bytes) ∧ Utf8.decode bytes = .ok text ∧
          Lines.within text plan.maxLines = false

section Whole

variable {added : Location → Option Entry} {common : Path → Bool} {plan : Plan}
  {tree tree' : FileTree}

/-- The way to the output directory avoids what is added. -/
theorem Overlooks.avoids (h : Overlooks added common plan tree tree') :
    (tree.withDirectory plan.outputDirectory).Avoids added plan.outputDirectory :=
  (h.names "a" ⟨by decide, by decide, by decide⟩).above

/-- Once the output directory is there, both trees are such as the pass that mutates needs. -/
theorem Overlooks.accompanies (h : Overlooks added common plan tree tree') {rules : ScanRules}
    (hrules : plan.rules = .ok rules)
    (hpresent : (tree.withDirectory plan.outputDirectory).isPresent plan.outputDirectory
      = .ok true) :
    FileTree.Accompanies added plan.outputDirectory plan.maxLines common
      ((tree'.withDirectory plan.outputDirectory).sourceFiles plan.inputDirectory rules)
      (tree.withDirectory plan.outputDirectory) (tree'.withDirectory plan.outputDirectory) where
  joins := h.joins.withDirectory h.grounded h.written h.avoids
  grounded := FileTree.grounded_withDirectory h.grounded _
  grounded' := FileTree.grounded_withDirectory h.grounded' _
  present := hpresent
  names := h.names
  sources := h.sources rules hrules
  extras := h.extras rules hrules

/-- Both runs are opened alike. -/
theorem Opening.blind {settings : Settings} {opening : Run σ Unit} {R : World σ → World σ → Prop}
    (h : Opening settings opening) (hR : World.Paired R) : Blind R opening := by
  cases h with
  | given => exact blind_pure ()
  | seeded =>
    unfold seed
    split
    · exact blind_fail _
    · exact blind_pure ()
    · exact fun first second h => ⟨rfl, hR.withChance h _⟩

/-- Whether settings pass depends on nothing of the files but the input directory. -/
theorem check_congr {settings : Settings}
    (h : tree'.isDirectory settings.inputDirectory = tree.isDirectory settings.inputDirectory) :
    settings.check tree' = settings.check tree := by
  unfold Settings.check Settings.checkInputDirectory
  rw [h]

/-- Whether a summary tells what another one does, except that it reports more sources, each of
them as passed over. -/
structure TellsMore (common : Path → Bool) (plan : Plan) (tree' : FileTree)
    (summary summary' : Summary) : Prop where
  same : summary' = { summary with sources := summary'.sources }
  sources : ∃ rules, plan.rules = .ok rules ∧
    Interleaves common plan.maxLines
      ((tree'.withDirectory plan.outputDirectory).sourceFiles plan.inputDirectory rules)
      summary.sources summary'.sources

variable [Chooser σ] {tools : Toolchain} {settings : Settings} {opening : Run σ Unit}
  {first second : World σ}

/-- A plan is carried out alike in both worlds. -/
theorem together_carryOut (hlines : 1 ≤ plan.maxLines)
    (hoverlooks : Overlooks added common plan tree tree')
    (h : World.Beside (Are tree tree') first second) :
    Together (World.Beside fun first second => first.Joins added second)
      (TellsMore common plan tree') (carryOut tools plan first) (carryOut tools plan second) := by
  rw [carryOut, carryOutBy, log_bind_apply, log_bind_apply]
  refine together_bind (together_gather hoverlooks.joins hoverlooks.grounded hlines
    hoverlooks.written hoverlooks.avoids hoverlooks.finds
    (fun rules hrules hpresent => (hoverlooks.accompanies hrules hpresent).shares) (h.after _)) ?_
  rintro ⟨files, corpus⟩ ⟨files', _⟩ first second ⟨rfl, hpresent, rules, hrules, hfiles, hfiles'⟩
    hworlds
  dsimp only at hfiles hfiles' ⊢
  subst hfiles hfiles'
  -- From here on files are written, so the relation of the trees is the one that puts up with that.
  have hboth : World.Beside (FileTree.Accompanies added plan.outputDirectory plan.maxLines common
      ((tree'.withDirectory plan.outputDirectory).sourceFiles plan.inputDirectory rules))
      first second := by
    apply hworlds.mono
    obtain ⟨hfirst, hsecond⟩ := hworlds.trees
    rw [hfirst, hsecond]
    exact hoverlooks.accompanies hrules hpresent
  refine together_bind (together_mutateFiles (fun htrees => htrees.shares)
    (fun source mutants => blind_writeMutants_accompanied source mutants) hboth) ?_
  intro sources sources' first second hsources hworlds
  rw [log_bind_apply, log_bind_apply]
  refine .returned ⟨rfl, rules, hrules, hsources⟩ ?_
  -- Only the last lines differ, since they count the sources.
  exact (hworlds.untouched (World.untouched_logged _ _) (World.untouched_logged _ _)).mono
    hworlds.trees.joins

/-- Runs over two trees, of which the second has only more of what the settings overlook, return
both or stop alike, and leave the same but for what is reported of that. -/
theorem together_mutateAfter (hopening : Opening settings opening)
    (hinput : tree'.isDirectory settings.inputDirectory = tree.isDirectory settings.inputDirectory)
    (hoverlooks : ∀ plan, settings.check tree = .ok plan → Overlooks added common plan tree tree')
    (chance : σ) (grammars : Grammars) :
    Together (World.Beside fun first second => first.Joins added second)
      (fun summary summary' => ∃ plan, settings.check tree = .ok plan ∧
        TellsMore common plan tree' summary summary')
      (mutateAfter opening tools settings (World.fresh tree chance grammars))
      (mutateAfter opening tools settings (World.fresh tree' chance grammars)) := by
  have hstart : World.Beside (Are tree tree') (World.fresh tree chance grammars)
      (World.fresh tree' chance grammars) := ⟨⟨rfl, rfl⟩, rfl, rfl, rfl, rfl⟩
  refine together_traced hstart ?_
  intro first second h
  obtain ⟨hfirst, hsecond⟩ := h.trees
  rw [Chance.bind_apply, Chance.bind_apply, tree_apply, tree_apply]
  dsimp only
  rw [hfirst, hsecond, check_congr hinput]
  -- Settings that are refused stop both runs at once.
  cases hcheck : settings.check tree with
  | error failure => exact .stopped _ _ _
  | ok plan =>
    have hlines := Settings.checkMaxLines_pos (Settings.check_eq_ok_iff.mp hcheck).maxLines
    rw [Chance.bind_apply, Chance.bind_apply, ofExcept_ok_apply, ofExcept_ok_apply]
    refine together_bind (together_of_blind (hopening.blind (World.loading_beside _).toPaired) h) ?_
    intro _ _ first second _ hworlds
    have hcarried : Together (World.Beside fun first second => first.Joins added second)
        (TellsMore common plan tree') (carryOut tools plan first) (carryOut tools plan second) :=
      together_carryOut hlines (hoverlooks plan hcheck) hworlds
    -- The runs have to be variables before the cases of how they ended can be told apart.
    generalize carryOut tools plan first = one at hcarried ⊢
    generalize carryOut tools plan second = other at hcarried ⊢
    cases hcarried with
    | returned hresult hworlds => exact .returned ⟨plan, rfl, hresult⟩ hworlds
    | stopped => exact .stopped _ _ _

end Whole

end Run

end SourceMutation
