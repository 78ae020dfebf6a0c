import SourceMutation.Proofs.Reruns
import SourceMutation.Proofs.VisitOrder

/-!
# Output apart from the input

Whether a run reads what it has written itself, and whether it leaves its input alone, shows in its
events.  In the usual case it can be told before the run, by looking at the files: the output
directory is not below the input directory, there are no links below the input directory, and no
links among the names of the output directory (`Plan.OutputApart`).

- Such a run reads nothing where it writes (`Run.apart_of_outputApart`).
- So it comes to the same as a run that reads all of its sources first
  (`Run.readFirst_of_outputApart`).
- And it leaves its input alone, so that it can be run again (`Run.leavesInput_of_outputApart`).
-/

namespace SourceMutation

variable {σ : Type}

/-! ## Where sources and mutants stand -/

/-- Whether the output of a plan is apart from its input, in a tree in which the output directory
has been made. -/
structure Plan.OutputApart (plan : Plan) (made : FileTree) : Prop where
  ordinary : made.AllNames FileTree.Ordinary
  /-- Output does not go below the input directory. -/
  notBelow : ∀ input output, made.locate plan.inputDirectory = .ok input →
    made.locate plan.outputDirectory = .ok output → ¬ input <+: output
  /-- What is read below the input directory stands there itself. -/
  inputLinks : ∀ input, made.locate plan.inputDirectory = .ok input →
    ∀ names target, made.entry? (input ++ names) ≠ some (.link target)
  /-- What is written in the output directory stands there itself. -/
  outputLinks : ∀ output, made.locate plan.outputDirectory = .ok output →
    ∀ name target, made.entry? (output ++ [name]) ≠ some (.link target)

namespace Plan.OutputApart

variable {plan : Plan} {made : FileTree} (h : plan.OutputApart made)

include h

/-- Without links, a source stands where its names lead from the input directory. -/
theorem locate_source (hgrounded : made.Grounded) {rules : ScanRules} {path : Path}
    (hpath : path ∈ made.sourceFiles plan.inputDirectory rules)
    (haskable : FileTree.unaskable? path = none) :
    ∃ input above name, made.locate plan.inputDirectory = .ok input ∧
      made.locate path = .ok (input ++ above ++ [name]) := by
  obtain ⟨input, found, hinput, -, hfound, rfl⟩ := FileTree.exists_of_mem_sourceFiles hpath
  have hwalk : found ∈ made.filesIn rules plan.inputDirectory made.depth (input ++ []) [] := by
    rwa [List.append_nil]
  obtain ⟨entry, hentry, hnone⟩ := FileTree.entry_of_mem_filesIn hwalk
  -- What was found is no directory, and no link either.
  have hstands : made.Stands (input ++ found) := by
    cases entry with
    | file bytes => exact .inr ⟨bytes, hentry⟩
    | directory => exact absurd rfl hnone
    | link target => exact absurd hentry (h.inputLinks input hinput found target)
  have hlocate : made.locate (plan.inputDirectory.below found) = .ok (input ++ found) :=
    FileTree.locate_eq_ok_iff.mpr ⟨haskable, FileTree.follow_append hgrounded h.ordinary
      (FileTree.locate_eq_ok_iff.mp hinput).2 hstands⟩
  obtain rfl | ⟨above, name, rfl⟩ := List.eq_nil_or_concat' found
  · obtain ⟨_, _, hcons⟩ := FileTree.exists_of_mem_filesIn hfound
    cases hcons
  · exact ⟨input, above, name, hinput, by rw [hlocate, List.append_assoc]⟩

/-- No name in the output directory stands below the input directory. -/
theorem ne_below {input output : Location} (hinput : made.locate plan.inputDirectory = .ok input)
    (houtput : made.locate plan.outputDirectory = .ok output) (name : String)
    (above : List String) (last : String) : output ++ [name] ≠ input ++ above ++ [last] := by
  intro heq
  obtain ⟨rfl, -⟩ := List.append_inj' heq rfl
  exact h.notBelow _ _ hinput houtput (List.prefix_append _ _)

end Plan.OutputApart

/-! ## What a run reads -/

theorem World.mem_readings {world : World σ} {path : Path} :
    path ∈ world.readings ↔ ∃ bytes, .read path bytes ∈ world.events := by
  rw [readings, List.mem_filterMap]
  constructor
  · rintro ⟨event, hmem, hread⟩
    cases event with
    | read path bytes =>
      cases hread
      exact ⟨bytes, hmem⟩
    | logged | wrote | accepted | tracked => cases hread
  · rintro ⟨bytes, hmem⟩
    exact ⟨_, hmem, rfl⟩

namespace Run

variable {tools : Toolchain} {settings : Settings} {plan : Plan} {opening : Run σ Unit}
  {summary : Summary} {world : World σ}

/-- Gathering reads no other files than those that it finds. -/
theorem readings_of_gather {files : List Path} {corpus : Option Corpus} {gathered : World σ}
    (h : gather tools plan world = (.ok (files, corpus), gathered)) {path : Path}
    (hpath : path ∈ gathered.readings) : path ∈ world.readings ∨ path ∈ files := by
  rw [gather_eq] at h
  obtain ⟨found, made, hsurvey, hrest⟩ := Chance.bind_eq_ok.mp h
  obtain ⟨built, between, hcorpus, hlast⟩ := Chance.bind_eq_ok.mp hrest
  cases hlast
  -- Up to the corpus pass nothing is read.
  have hquiet : World.SameReadings world made := by
    have hR := World.tolerant_sameReadings (σ := σ)
    have hsame : Respects World.SameReadings (survey plan : Run σ (List Path)) :=
      respects_bind hR (respects_ensureOutputDirectory hR _ fun _ _ => rfl) fun _ =>
        respects_scan hR _ _ _
    exact hsame.of_run hsurvey
  obtain ⟨-, -, rules, hrules, -, rfl⟩ := survey_eq_ok hsurvey
  obtain ⟨before, hbefore, read, -, hreadings, hall⟩ := readsAlong_planCorpus tools hrules made
  rw [hcorpus] at hreadings hall
  obtain rfl := hall _ rfl
  rw [hreadings, hquiet] at hpath
  refine (List.mem_append.mp hpath).imp id fun hmem => ?_
  rw [FileTree.filesOf_visits]
  -- Without a shared corpus nothing is read here; with one, the files are.
  rcases hbefore with rfl | rfl
  · cases hmem
  · exact hmem

variable [Chooser σ]

/-- A plan that is carried out reads nothing but its sources. -/
theorem readings_of_carryOut {carried : World σ}
    (h : carryOut tools plan world = (.ok summary, carried)) {path : Path}
    (hpath : path ∈ carried.readings) :
    path ∈ world.readings ∨ ∃ rules, plan.rules = .ok rules ∧
      path ∈ (world.tree.withDirectory plan.outputDirectory).sourceFiles plan.inputDirectory
        rules := by
  obtain ⟨files, corpus, gathered, sources, mutated, hgathered, hmutated, rfl, rfl⟩ :=
    carryOutBy_eq_ok.mp h
  obtain ⟨htree, rules, hrules, -, hfiles⟩ := gather_finds hgathered
  rw [World.tree_after] at htree
  obtain ⟨read, -, hreadings, hall⟩ := readsAlong_mutateFiles tools plan corpus files gathered
  rw [hmutated] at hreadings hall
  obtain rfl := hall _ rfl
  -- Two lines are logged besides, which read nothing.
  have hstart : World.SameReadings world (world.after (.logged (startLine plan))) :=
    World.sameReadings_after rfl world
  have hend : World.SameReadings mutated
      (mutated.after (.logged (endLine (summarize plan corpus sources)))) :=
    World.sameReadings_after rfl mutated
  rw [hend, hreadings] at hpath
  have hmem : path ∈ world.readings ∨ path ∈ read := by
    rcases List.mem_append.mp hpath with hearlier | hlater
    · rw [← hstart]
      exact readings_of_gather hgathered hearlier
    · exact .inr hlater
  exact hmem.imp id fun hmem => ⟨rules, hrules, htree ▸ hfiles ▸ hmem⟩

/-! ## Whole runs -/

section Whole

variable {tree : GroundedTree} {chance : σ} {grammars : Grammars}
  (hopening : Opening settings opening)
  (h : mutateAfter opening tools settings (World.fresh tree chance grammars) = (.ok summary, world))
  (hplan : settings.check tree = .ok plan)

include hopening h hplan

/-- A run reads nothing but the sources that it finds once there is an output directory. -/
theorem source_of_read {path : Path} {bytes : Bytes} (hread : .read path bytes ∈ world.events) :
    ∃ rules, plan.rules = .ok rules ∧
      path ∈ (tree.withDirectory plan.outputDirectory).sourceFiles plan.inputDirectory rules := by
  obtain ⟨_, opened, carried, hplan', hopened, hcarried, rfl⟩ := mutateAfter_eq_ok h
  cases hplan.symm.trans hplan'
  -- An opening reads nothing and leaves the files alone, so the scan is one of the first tree.
  have htree : opened.tree = tree :=
    (hopening.respects World.tolerant_sameTree).of_run hopened
  have hnone : opened.readings = [] := by
    have hsame : World.SameReadings _ opened :=
      (hopening.respects World.tolerant_sameReadings).of_run hopened
    rw [hsame]
    rfl
  have hpath : path ∈ carried.readings :=
    World.mem_readings.mpr ⟨bytes, by simpa using hread⟩
  have hsource := readings_of_carryOut hcarried hpath
  rw [hnone, htree] at hsource
  exact hsource.resolve_left List.not_mem_nil

/-- A run writes under plain names in its output directory. -/
theorem name_of_wrote {target : Path} {written : Bytes}
    (hwrote : .wrote target written ∈ world.events) :
    ∃ name, FileTree.Plain name ∧ target = plan.outputDirectory.below [name] := by
  obtain ⟨_, place, yields, hplan', -, houtcome⟩ := mutateAfter_outcome hopening h
  cases hplan.symm.trans hplan'
  obtain ⟨yield, -, aim, haim, rfl, -⟩ := houtcome.wrote_iff.mp hwrote
  obtain ⟨name, hname, hbelow⟩ := Yield.mem_targets.mp ⟨aim, haim, rfl⟩
  exact ⟨name, Yield.plain_of_mem_names hname, hbelow.symm⟩

/-- The output directory stood where it stands in the end before anything was written. -/
theorem output_of_mutateAfter :
    ∃ output, (tree.withDirectory plan.outputDirectory).locate plan.outputDirectory = .ok output := by
  obtain ⟨_, opened, carried, hplan', hopened, hcarried, rfl⟩ := mutateAfter_eq_ok h
  cases hplan.symm.trans hplan'
  have htree : opened.tree = tree :=
    (hopening.respects World.tolerant_sameTree).of_run hopened
  obtain ⟨files, corpus, gathered, sources, mutated, hgathered, -, rfl, rfl⟩ :=
    carryOutBy_eq_ok.mp hcarried
  have hmade := (gather_finds hgathered).1
  obtain ⟨output, houtput, -⟩ := locate_of_gather hgathered
  rw [hmade, World.tree_after, htree] at houtput
  exact ⟨output, houtput⟩

variable (hapart : plan.OutputApart (tree.withDirectory plan.outputDirectory))

include hapart

/-- Each mutant is written under its name in the output directory, and through no link. -/
theorem locate_of_wrote {target : Path} {written : Bytes}
    (hwrote : .wrote target written ∈ world.events) :
    ∃ output name,
      (tree.withDirectory plan.outputDirectory).locate plan.outputDirectory = .ok output ∧
      world.tree.locate target = .ok (output ++ [name]) := by
  have hadds := addsFiles_of_mutateAfter hopening h hplan
  obtain ⟨output, houtput⟩ := output_of_mutateAfter hopening h hplan
  obtain ⟨name, hplain, rfl⟩ := name_of_wrote hopening h hplan hwrote
  obtain ⟨location, hlocation⟩ :=
    (mutateAfter_accounted hopening h).written world.tree (.refl _) _ _ hwrote
  -- Only files were added, so a link under the name would have been there before.
  have hlink : ∀ other, world.tree.entry? (output ++ [name]) ≠ some (.link other) :=
    fun other hother => hapart.outputLinks output houtput name other (hadds.link hother)
  have hplace := FileTree.locate_below hplain (FileTree.locate_keeps hadds.keeps houtput) hlink
    hlocation
  exact ⟨output, name, houtput, hplace ▸ hlocation⟩

/-- A run whose output is apart from its input reads nothing where it writes. -/
theorem apart_of_outputApart :
    ∀ event ∈ world.events, ∀ other ∈ world.events, event.Apart world.tree other := by
  intro event hevent other hother
  unfold Event.Apart
  split
  case h_2 => trivial
  case h_1 path bytes target written =>
    have hadds := addsFiles_of_mutateAfter hopening h hplan
    obtain ⟨output, name, houtput, htarget⟩ := locate_of_wrote hopening h hplan hapart hother
    obtain ⟨rules, -, hsource⟩ := source_of_read hopening h hplan hevent
    -- What was read can be asked for, and a source that can be asked for stands below the input.
    obtain ⟨before, after, hevents⟩ := List.append_of_mem hevent
    obtain ⟨location, hlocation, -⟩ :=
      (mutateAfter_accounted hopening h).reads world.tree (.refl _) before path bytes after hevents
    obtain ⟨input, above, last, hinput, hpath⟩ :=
      hapart.locate_source (FileTree.grounded_withDirectory tree.grounded _) hsource
        (FileTree.locate_eq_ok_iff.mp hlocation).1
    rw [htarget, FileTree.locate_keeps hadds.keeps hpath]
    exact fun heq => hapart.ne_below hinput houtput name above last (Except.ok.inj heq)

/-- Such a run comes to the same as one that reads all of its sources first. -/
theorem readFirst_of_outputApart :
    ∃ world', readFirstAfter opening tools settings (World.fresh tree chance grammars)
      = (.ok summary, world') ∧ world'.Alike world :=
  readFirst_of_unspoilt hopening h
    (unspoilt_of_apart (apart_of_outputApart hopening h hplan hapart))

/-- Such a run leaves its input alone. -/
theorem leavesInput_of_outputApart :
    plan.LeavesInput (tree.withDirectory plan.outputDirectory) world.tree := by
  have hadds := addsFiles_of_mutateAfter hopening h hplan
  refine leavesInput_of_apart hopening h hplan (fun target bytes hwrote input more hinput hmore => ?_)
    (apart_of_outputApart hopening h hplan hapart)
  obtain ⟨output, name, houtput, htarget⟩ := locate_of_wrote hopening h hplan hapart hwrote
  obtain ⟨place, hplace, hentry⟩ :=
    FileTree.leadsToDirectory_of_isDirectory (isDirectory_of_check hplan)
  have hkeeps := FileTree.keeps_withDirectory tree plan.outputDirectory
  have hmade := FileTree.locate_keeps hkeeps hplace
  cases hinput.symm.trans (FileTree.locate_keeps hadds.keeps hmade)
  have heq : output ++ [name] = input ++ more := Except.ok.inj (htarget.symm.trans hmore)
  obtain rfl | ⟨above, last, rfl⟩ := List.eq_nil_or_concat' more
  · -- The input directory is still one, so no file was written in its place.
    have hwritten := lastWritten_isSome hwrote hmore
    rw [List.append_nil] at hwritten
    have hnone : world.tree.fileAt input = none := by
      rw [FileTree.fileAt, hadds.keeps.directory (hkeeps.directory hentry)]
    rw [(mutateAfter_accounted hopening h).files world.tree (.refl _)] at hnone
    rw [(Option.or_eq_none_iff.mp hnone).1] at hwritten
    cases hwritten
  · rw [← List.append_assoc] at heq
    exact hapart.ne_below hmade houtput name above last heq

end Whole

/-! ### Two sources of one name -/

/-- The output of that run goes to a directory beside its input. -/
theorem namesakes_outputApart :
    deletionsPlan.OutputApart (namesakesTree.withDirectory deletionsPlan.outputDirectory) := by
  have hinput : (namesakesTree.withDirectory deletionsPlan.outputDirectory).locate
      deletionsPlan.inputDirectory = .ok ["w", "in"] := by decide +kernel
  have houtput : (namesakesTree.withDirectory deletionsPlan.outputDirectory).locate
      deletionsPlan.outputDirectory = .ok ["w", "out"] := by decide +kernel
  have hlinks : ∀ location target, FileTree.entry? (namesakesTree.withDirectory
      deletionsPlan.outputDirectory) location ≠ some (.link target) :=
    FileTree.not_link_of_entries (by decide +kernel)
  exact {
    ordinary := by decide +kernel
    notBelow := by
      intro input output hin hout
      cases hinput.symm.trans hin
      cases houtput.symm.trans hout
      decide
    inputLinks := fun _ _ _ _ => hlinks _ _
    outputLinks := fun _ _ _ _ => hlinks _ _ }

end Run

end SourceMutation
