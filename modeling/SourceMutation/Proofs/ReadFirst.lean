import SourceMutation.Proofs.Contents
import SourceMutation.Proofs.Likeness
import SourceMutation.Proofs.LostMutants

/-!
# Reading first

A run reads its sources one by one and writes mutants in between, so a source may have been written
over before its turn comes.  What it is read as is what was written there last, or else what stood
there at first.  If no source is written over before its turn, the run comes to the same as one that
reads all of its sources first (`Run.mutateAfter_reads_what_stands`).

## How it is shown

- The run that reads first is stated with the same parts: it gathers, reads all files, and mutates
  their texts (`Run.mutateReadFirst`).
- Past the gathering a run only writes files (`World.OnlyWrites`), so whatever a path leads to in
  the end it led to before, if anything was there.
- If no writing goes to where a source is read later (`Unspoilt`), reading that source first gives
  the same text, and the worlds differ only in when it was read (`Run.mutateFiles_texts`).
-/

namespace SourceMutation

variable {σ : Type}

/-! ## A run that reads first -/

namespace Run

/-- Reads sources one after another. -/
def readAll : List Path → Run σ (List (Path × String))
  | [] => return []
  | path :: rest => do
    let text ← readSource path
    return (path, text) :: (← readAll rest)

/-- Mutates sources that have been read. -/
def mutateTexts [Chooser σ] (tools : Toolchain) (plan : Plan) (corpus : Option Corpus) :
    List (Path × String) → Run σ (List SourceReport)
  | [] => return []
  | (path, text) :: rest => do
    log (.info s!"filename : {path.name}")
    let report ← mutateText tools plan corpus path text
    return report :: (← mutateTexts tools plan corpus rest)

/-- Reads all sources and mutates them then. -/
def mutateReadFirst [Chooser σ] (tools : Toolchain) (plan : Plan) (corpus : Option Corpus)
    (paths : List Path) : Run σ (List SourceReport) := do
  mutateTexts tools plan corpus (← readAll paths)

/-- A run like `mutateAfter`, but for reading all sources before it writes anything. -/
def readFirstAfter [Chooser σ] (prepare : Run σ Unit) (tools : Toolchain) (settings : Settings) :
    Run σ Summary :=
  traced "run_mutation" do
    let plan ← ofExcept (settings.check (← tree))
    prepare
    carryOutBy (mutateReadFirst tools plan) tools plan

end Run

/-! ## What the pass over the sources leaves alone -/

/-- Whether only files are written between two worlds, once there is an output directory. -/
def World.OnlyWrites (directory : Path) (first second : World σ) : Prop :=
  first.tree.Grounded → first.tree.isPresent directory = .ok true →
    first.tree.AddsFiles second.tree ∧ second.tree.Grounded

theorem World.steps_onlyWrites (directory : Path) :
    Steps directory (OnlyWrites (σ := σ) directory) where
  refl world hgrounded _ := ⟨.refl world.tree, hgrounded⟩
  trans := by
    intro first second third h h' hgrounded hpresent
    obtain ⟨hadds, hgrounded'⟩ := h hgrounded hpresent
    obtain ⟨hadds', hgrounded''⟩ :=
      h' hgrounded' (FileTree.isPresent_keeps hadds.keeps hpresent)
    exact ⟨hadds.trans hadds', hgrounded''⟩
  logged world _ hgrounded _ := ⟨.refl world.tree, hgrounded⟩
  loaded world _ hgrounded _ := ⟨.refl world.tree, hgrounded⟩
  drawn world _ hgrounded _ := ⟨.refl world.tree, hgrounded⟩
  read world _ _ _ hgrounded _ := ⟨.refl world.tree, hgrounded⟩
  accepted world _ _ hgrounded _ := ⟨.refl world.tree, hgrounded⟩
  -- The output directory is there already, so none is made.
  made world habsent _ hpresent := nomatch habsent.symm.trans hpresent
  wrote := by
    intro world path bytes tree hwrite hgrounded _
    obtain ⟨location, htarget, rfl⟩ := FileTree.write_eq_ok_iff.mp hwrite
    have hput := FileTree.mayPut_of_writeTarget hgrounded htarget bytes
    exact ⟨hput.addsFiles, hput.grounded hgrounded⟩

/-! ## The pass over the sources

A run reads each source right before it mutates it.  The texts that it reads are collected, and
mutating these comes to the same.
-/

namespace Run

/-- Sources whose bytes stand in the files can all be read, and reading leaves no trace but
itself. -/
theorem readAll_eq {texts : List (Path × String)} {world : World σ}
    (h : ∀ source ∈ texts, ∃ bytes, world.tree.read source.1 = .ok bytes ∧
      Utf8.decode bytes = .ok source.2) :
    ∃ world', readAll (texts.map Prod.fst) world = (.ok texts, world') ∧ world'.Alike world := by
  induction texts generalizing world with
  | nil => exact ⟨world, rfl, .refl world⟩
  | cons source rest ih =>
    obtain ⟨path, text⟩ := source
    obtain ⟨⟨bytes, hbytes, htext⟩, hrest⟩ := List.forall_mem_cons.mp h
    have hread : (readSource path : Run σ String) world
        = (.ok text, world.after (.read path bytes)) := by
      rw [readSource_apply, hbytes]
      dsimp only at htext ⊢
      rw [htext]
    -- Reading one file leaves the others as they are.
    have hlater : ∀ source ∈ rest, ∃ bytes',
        (world.after (.read path bytes)).tree.read source.1 = .ok bytes' ∧
        Utf8.decode bytes' = .ok source.2 := hrest
    obtain ⟨world', hrun, halike⟩ := ih hlater
    refine ⟨world', ?_, halike.trans (World.alike_after_read world path bytes)⟩
    rw [List.map_cons, readAll, Chance.bind_apply, hread]
    dsimp only
    rw [Chance.bind_apply, hrun]
    rfl

/-- Once the sources are gathered, there is an output directory. -/
theorem present_of_gather {tools : Toolchain} {plan : Plan} {files : List Path}
    {corpus : Option Corpus} {world world' : World σ}
    (h : gather tools plan world = (.ok (files, corpus), world')) :
    world'.tree.isPresent plan.outputDirectory = .ok true := by
  obtain ⟨place, hplace, hentry⟩ := locate_of_gather h
  exact FileTree.isPresent_of_locate hplace hentry

section Runs

variable [Chooser σ] {tools : Toolchain} {plan : Plan} {corpus : Option Corpus}

/-- From then on only files are written. -/
theorem addsFiles_of_mutateFiles {paths : List Path} {result : Except Stop (List SourceReport)}
    {world world' : World σ} (hgrounded : world.tree.Grounded)
    (hpresent : world.tree.isPresent plan.outputDirectory = .ok true)
    (h : mutateFiles tools plan corpus paths world = (result, world')) :
    world.tree.AddsFiles world'.tree ∧ world'.tree.isPresent plan.outputDirectory = .ok true := by
  obtain ⟨hadds, -⟩ :=
    (respects_mutateFiles (World.steps_onlyWrites _) paths).of_run h hgrounded hpresent
  exact ⟨hadds, FileTree.isPresent_keeps hadds.keeps hpresent⟩

/--
A pass over the sources reads each of them, and comes to what mutating the texts comes to that it
read.
-/
theorem mutateFiles_texts {paths : List Path} {reports : List SourceReport} {world world' : World σ}
    (h : mutateFiles tools plan corpus paths world = (.ok reports, world')) :
    ∃ texts : List (Path × String), texts.map Prod.fst = paths ∧
      (∀ source ∈ texts, ∃ before bytes after,
        world'.events = before ++ .read source.1 bytes :: after ∧
        Utf8.decode bytes = .ok source.2) ∧
      ∀ other : World σ, other.Alike world → ∃ other',
        mutateTexts tools plan corpus texts other = (.ok reports, other') ∧
        other'.Alike world' := by
  induction paths generalizing reports world with
  | nil =>
    cases h
    exact ⟨[], rfl, nofun, fun other halike => ⟨other, rfl, halike⟩⟩
  | cons path rest ih =>
    obtain ⟨report, third, hreport, hothers⟩ := Chance.bind_eq_ok.mp h
    obtain ⟨others, last, hrest, hlast⟩ := Chance.bind_eq_ok.mp hothers
    cases hlast
    rw [mutateFile, log_bind_apply] at hreport
    obtain ⟨text, second, hread, htext⟩ := Chance.bind_eq_ok.mp hreport
    obtain ⟨bytes, -, hdecode, rfl⟩ := readSource_eq_ok hread
    obtain ⟨texts, rfl, htexts, hruns⟩ := ih hrest
    obtain ⟨new, hnew, -⟩ := (respects_mutateText (World.steps_adds _) path text).of_run htext
    obtain ⟨more, hmore, -⟩ := (respects_mutateFiles (World.steps_adds _) _).of_run hrest
    refine ⟨(path, text) :: texts, rfl, ?_, ?_⟩
    · refine List.forall_mem_cons.mpr ⟨?_, htexts⟩
      refine ⟨(world.after (.logged (.info s!"filename : {path.name}"))).events, bytes,
        new ++ more, ?_, hdecode⟩
      rw [hmore, hnew, World.events_after, List.append_assoc, List.append_assoc]
      rfl
    · intro other halike
      -- The text has been read already, which is all that is different.
      have hlogged := (halike.after (.logged (.info s!"filename : {path.name}"))).trans
        (World.alike_after_read _ path bytes).symm
      obtain ⟨between, hbetween, halike'⟩ :=
        (blind_mutateText tools plan corpus path text).of_run hlogged htext
      obtain ⟨other', hother, halike''⟩ := hruns between halike'
      refine ⟨other', ?_, halike''⟩
      rw [mutateTexts, log_bind_apply, Chance.bind_apply, hbetween]
      dsimp only
      rw [Chance.bind_apply, hother]
      rfl

end Runs

end Run

/-! ## Whole runs -/

/-- Whether no source is read after something was written where its path leads. -/
def Unspoilt (tree : FileTree) (events : List Event) : Prop :=
  ∀ before path bytes after, events = before ++ .read path bytes :: after →
    ∀ target written, .wrote target written ∈ before → tree.locate target ≠ tree.locate path

/-- Whether two events do not read and write at one place. -/
def Event.Apart (tree : FileTree) : Event → Event → Prop
  | .read path _, .wrote target _ => tree.locate target ≠ tree.locate path
  | _, _ => True

instance (tree : FileTree) (first second : Event) : Decidable (first.Apart tree second) := by
  unfold Event.Apart
  split <;> infer_instance

/-- Nothing is spoilt where no source is read at a place that is ever written to. -/
theorem unspoilt_of_apart {tree : FileTree} {events : List Event}
    (h : ∀ event ∈ events, ∀ other ∈ events, event.Apart tree other) : Unspoilt tree events := by
  rintro before path bytes after rfl target written hmem
  exact h (.read path bytes) (by simp) (.wrote target written) (List.mem_append_left _ hmem)

/--
A source that nothing was written over could have been read before, at a moment when nothing had
been written at all.
-/
theorem Accounted.read_before {tree earlier final : FileTree} {past events before after : List Event}
    {path : Path} {bytes : Bytes} (h : Accounted tree final events)
    (hpast : Accounted tree earlier past) (hadds : earlier.AddsFiles final)
    (hunwritten : ∀ target written, .wrote target written ∉ past)
    (hevents : events = before ++ .read path bytes :: after)
    (hunspoilt : Unspoilt final events) : earlier.read path = .ok bytes := by
  obtain ⟨location, hlocation, hbytes⟩ :=
    h.reads final (.refl final) before path bytes after hevents
  have hnone : lastWritten final before location = none :=
    lastWritten_eq_none fun target written hmem htarget =>
      hunspoilt before path bytes after hevents target written hmem (htarget.trans hlocation.symm)
  have hnone' : lastWritten final past location = none :=
    lastWritten_eq_none fun target written hmem => absurd hmem (hunwritten target written)
  rw [hnone, Option.none_or] at hbytes
  -- The bytes that were read stood there from the start, and hence at the earlier moment.
  have hfile : earlier.fileAt location = some bytes := by
    rw [hpast.files final hadds.keeps, hnone', Option.none_or]
    exact hbytes
  have hthere : (earlier.entry? location).isSome := by
    rw [FileTree.fileAt_eq_some_iff.mp hfile]
    rfl
  exact FileTree.read_eq_ok_iff.mpr ⟨location, FileTree.locate_back hadds hthere hlocation, hfile⟩

namespace Run

variable [Chooser σ] {tools : Toolchain} {settings : Settings} {plan : Plan} {opening : Run σ Unit}
  {tree : GroundedTree} {chance : σ} {grammars : Grammars}

omit [Chooser σ] in
theorem traced_of_ok {step : String} {body : Run σ Summary} {summary : Summary}
    {world between : World σ}
    (h : body (world.after (.logged (.entered step))) = (.ok summary, between)) :
    traced step body world = (.ok summary, between.after (.logged (.completed step))) := by
  rw [traced, log_bind_apply, Chance.bind_apply, Chance.tryCatch_apply, h]
  rfl

omit [Chooser σ] in
/-- Until the sources are gathered, the files are accounted for and nothing is written. -/
theorem accounted_of_gather (hopening : Opening settings opening)
    {opened gathered : World σ} {files : List Path} {corpus : Option Corpus}
    (hopened : opening ((World.fresh tree chance grammars).after (.logged (.entered "run_mutation")))
      = (.ok (), opened))
    (hgathered : gather tools plan (opened.after (.logged (startLine plan)))
      = (.ok (files, corpus), gathered)) :
    Accounted tree gathered.tree gathered.events ∧
      ∀ target written, .wrote target written ∉ gathered.events := by
  have hsteps : World.Steps plan.outputDirectory (World.Accounts (σ := σ)) :=
    World.steps_accounts _
  have hT := hsteps.toTolerant
  have haccounts : World.Accounts (World.fresh tree chance grammars) gathered := by
    apply hT.trans (hopening.respects_start hT hopened (startLine plan))
    exact (respects_gather hT hsteps.made hsteps.read).of_run hgathered
  -- Nothing is written before the pass that mutates.
  have hquiet : World.Quiet (World.fresh tree chance grammars) gathered := by
    have hQ : World.Tolerant (World.Quiet (σ := σ)) := World.tolerant_quiet
    apply hQ.trans (hopening.respects_start hQ hopened (startLine plan))
    exact quiet_gather hgathered
  obtain ⟨new, hnew, haccounted⟩ := haccounts tree.grounded
  rw [World.events_fresh, List.nil_append] at hnew
  refine ⟨hnew ▸ haccounted, fun target written hmem => ?_⟩
  have hwriting : (target, written) ∈ gathered.writings := List.mem_filterMap.mpr ⟨_, hmem, rfl⟩
  rw [hquiet.2] at hwriting
  cases hwriting

omit [Chooser σ] in
/-- A run whose plan is carried out returns, whichever way it goes over the sources. -/
theorem traced_of_carryOutBy
    (pass : Plan → Option Corpus → List Path → Run σ (List SourceReport)) {summary : Summary}
    {start opened carried : World σ}
    (hcheck : settings.check start.tree = .ok plan)
    (hopened : opening (start.after (.logged (.entered "run_mutation"))) = (.ok (), opened))
    (hcarried : carryOutBy (pass plan) tools plan opened = (.ok summary, carried)) :
    traced "run_mutation" (do
      let plan ← ofExcept (settings.check (← Run.tree))
      opening
      carryOutBy (pass plan) tools plan) start
      = (.ok summary, carried.after (.logged (.completed "run_mutation"))) := by
  refine traced_of_ok ?_
  rw [Chance.bind_apply, tree_apply]
  dsimp only
  -- The settings are accepted, the run is opened, and what is left is the plan.
  rw [World.tree_after, hcheck, Chance.bind_apply, ofExcept_ok_apply]
  dsimp only
  rw [Chance.bind_apply, hopened]
  exact hcarried

/-- If no source is written over before its turn, reading all sources first comes to the same. -/
theorem readFirst_of_unspoilt (hopening : Opening settings opening)
    {summary : Summary} {world : World σ}
    (h : mutateAfter opening tools settings (World.fresh tree chance grammars)
      = (.ok summary, world)) (hunspoilt : Unspoilt world.tree world.events) :
    ∃ world', readFirstAfter opening tools settings (World.fresh tree chance grammars)
      = (.ok summary, world') ∧ world'.Alike world := by
  have haccounted := mutateAfter_accounted hopening h
  obtain ⟨plan, opened, carried, hplan, hopened, hcarried, rfl⟩ := mutateAfter_eq_ok h
  obtain ⟨files, corpus, gathered, sources, mutated, hgathered, hmutated, rfl, rfl⟩ :=
    carryOutBy_eq_ok.mp hcarried
  obtain ⟨texts, rfl, htexts, hruns⟩ := mutateFiles_texts hmutated
  obtain ⟨hpast, hunwritten⟩ := accounted_of_gather hopening hopened hgathered
  obtain ⟨hadds, -⟩ :=
    addsFiles_of_mutateFiles hpast.grounded (present_of_gather hgathered) hmutated
  -- Each text that the run read in its turn stood there already when the pass began.
  have hreads : ∀ source ∈ texts, ∃ bytes, gathered.tree.read source.1 = .ok bytes ∧
      Utf8.decode bytes = .ok source.2 := by
    intro source hmem
    obtain ⟨before, bytes, after, hevents, hdecode⟩ := htexts source hmem
    -- What is unspoilt is the log of the whole run, which ends with two more lines.
    have hlater : ((mutated.after (.logged (endLine (summarize plan corpus sources)))).after
        (.logged (.completed "run_mutation"))).events
        = before ++ .read source.1 bytes :: (after ++
          [.logged (endLine (summarize plan corpus sources)),
            .logged (.completed "run_mutation")]) := by
      simp [hevents]
    exact ⟨bytes, haccounted.read_before hpast hadds hunwritten hlater hunspoilt, hdecode⟩
  obtain ⟨read, hread, halike⟩ := readAll_eq hreads
  obtain ⟨other, hother, halike'⟩ := hruns read halike
  have hpass : mutateReadFirst tools plan corpus (texts.map Prod.fst) gathered
      = (.ok sources, other) := by
    rw [mutateReadFirst, Chance.bind_apply, hread]
    exact hother
  have hcarry := carryOutBy_eq_ok.mpr
    ⟨_, corpus, gathered, sources, other, hgathered, hpass, rfl, rfl⟩
  exact ⟨_, traced_of_carryOutBy (mutateReadFirst tools) hplan hopened hcarry,
    (halike'.after _).after _⟩

/--
A run that returns read each source as what it had written last where the path of the source leads,
or else as what stood there at first.  If it read no source after having written where its path
leads, it comes to the same as a run that reads all sources first.
-/
theorem mutateAfter_reads_what_stands (hopening : Opening settings opening) {summary : Summary}
    {world : World σ}
    (h : mutateAfter opening tools settings (World.fresh tree chance grammars)
      = (.ok summary, world)) :
    (∀ before path bytes after, world.events = before ++ .read path bytes :: after →
      ∃ location, world.tree.locate path = .ok location ∧
        (lastWritten world.tree before location).or (tree.fileAt location) = some bytes) ∧
    (Unspoilt world.tree world.events →
      ∃ world', readFirstAfter opening tools settings (World.fresh tree chance grammars)
        = (.ok summary, world') ∧ world'.Alike world) := by
  constructor
  · exact (mutateAfter_accounted hopening h).reads world.tree (.refl world.tree)
  · exact readFirst_of_unspoilt hopening h

/-- Two sources of one name are read as they were, if their mutants go elsewhere. -/
theorem namesakes_read_as_they_were :
    namesakesRun = (.ok namesakesSummary, namesakesRun.2) ∧
      ∃ world', readFirstAfter (return ()) firstByteTools deletions
          (World.fresh namesakesTree ⟨[]⟩ .empty) = (.ok namesakesSummary, world') ∧
        world'.Alike namesakesRun.2 := by
  have hunspoilt : Unspoilt namesakesRun.2.tree namesakesRun.2.events := by
    apply unspoilt_of_apart
    decide +kernel
  exact ⟨namesakesRun_eq, (mutateAfter_reads_what_stands .given namesakesRun_eq).2 hunspoilt⟩

/-! ### A source with the name of a mutant -/

/-- Two sources, `ab` and `cd`, the second of which has the name of a mutant of the first. -/
def mutantNamedTree : FileTree where
  workDirectory := ["w"]
  entries := ⟨[(["w"], .directory), (["w", "in"], .directory),
    (["w", "in", "a.rs"], .file [0x61, 0x62]),
    (["w", "in", "mut_a.rs_1.rs"], .file [0x63, 0x64])]⟩

/-- All deletions of these sources, written to where the sources are. -/
def deletionsInPlace : Settings := { deletions with outputDirectory := ⟨.relative, ["in"]⟩ }

/-- What that run comes to; it draws nothing. -/
def inPlaceRun : Except Stop Summary × World Script :=
  mutate firstByteTools deletionsInPlace (World.fresh mutantNamedTree ⟨[]⟩ .empty)

/-- What it comes to if all sources are read first. -/
def inPlaceReadFirst : Except Stop Summary × World Script :=
  readFirstAfter (return ()) firstByteTools deletionsInPlace
    (World.fresh mutantNamedTree ⟨[]⟩ .empty)

/-- The second source is read as the mutant of the first, and not as it stood there at first, so
that its own mutant is another one. -/
theorem inPlace_reads_mutant :
    inPlaceRun.1.toOption.isSome ∧
      .read ⟨.relative, ["in", "mut_a.rs_1.rs"]⟩ [0x62] ∈ inPlaceRun.2.events ∧
      mutantNamedTree.read ⟨.relative, ["in", "mut_a.rs_1.rs"]⟩ = .ok [0x63, 0x64] ∧
      inPlaceRun.2.tree.read ⟨.relative, ["in", "mut_mut_a.rs_1.rs_1.rs"]⟩ = .ok [] ∧
      inPlaceReadFirst.2.tree.read ⟨.relative, ["in", "mut_mut_a.rs_1.rs_1.rs"]⟩ = .ok [0x64] := by
  decide +kernel

end Run

end SourceMutation
