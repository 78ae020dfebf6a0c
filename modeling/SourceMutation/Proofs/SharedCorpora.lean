import SourceMutation.Proofs.FreeChoices
import SourceMutation.Proofs.ReadFirst
import SourceMutation.Proofs.TwoPasses
import SourceMutation.Proofs.Writings

/-!
# What a shared corpus has for a source

The pass that builds a corpus and the pass that mutates go over the same files.  Whatever is
harvested in the second one was harvested in the first one, to the same spans, unless the file was
written over in between; so the corpus has the text of every span that is mutated
(`Run.SecondPass.served`).

## How it is shown

- What the corpus pass adds is read off the history of the corpus (`Run.addVisits_eq_ok`): every
  source that is short enough had all of its spans added.
- A corpus that has all spans of a harvest added lists their texts (`Corpus.Lists`).  From such a
  corpus something can be drawn for every span, and a pass that draws nothing shows that all
  candidates are the span's own text (`Corpus.Lists.same_of_idle`).
- A stage of a run is the beginning of the turn of one source (`Run.SecondPass`).  Its file is
  intact if nothing was written over it so far, and then it reads as it did in the corpus pass
  (`Run.SecondPass.hasText_gathered`).
- A run that returns has such a stage for every source that it did not skip
  (`Run.SecondPass.exists_of_report`).
-/

namespace SourceMutation

variable {σ : Type}

/-! ## What the corpus pass adds -/

theorem FileTree.HasText.unique {tree : FileTree} {path : Path} {text other : String}
    (h : tree.HasText path text) (h' : tree.HasText path other) : text = other := by
  obtain ⟨bytes, hread, hdecode⟩ := h
  obtain ⟨bytes', hread', hdecode'⟩ := h'
  cases hread.symm.trans hread'
  exact Except.ok.inj (hdecode.symm.trans hdecode')

/-- Whether a file is short enough and what its parser makes of it is a harvest. -/
def Toolchain.Harvests (tools : Toolchain) (language : Language) (maxLines : Nat) (tree : FileTree)
    (path : Path) (found : Harvest) : Prop :=
  ∃ text, tree.HasText path text ∧ Lines.within text maxLines = true ∧
    tools.parsed language path text = .ok found

/-- Whether the text of each span of a harvest was added under the span's kind. -/
def Harvest.AddedIn (harvest : Harvest) (touches : List Corpus.Touch) : Prop :=
  ∀ span ∈ harvest.spans, ∃ text, harvest.textOf span = .ok text ∧
    .added span.kind text ∈ touches

theorem Harvest.AddedIn.mono {harvest : Harvest} {touches others : List Corpus.Touch}
    (h : harvest.AddedIn touches) (hsub : ∀ touched ∈ touches, touched ∈ others) :
    harvest.AddedIn others := by
  intro span hspan
  obtain ⟨text, htext, hadded⟩ := h span hspan
  exact ⟨text, htext, hsub _ hadded⟩

/-- Whether some files can all be read, and those that are harvested were added to a history. -/
def Toolchain.AllAdded (tools : Toolchain) (language : Language) (maxLines : Nat)
    (tree : FileTree) (paths : List Path) (touches : List Corpus.Touch) : Prop :=
  ∀ path ∈ paths, (∃ text, tree.HasText path text) ∧
    ∀ found, tools.Harvests language maxLines tree path found → found.AddedIn touches

namespace Run

variable {tools : Toolchain} {language : Language} {maxLines : Nat} {directory path : Path}
  {corpus corpus' : Corpus} {world world' : World σ}

/-- A file that is added is read, and its harvest is added to the corpus if it is short enough. -/
theorem addFile_eq_ok {isUsed : Bool}
    (h : addFile tools language maxLines path corpus world = (.ok (isUsed, corpus'), world')) :
    world'.tree = world.tree ∧ ∃ text, world.tree.HasText path text ∧
      (Lines.within text maxLines = false ∧ corpus' = corpus ∨
        Lines.within text maxLines = true ∧ ∃ found count,
          tools.parsed language path text = .ok found ∧
          corpus.addSource found = (.ok count, corpus')) := by
  obtain ⟨text, first, hread, -⟩ := Chance.bind_eq_ok.mp h
  obtain ⟨bytes, hbytes, hdecode, -⟩ := readSource_eq_ok hread
  have htext : world.tree.HasText path text := ⟨bytes, hbytes, hdecode⟩
  cases hwithin : Lines.within text maxLines with
  -- A text that is too long leaves the corpus as it is.
  | false =>
    obtain ⟨after, hrun, hstill⟩ :=
      addFile_of_tooLong tools language corpus ⟨text, htext, hwithin⟩
    cases h.symm.trans hrun
    exact ⟨hstill.tree.symm, text, htext, .inl ⟨hwithin, rfl⟩⟩
  -- The text was harvested, and its spans were all added.
  | true =>
    obtain ⟨after, hrun, hlevel, -⟩ := addFile_of_within tools language corpus htext hwithin
    have hboth := h.symm.trans hrun
    obtain rfl := congrArg Prod.snd hboth
    refine ⟨hlevel.tree.symm, text, htext, .inr ⟨hwithin, ?_⟩⟩
    cases hharvest : tools.harvestOf language path text world.grammars with
    | error stop =>
      rw [hharvest] at hboth
      cases hboth
    | ok found =>
      rw [hharvest, joined] at hboth
      rcases hadded : corpus.addSource found with ⟨failure | count, after⟩
      · rw [hadded] at hboth
        cases hboth
      · rw [hadded] at hboth
        cases hboth
        exact ⟨found, count, Toolchain.parsed_of_harvestOf hharvest, hadded⟩

/-- Going over files adds all of them to the history of a corpus. -/
theorem addVisits_eq_ok {met : List Visit} {used used' : Nat} {touches : List Corpus.Touch}
    (hreached : Corpus.Reached touches corpus)
    (h : addVisits tools language maxLines directory met used corpus world
      = (.ok (used', corpus'), world')) :
    ∃ more, Corpus.Reached (touches ++ more) corpus' ∧
      tools.AllAdded language maxLines world.tree (filesOf directory met) more := by
  induction met generalizing used corpus touches world with
  | nil =>
    cases h
    exact ⟨[], by rwa [List.append_nil], nofun⟩
  | cons visit rest ih =>
    rw [addVisits, logAll_bind_apply] at h
    rw [← World.tree_afterLines world (visitLine? visit).toList]
    generalize world.afterLines (visitLine? visit).toList = logged at h ⊢
    cases hfile : visit.file? with
    | none =>
      rw [hfile] at h
      rw [filesOf_cons_of_none hfile]
      exact ih hreached h
    | some names =>
      rw [hfile] at h
      rw [filesOf_cons_of_some hfile]
      obtain ⟨⟨isUsed, between⟩, first, hadd, hothers⟩ := Chance.bind_eq_ok.mp h
      obtain ⟨htree, text, htext, hlong | ⟨hwithin, found, count, hparsed, hadded⟩⟩ :=
        addFile_eq_ok hadd
      · -- A file that is too long has no harvest that could be missing.
        obtain ⟨hwithin, rfl⟩ := hlong
        obtain ⟨more, hmore, hall⟩ := ih hreached hothers
        rw [htree] at hall
        refine ⟨more, hmore, List.forall_mem_cons.mpr ⟨⟨⟨text, htext⟩, ?_⟩, hall⟩⟩
        rintro found ⟨other, hother, hshort, -⟩
        rw [← htext.unique hother, hwithin] at hshort
        cases hshort
      · -- One that is short enough has its harvest added before those of the others.
        have hnext := hreached.addSource found
        rw [hadded] at hnext
        obtain ⟨more, hmore, hall⟩ := ih hnext hothers
        rw [htree] at hall
        rw [List.append_assoc] at hmore
        refine ⟨_, hmore, List.forall_mem_cons.mpr ⟨⟨⟨text, htext⟩, ?_⟩, ?_⟩⟩
        · rintro found' ⟨other, hother, -, hparsed'⟩
          rw [← htext.unique hother, hparsed] at hparsed'
          cases hparsed'
          intro span hspan
          obtain ⟨own, hown, htouched⟩ :=
            Corpus.exists_added_of_addSpans (congrArg Prod.fst hadded) hspan
          exact ⟨own, hown, List.mem_append_left _ htouched⟩
        · intro path hpath
          obtain ⟨hreadable, hharvests⟩ := hall path hpath
          exact ⟨hreadable, fun found' hfound =>
            (hharvests found' hfound).mono fun _ => List.mem_append_right _⟩

/-- A corpus that was gathered comes from going over what the scan met that found the files. -/
theorem addVisits_of_gather {plan : Plan} (hlines : 1 ≤ plan.maxLines) {files : List Path}
    (h : gather tools plan world = (.ok (files, some corpus), world')) :
    ∃ (met : List Visit) (used : Nat) (start added : World σ),
      files = filesOf plan.inputDirectory met ∧ start.tree = world'.tree ∧
        start.grammars = world.grammars ∧
        addVisits tools plan.language plan.maxLines plan.inputDirectory met 0 .empty start
          = (.ok (used, corpus), added) ∧ added.Untouched world' := by
  rcases hsurvey : survey plan world with ⟨stop | found, made⟩
  · cases h.symm.trans (gather_of_stop hsurvey)
  · obtain ⟨-, hgrammars, rules, hrules, haskable, rfl⟩ := survey_eq_ok hsurvey
    have hgathered := h.symm.trans (gather_of_survey tools hsurvey)
    cases hshared : plan.mode.usesSharedCorpus with
    | false =>
      -- Such a plan gathers no corpus.
      rw [planCorpus, if_neg (Bool.eq_false_iff.mp hshared)] at hgathered
      cases hgathered
    | true =>
      obtain ⟨start, hstart, hbuild⟩ := buildCorpus_apply tools hlines hrules haskable made
      rcases hadded : addVisits tools plan.language plan.maxLines plan.inputDirectory
        (made.tree.visits plan.inputDirectory rules) 0 .empty start with ⟨result, added⟩
      obtain ⟨built, hbuilt, hsame⟩ := hbuild result added hadded
      have htree : added.tree = start.tree :=
        (respects_addVisits World.tolerant_sameTree _ _ _ _ _ _ _ fun _ _ _ _ => rfl).of_run hadded
      rw [planCorpus_of_shared hshared hbuilt] at hgathered
      rcases result with stop | ⟨used, both⟩
      · cases hgathered
      · cases hgathered
        exact ⟨_, used, start, added, rfl, htree.symm.trans hsame.tree,
          hstart.grammars.trans hgrammars, hadded, hsame⟩

/-- The corpus that was gathered has a history to which all files that were gathered were added. -/
theorem gather_eq_ok {plan : Plan} (hlines : 1 ≤ plan.maxLines) {files : List Path}
    (h : gather tools plan world = (.ok (files, some corpus), world')) :
    ∃ touches, Corpus.Reached touches corpus ∧
      tools.AllAdded plan.language plan.maxLines world'.tree files touches := by
  obtain ⟨met, used, start, added, rfl, htree, -, hadded, -⟩ := addVisits_of_gather hlines h
  rw [← htree]
  exact addVisits_eq_ok .empty hadded

end Run

/-! ## Passes that draw nothing -/

/-- Whether a pass returns without mutants before it has chosen anything. -/
def Pass.Idle (pass : Pass Script) : Prop := (pass ⟨[]⟩).1.result = .ok []

namespace Splice

variable {harvest : Harvest} {corpus : Corpus} {stall : StallLimit}

/-- A draw from a kind that has candidates comes to one of them. -/
theorem drawSameKind_ne_none [Chooser σ] {span : Span} (h : corpus.candidates span.kind ≠ [])
    (state state' : σ) : drawSameKind corpus span state ≠ (.ok none, state') := by
  rw [drawSameKind_eq h, drawOwnKind]
  intro heq
  obtain ⟨text, between, -, hlast⟩ := Chance.bind_eq_ok.mp heq
  cases hlast

/-- Where something is offered, and the limit allows a draw, a pass draws. -/
theorem not_idle_fromCorpus (hstall : stall.exceededBy 1 = false)
    (htexts : ∀ span ∈ harvest.spans, ∃ own, harvest.textOf span = .ok own)
    (hoffers : ∃ span ∈ harvest.spans, ∃ replacement,
      Offers harvest corpus.OfSameKind span replacement) (patience count : Nat) :
    ¬Pass.Idle (fromCorpus patience harvest corpus count stall) := by
  intro hidle
  rw [Pass.Idle] at hidle
  cases count with
  | zero => cases hidle
  | succ count =>
    obtain ⟨found, hfound, hiff⟩ := hasSameKindCandidate_eq corpus htexts
    have htrue : found = true := hiff.mpr hoffers
    obtain ⟨span, hspan, -⟩ := hoffers
    have hspans : harvest.spans ≠ [] := List.ne_nil_of_mem hspan
    have hgoes : ¬(0 = 0 ∧ stall.exceededBy (0 + 1)) := by simp [hstall]
    have honce : DrawLoop.once harvest (drawSameKind corpus) 1 (⟨[]⟩ : Script)
        = (.error .unfinished, ⟨[]⟩) := by
      rw [DrawLoop.once, Chance.bind_apply, Chance.pick_apply hspans]
    rw [fromCorpus_of_pos (by omega)] at hidle
    simp only [drawn, hfound, htrue, DrawLoop.mutants, List.isEmpty_iff, hspans, if_false,
      Int.toNat_natCast] at hidle
    -- The first draw finds no choice to make, and so the pass does not return.
    cases patience with
    | zero => cases hidle
    | succ patience =>
      rw [DrawLoop.more_stop hgoes honce] at hidle
      cases hidle

end Splice

/-! ## Corpora that list a harvest -/

/-- Whether a corpus has the kind of each span, and the span's text as a candidate of the kind. -/
def Corpus.Lists (corpus : Corpus) (harvest : Harvest) : Prop :=
  ∀ span ∈ harvest.spans, corpus.contains span.kind = true ∧
    ∃ text, harvest.textOf span = .ok text ∧ text ∈ corpus.candidates span.kind

namespace Corpus.Lists

variable {corpus : Corpus} {harvest other : Harvest}

theorem of_addedIn {touches : List Corpus.Touch} (hreached : Corpus.Reached touches corpus)
    (hadded : harvest.AddedIn touches) : corpus.Lists harvest := by
  intro span hspan
  obtain ⟨text, htext, htouched⟩ := hadded span hspan
  obtain ⟨hcontains, hcandidate⟩ := hreached.tells.mem_candidates htouched
  exact ⟨hcontains, text, htext, hcandidate⟩

/-- Some candidate is drawn for each span. -/
theorem draws [Chooser σ] (h : corpus.Lists harvest) {span : Span} (hspan : span ∈ harvest.spans)
    (state state' : σ) : Splice.drawSameKind corpus span state ≠ (.ok none, state') := by
  obtain ⟨-, text, -, hcandidate⟩ := h span hspan
  exact Splice.drawSameKind_ne_none (List.ne_nil_of_mem hcandidate) state state'

/-- A pass that may draw and does not has no span for which another harvest has another text. -/
theorem same_of_idle (h : corpus.Lists harvest) (hother : corpus.Lists other)
    {stall : StallLimit} (hstall : ∀ n, stall = some n → 1 ≤ n) {patience count : Nat}
    (hidle : Pass.Idle (Splice.fromCorpus patience harvest corpus count stall)) {span twin : Span}
    (hspan : span ∈ harvest.spans) (htwin : twin ∈ other.spans) (hkind : twin.kind = span.kind)
    {own text : String} (hown : harvest.textOf span = .ok own)
    (htext : other.textOf twin = .ok text) : text = "" ∨ text = own := by
  by_cases hempty : text = ""
  · exact .inl hempty
  by_cases hsame : text = own
  · exact .inr hsame
  -- Another text of the kind would be offered for the span, and something would be drawn.
  have hreadable : ∀ span ∈ harvest.spans, ∃ own, harvest.textOf span = .ok own := by
    intro span hspan
    obtain ⟨-, own, hown, -⟩ := h span hspan
    exact ⟨own, hown⟩
  obtain ⟨-, listed, hlisted, hcandidate⟩ := hother twin htwin
  cases hlisted.symm.trans htext
  rw [hkind] at hcandidate
  have hoffers : Splice.Offers harvest corpus.OfSameKind span ⟨text, span.kind⟩ :=
    ⟨⟨rfl, hcandidate⟩, hempty, own, hown, hsame⟩
  have hdraws := Splice.not_idle_fromCorpus (Splice.StallLimit.exceededBy_one hstall) hreadable
    ⟨span, hspan, _, hoffers⟩ patience count
  exact absurd hidle hdraws

/-- What the harvest's own texts are put in place of is offered in both modes with a corpus. -/
theorem offers [Chooser σ] (h : corpus.Lists harvest) {mode : Mode}
    (hshared : mode.usesSharedCorpus = true) {patience : Nat} {stall : StallLimit}
    {state : σ} {mutant : Mutant}
    (hmutant : mutant ∈ (Splice.fromSelf patience harvest 0 stall state).1.mutants) :
    mode.Offers harvest (some corpus) mutant.span ⟨mutant.replacement, mutant.span.kind⟩ := by
  obtain ⟨index, span, replacement, -, ⟨own, hown, ⟨-, hcandidate⟩, hempty, htext⟩, hmake⟩ :=
    Splice.made_fromSelf patience 0 stall state mutant hmutant
  obtain ⟨hmutantSpan, hmutantText⟩ := Mutant.names_of_make hmake
  -- A text of the source's own is the text of one of its spans, and was added with that.
  have htouched := (Corpus.tells_ofSource hown).added_of_mem_candidates hcandidate hempty
  obtain ⟨other, hother, hkind, hotherText⟩ := Corpus.Touch.exists_span_of_mem_ofSpans htouched
  obtain ⟨-, listed, hlisted, hcandidate⟩ := h other hother
  cases hotherText.symm.trans hlisted
  rw [hkind] at hcandidate
  rw [hmutantSpan, hmutantText]
  cases mode with
  | deleteOnly | selfSplice => cases hshared
  | splice => exact ⟨⟨rfl, hcandidate⟩, hempty, htext⟩
  | spliceRandomKind => exact ⟨hcandidate, hempty, htext⟩

end Corpus.Lists

/-! ## Where a run stands in its second pass

The corpus was built before anything was written, and a mutant may have been written over a source
since then.  So what the corpus has for a source is told where the source was just harvested again.
-/

namespace Run

variable [Chooser σ]

/-- A run that has mutated some of its sources with a corpus and harvested the next one. -/
structure SecondPass (tools : Toolchain) (settings : Settings) (opening : Run σ Unit)
    (start : World σ) where
  plan : Plan
  corpus : Corpus
  /-- The sources that were mutated before. -/
  earlier : List Path
  reports : List SourceReport
  /-- The source that was harvested, with its text. -/
  path : Path
  text : String
  found : Harvest
  /-- The sources after it. -/
  later : List Path
  opened : World σ
  gathered : World σ
  before : World σ
  read : World σ
  after : World σ
  checks : settings.check start.tree = .ok plan
  opens : opening (start.after (.logged (.entered "run_mutation"))) = (.ok (), opened)
  gathers : gather tools plan (opened.after (.logged (startLine plan)))
    = (.ok (earlier ++ path :: later, some corpus), gathered)
  mutates : mutateFiles tools plan (some corpus) earlier gathered = (.ok reports, before)
  reads : readSource path (before.after (.logged (.info s!"filename : {path.name}")))
    = (.ok text, read)
  isWithin : Lines.within text plan.maxLines = true
  harvests : harvestText tools text plan.language path read = (.ok found, after)

namespace SecondPass

variable {tools : Toolchain} {settings : Settings} {opening : Run σ Unit} {start : World σ}

/-- All sources of the run. -/
def files (stage : SecondPass tools settings opening start) : List Path :=
  stage.earlier ++ stage.path :: stage.later

/-- Whether nothing was written over the source before its turn. -/
def Intact (stage : SecondPass tools settings opening start) : Prop :=
  ∀ target bytes, .wrote target bytes ∈ stage.before.events →
    stage.before.tree.locate target ≠ stage.before.tree.locate stage.path

/-- What the corpus has for a source that was harvested. -/
structure Served (stage : SecondPass tools settings opening start) : Prop where
  listed : stage.corpus.Lists stage.found
  /-- There is something to draw for each span. -/
  draws : ∀ span ∈ stage.found.spans, ∀ state state' : σ,
    Splice.drawSameKind stage.corpus span state ≠ (.ok none, state')
  /-- A pass that may draw and does not has no span with another text of its kind in any file. -/
  starves : (∀ n, stage.plan.stallLimit = some n → 1 ≤ n) → ∀ patience,
    Pass.Idle (Splice.fromCorpus patience stage.found stage.corpus stage.plan.count
      stage.plan.stallLimit) →
    ∀ span ∈ stage.found.spans, ∀ own, stage.found.textOf span = .ok own →
    ∀ path ∈ stage.files, ∀ found,
      tools.Harvests stage.plan.language stage.plan.maxLines stage.gathered.tree path found →
    ∀ other ∈ found.spans, other.kind = span.kind →
    ∀ text, found.textOf other = .ok text → text = "" ∨ text = own
  /-- What the source's own texts are put in place of is offered in both modes with a corpus. -/
  offers : ∀ patience stall (state : σ),
    ∀ mutant ∈ (Splice.fromSelf patience stage.found 0 stall state).1.mutants,
    ∀ mode : Mode, mode.usesSharedCorpus = true →
      mode.Offers stage.found (some stage.corpus) mutant.span
        ⟨mutant.replacement, mutant.span.kind⟩

variable (stage : SecondPass tools settings opening start)

/-- All files of the run were added to the corpus. -/
theorem exists_history :
    ∃ touches, Corpus.Reached touches stage.corpus ∧
      tools.AllAdded stage.plan.language stage.plan.maxLines stage.gathered.tree stage.files
        touches :=
  gather_eq_ok (Settings.checkMaxLines_pos (Settings.check_eq_ok_iff.mp stage.checks).maxLines)
    stage.gathers

/-- The sources are the files that a scan is after once there is an output directory. -/
theorem files_eq (hopening : Opening settings opening) :
    ∃ rules, stage.plan.rules = .ok rules ∧
      stage.files = (start.tree.withDirectory stage.plan.outputDirectory).sourceFiles
        stage.plan.inputDirectory rules := by
  have hsame : World.SameTree start (stage.opened.after (.logged (startLine stage.plan))) :=
    hopening.respects_start World.tolerant_sameTree stage.opens _
  rcases hsurvey : survey stage.plan (stage.opened.after (.logged (startLine stage.plan)))
    with ⟨stop | found, made⟩
  · cases stage.gathers.symm.trans (gather_of_stop hsurvey)
  -- The opening leaves the files alone, so the scan goes over the first tree.
  · obtain ⟨htree, -, rules, hrules, -, rfl⟩ := survey_eq_ok hsurvey
    have hgathered := congrArg Prod.fst (stage.gathers.symm.trans (gather_of_survey tools hsurvey))
    refine ⟨rules, hrules, ?_⟩
    rw [hsame] at htree
    rw [← htree]
    cases hcorpus : (planCorpus tools stage.plan made).1 with
    | error stop =>
      rw [hcorpus] at hgathered
      cases hgathered
    | ok corpus =>
      rw [hcorpus] at hgathered
      exact congrArg Prod.fst (Except.ok.inj hgathered)

theorem hasText_before : stage.before.tree.HasText stage.path stage.text := by
  obtain ⟨bytes, hbytes, hdecode, -⟩ := readSource_eq_ok stage.reads
  exact ⟨bytes, hbytes, hdecode⟩

theorem parsed_found :
    tools.parsed stage.plan.language stage.path stage.text = .ok stage.found := by
  obtain ⟨harvested, hrun, -⟩ :=
    harvestText_apply tools stage.plan.language stage.path stage.text stage.read
  exact Toolchain.parsed_of_harvestOf
    (congrArg Prod.fst (hrun.symm.trans stage.harvests))

theorem grounded_gathered (hopening : Opening settings opening) (hgrounded : start.tree.Grounded) :
    stage.gathered.tree.Grounded := by
  have hsteps : World.Steps stage.plan.outputDirectory (World.Accounts (σ := σ)) :=
    World.steps_accounts _
  have hT := hsteps.toTolerant
  have haccounts : World.Accounts start stage.gathered := by
    apply hT.trans (hopening.respects_start hT stage.opens (startLine stage.plan))
    exact (respects_gather hT hsteps.made hsteps.read).of_run stage.gathers
  obtain ⟨new, -, haccounted⟩ := haccounts hgrounded
  exact haccounted.grounded

/-- A source that nothing was written over had its text already when the corpus was built. -/
theorem hasText_gathered (hopening : Opening settings opening) (hgrounded : start.tree.Grounded)
    (hintact : stage.Intact) : stage.gathered.tree.HasText stage.path stage.text := by
  obtain ⟨touches, -, hall⟩ := stage.exists_history
  have hmem : stage.path ∈ stage.files := by simp [files]
  obtain ⟨⟨text, bytes, hread, hdecode⟩, -⟩ := hall stage.path hmem
  obtain ⟨new, hnew, haccounted⟩ :=
    (respects_mutateFiles (World.steps_accounts _) stage.earlier).of_run stage.mutates
      (stage.grounded_gathered hopening hgrounded)
  -- The source was not written over, so it reads as it did in the first pass.
  have hagain : stage.before.tree.read stage.path = .ok bytes := by
    apply haccounted.read_again hread
    intro target written hwrote
    apply hintact target written
    rw [hnew]
    exact List.mem_append_right _ hwrote
  have hsame : text = stage.text :=
    FileTree.HasText.unique ⟨bytes, hagain, hdecode⟩ stage.hasText_before
  exact ⟨bytes, hread, hsame ▸ hdecode⟩

end SecondPass

/-! ### Runs that return -/

section Returns

variable {tools : Toolchain} {plan : Plan} {corpus : Option Corpus} {paths : List Path}
  {reports : List SourceReport} {report : SourceReport} {world world' : World σ}

omit [Chooser σ] in
theorem gather_some (hshared : plan.mode.usesSharedCorpus = true)
    (h : gather tools plan world = (.ok (paths, corpus), world')) :
    ∃ shared, corpus = some shared := by
  obtain ⟨⟨⟩, made, -, hscan⟩ := Chance.bind_eq_ok.mp h
  obtain ⟨found, scanned, -, hplan⟩ := Chance.bind_eq_ok.mp hscan
  obtain ⟨built, planned, hbuilt, hlast⟩ := Chance.bind_eq_ok.mp hplan
  cases hlast
  rw [planCorpus, if_pos hshared] at hbuilt
  obtain ⟨shared, between, -, hsome⟩ := Chance.bind_eq_ok.mp hbuilt
  cases hsome
  exact ⟨shared, rfl⟩

/-- A report of a pass is that of one of its sources, at its turn. -/
theorem exists_turn_of_mem (h : mutateFiles tools plan corpus paths world = (.ok reports, world'))
    (hreport : report ∈ reports) :
    ∃ earlier path later first before after rest, paths = earlier ++ path :: later ∧
      mutateFiles tools plan corpus earlier world = (.ok first, before) ∧
      mutateFile tools plan corpus path before = (.ok report, after) ∧
      mutateFiles tools plan corpus later after = (.ok rest, world') := by
  induction paths generalizing reports world with
  | nil =>
    cases h
    cases hreport
  | cons path paths ih =>
    obtain ⟨own, between, hown, hothers⟩ := Chance.bind_eq_ok.mp h
    obtain ⟨others, last, hrest, hlast⟩ := Chance.bind_eq_ok.mp hothers
    cases hlast
    -- The report is that of the first source, or that of a later one.
    rcases List.mem_cons.mp hreport with rfl | hmem
    · exact ⟨[], path, paths, [], world, between, others, rfl, rfl, hown, hrest⟩
    · obtain ⟨earlier, source, later, first, before, after, rest, rfl, hfirst, hsource, hafter⟩ :=
        ih hrest hmem
      refine ⟨path :: earlier, source, later, own :: first, before, after, rest, rfl, ?_, hsource,
        hafter⟩
      rw [mutateFiles, Chance.bind_apply, hown]
      dsimp only
      rw [Chance.bind_apply, hfirst]
      rfl

/-- A source that is not reported as skipped was read and harvested. -/
theorem harvested_of_not_skipped {path : Path}
    (h : mutateFile tools plan corpus path world = (.ok report, world'))
    (hskipped : report.skipped = false) :
    ∃ text read found after,
      readSource path (world.after (.logged (.info s!"filename : {path.name}")))
        = (.ok text, read) ∧
      Lines.within text plan.maxLines = true ∧
      harvestText tools text plan.language path read = (.ok found, after) ∧
      report.path = path.text ∧ report.spanCount = found.spans.length := by
  rw [mutateFile, log_bind_apply] at h
  obtain ⟨text, read, hread, htext⟩ := Chance.bind_eq_ok.mp h
  cases hwithin : Lines.within text plan.maxLines with
  | false =>
    -- A source that is too long would be reported as skipped.
    rw [mutateText_of_not_within hwithin, log_bind_apply] at htext
    cases htext
    cases hskipped
  | true =>
    rw [mutateText_of_within hwithin] at htext
    obtain ⟨found, after, hharvest, hmutate⟩ := Chance.bind_eq_ok.mp htext
    obtain ⟨mutants, drawn, -, hmutate⟩ := Chance.bind_eq_ok.mp hmutate
    obtain ⟨⟨⟩, handed, -, hmutate⟩ := Chance.bind_eq_ok.mp hmutate
    obtain ⟨targets, written, -, hmutate⟩ := Chance.bind_eq_ok.mp hmutate
    rw [log_bind_apply] at hmutate
    cases hmutate
    exact ⟨text, read, found, after, hread, hwithin, hharvest, rfl, rfl⟩

end Returns

namespace SecondPass

variable {tools : Toolchain} {settings : Settings} {opening : Run σ Unit} {start : World σ}
  {world : World σ}

/-- A run that returns stood at each source that it does not report as skipped. -/
theorem exists_of_report (hopening : Opening settings opening) (hgrounded : start.tree.Grounded)
    {plan : Plan} (hplan : settings.check start.tree = .ok plan)
    (hshared : plan.mode.usesSharedCorpus = true) {summary : Summary}
    (h : mutateAfter opening tools settings start = (.ok summary, world))
    {report : SourceReport} (hreport : report ∈ summary.sources)
    (hskipped : report.skipped = false) :
    ∃ stage : SecondPass tools settings opening start, stage.path.text = report.path ∧
      stage.found.spans.length = report.spanCount ∧
      (∃ new, world.events = stage.before.events ++ new) ∧
      stage.before.tree.Keeps world.tree := by
  obtain ⟨plan', opened, carried, hplan', hopened, hcarried, rfl⟩ := mutateAfter_eq_ok h
  cases hplan.symm.trans hplan'
  obtain ⟨files, corpus, gathered, sources, mutated, hgathered, hmutated, rfl, rfl⟩ :=
    carryOutBy_eq_ok.mp hcarried
  obtain ⟨shared, rfl⟩ := gather_some hshared hgathered
  obtain ⟨earlier, path, later, first, before, after, rest, rfl, hfirst, hsource, hrest⟩ :=
    exists_turn_of_mem hmutated hreport
  obtain ⟨text, read, found, harvested, hread, hwithin, hharvest, hpath, hcount⟩ :=
    harvested_of_not_skipped hsource hskipped
  let stage : SecondPass tools settings opening start := {
    plan, corpus := shared, earlier, reports := first, path, text, found, later, opened, gathered
    before, read, after := harvested
    checks := hplan, opens := hopened, gathers := hgathered, mutates := hfirst, reads := hread
    isWithin := hwithin, harvests := hharvest }
  -- From the turn of the source on the run keeps to its account.
  have hsteps : World.Steps plan.outputDirectory (World.Accounts (σ := σ)) :=
    World.steps_accounts _
  obtain ⟨past, -, hbefore⟩ := (respects_mutateFiles hsteps earlier).of_run hfirst
    (stage.grounded_gathered hopening hgrounded)
  obtain ⟨new, hnew, hafter⟩ := (respects_mutateFile hsteps path).of_run hsource hbefore.grounded
  obtain ⟨more, hmore, hlast⟩ := (respects_mutateFiles hsteps later).of_run hrest hafter.grounded
  refine ⟨stage, hpath.symm, hcount.symm, ?_, hafter.keeps.trans hlast.keeps⟩
  simp only [World.events_after, hmore, hnew, List.append_assoc]
  exact ⟨_, rfl⟩

/-- Nothing was written over a source before its turn if no writing of the run went there. -/
theorem intact_of_end (stage : SecondPass tools settings opening start)
    (hevents : ∃ new, world.events = stage.before.events ++ new)
    (hkeeps : stage.before.tree.Keeps world.tree)
    (hapart : ∀ target bytes, .wrote target bytes ∈ world.events →
      world.tree.locate target ≠ world.tree.locate stage.path) : stage.Intact := by
  obtain ⟨new, hnew⟩ := hevents
  obtain ⟨bytes, hread, -⟩ := stage.hasText_before
  obtain ⟨location, hlocation, -⟩ := FileTree.read_eq_ok_iff.mp hread
  intro target written hmem heq
  have hwrote : .wrote target written ∈ world.events := by
    rw [hnew]
    exact List.mem_append_left _ hmem
  apply hapart target written hwrote
  rw [FileTree.locate_keeps hkeeps hlocation, FileTree.locate_keeps hkeeps (heq.trans hlocation)]

/-! ### What the corpus has -/

/--
A run that stands in its second pass at a source that nothing was written over has a corpus with the
text of each span of the source.  So no draw for the source finds nothing to draw from, the source
goes without mutants and without a draw only if no file has another text to offer, and whatever its
own texts can make of it is offered.
-/
theorem served {start : GroundedWorld σ} (stage : SecondPass tools settings opening start)
    (hopening : Opening settings opening) (hintact : stage.Intact) : stage.Served := by
  obtain ⟨touches, hreached, hall⟩ := stage.exists_history
  have hmem : stage.path ∈ stage.files := by simp [files]
  have hadded : stage.found.AddedIn touches := (hall stage.path hmem).2 stage.found
    ⟨stage.text, stage.hasText_gathered hopening start.grounded hintact, stage.isWithin,
      stage.parsed_found⟩
  have hlists : stage.corpus.Lists stage.found := .of_addedIn hreached hadded
  exact {
    listed := hlists
    draws := fun span hspan => hlists.draws hspan
    -- A pass that stands idle has nothing to draw, so all candidates are the span's own text.
    starves := by
      intro hstall patience hidle span hspan own hown path hpath found hfound other hother hkind
        text htext
      have hothers : stage.corpus.Lists found :=
        .of_addedIn hreached ((hall path hpath).2 found hfound)
      exact hlists.same_of_idle hothers hstall hidle hspan hother hkind hown htext
    offers := fun patience stall state mutant hmutant mode hshared =>
      hlists.offers hshared hmutant }

end SecondPass

/-! ### A run with two sources -/

/-- The sources `a b` and `c d`, in the directory `in`. -/
def fourNamesTree : GroundedTree where
  workDirectory := ["w"]
  entries := ⟨[(["w"], .directory), (["w", "in"], .directory),
    (["w", "in", "a.rs"], .file [0x61, 0x20, 0x62]),
    (["w", "in", "c.rs"], .file [0x63, 0x20, 0x64])]⟩
  grounded := by decide

/-- One splice of each source in `in` with the texts of both, written to `out`. -/
def sharedSplices : Settings := { selfSplices with mode := .int 2, count := .int 1 }

/-- What these settings ask for. -/
def sharedSplicesPlan : Plan where
  inputDirectory := ⟨.relative, ["in"]⟩
  outputDirectory := ⟨.relative, ["out"]⟩
  mode := .splice
  count := 1
  language := .rust
  maxLines := 500
  stallLimit := some 100
  stallText := "100"
  ignorePatterns := []

/-- The world before that run, which puts `b` for `a` and `a` for `c`. -/
def fourNamesStart : GroundedWorld Script := .fresh fourNamesTree ⟨[0, 2, 0, 1]⟩ .empty

/-- What the run comes to. -/
def fourNamesRun : Except Stop Summary × World Script :=
  mutate { twoNamesTools with patience := 1 } sharedSplices fourNamesStart

/-- When the second source is reached, the first one was mutated, and the corpus serves the
second. -/
theorem fourNames_served :
    ∃ stage : SecondPass { twoNamesTools with patience := 1 } sharedSplices (return ())
        fourNamesStart.toWorld,
      stage.path = ⟨.relative, ["in", "c.rs"]⟩ ∧ stage.found.spans.length = 2 ∧
        stage.Intact ∧ stage.Served := by
  have hplan : sharedSplices.check fourNamesStart.tree = .ok sharedSplicesPlan := rfl
  have hreports : fourNamesRun.1.toOption.map (fun summary => summary.sources.map fun report =>
      (report.path, report.skipped, report.spanCount))
        = some [("in/a.rs", false, 2), ("in/c.rs", false, 2)] := by decide +kernel
  -- No writing of the whole run goes where the second source stands.
  have hapart : ∀ event ∈ fourNamesRun.2.events,
      (Event.read ⟨.relative, ["in", "c.rs"]⟩ []).Apart fourNamesRun.2.tree event := by
    decide +kernel
  rcases hrun : fourNamesRun with ⟨stop | summary, world⟩
  · rw [hrun] at hreports
    cases hreports
  · rw [hrun] at hreports hapart
    have hsources : summary.sources.map
        (fun report => (report.path, report.skipped, report.spanCount))
          = [("in/a.rs", false, 2), ("in/c.rs", false, 2)] := Option.some.inj hreports
    obtain ⟨report, hreport, hfields⟩ : ∃ report ∈ summary.sources,
        (report.path, report.skipped, report.spanCount) = ("in/c.rs", false, 2) := by
      rw [← List.mem_map, hsources]
      decide
    obtain ⟨hpath, hskipped, hcount⟩ : report.path = "in/c.rs" ∧ report.skipped = false ∧
        report.spanCount = 2 := by simpa using hfields
    obtain ⟨stage, hstage, hspans, hevents, hkeeps⟩ :=
      SecondPass.exists_of_report .given fourNamesStart.grounded hplan rfl hrun hreport hskipped
    -- Of the two files that the scan is after, the report names the second.
    have hsource : stage.path = ⟨.relative, ["in", "c.rs"]⟩ := by
      obtain ⟨rules, hrules, hfiles⟩ := stage.files_eq .given
      have hstaged : stage.plan = sharedSplicesPlan :=
        Except.ok.inj (stage.checks.symm.trans hplan)
      rw [hstaged] at hrules hfiles
      cases (show sharedSplicesPlan.rules = .ok ⟨[".rs"], []⟩ from rfl).symm.trans hrules
      have hscan : (fourNamesTree.withDirectory sharedSplicesPlan.outputDirectory).sourceFiles
          sharedSplicesPlan.inputDirectory ⟨[".rs"], []⟩
            = [⟨.relative, ["in", "a.rs"]⟩, ⟨.relative, ["in", "c.rs"]⟩] := by
        decide +kernel
      have hmem : stage.path ∈ stage.files := by simp [SecondPass.files]
      rw [hfiles.trans hscan] at hmem
      rw [hpath] at hstage
      rcases List.mem_pair.mp hmem with hother | hthis
      · rw [hother] at hstage
        exact absurd hstage (by decide)
      · exact hthis
    have hintact : stage.Intact := by
      apply stage.intact_of_end hevents hkeeps
      intro target bytes hwrote
      rw [hsource]
      exact hapart _ hwrote
    exact ⟨stage, hsource, by omega, hintact, stage.served .given hintact⟩

end Run

end SourceMutation
