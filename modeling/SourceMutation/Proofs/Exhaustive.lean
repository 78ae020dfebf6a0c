import SourceMutation.Proofs.Refusals
import SourceMutation.Proofs.Scans
import SourceMutation.Proofs.SharedCorpora
import SourceMutation.Proofs.Stops

/-!
# All mutants of a source

With a count of zero nothing is drawn: the mutants of a source depend on its bytes and its spans
alone (`Harvest.Twin.mutants`).  A scan meets each source once, so what a run hands over of a source
are the mutants of the one harvest that it made of it (`Run.ExhaustiveRun.exists_pass`).

So two runs that harvest the same bytes to the same tree hand over the same mutants of them,
whatever numbers, other sources and settings there are beside (`Run.mutants_isolated`).

## How it is shown

- Two harvests are twins if they differ in their names only (`Harvest.Twin`).  Each function of a
  harvest is followed once for twins, up to a whole pass in each mode.
- What a run hands over is sorted by source (`World.mutantsOf`).  The turn of another source, and
  all that comes before the turns, adds nothing to that of this one (`World.mutantsOf_of_append`).
- A source has one turn, and what that hands over is one pass over its harvest
  (`Run.pass_of_mutateFile`).
-/

namespace SourceMutation

variable {σ τ : Type}

/-! ## Harvests that differ in name only -/

/-- Whether two harvests have the same bytes and the same spans. -/
structure Harvest.Twin (first second : Harvest) : Prop where
  bytes : first.bytes = second.bytes
  spans : first.spans = second.spans

namespace Harvest.Twin

variable {first second : Harvest} {span : Span} {corpus : Corpus}

theorem textOf (h : first.Twin second) {text : String} (htext : first.textOf span = .ok text) :
    second.textOf span = .ok text := by
  rw [textOf_eq_ok_iff, Harvest.covered, h.bytes] at htext
  exact textOf_eq_ok_iff.mpr htext

theorem substitute (h : first.Twin second) {replacement text : String}
    (htext : first.substitute span replacement = .ok text) :
    second.substitute span replacement = .ok text := by
  rw [substitute_eq_ok_iff, spliced, before, after, h.bytes] at htext
  exact substitute_eq_ok_iff.mpr htext

theorem make (h : first.Twin second) {index : Nat} {replacement : Replacement} {mutant : Mutant}
    (hmake : Mutant.make first index span replacement = .ok mutant) :
    Mutant.make second index span replacement = .ok mutant := by
  obtain ⟨replaced, hreplaced, hrest⟩ := except_bind_eq_ok.mp hmake
  obtain ⟨text, htext, hlast⟩ := except_bind_eq_ok.mp hrest
  exact except_bind_eq_ok.mpr
    ⟨replaced, h.textOf hreplaced, except_bind_eq_ok.mpr ⟨text, h.substitute htext, hlast⟩⟩

/-- Mutants that can all be made of one harvest can be made of the other. -/
theorem ofList (h : first.Twin second) {index : Nat} {pairs : List (Span × Replacement)}
    {made : List Mutant} (hmade : (Draft.ofList first index pairs).result = .ok made) :
    (Draft.ofList second index pairs).result = .ok made := by
  induction pairs generalizing index made with
  | nil => exact hmade
  | cons pair rest ih =>
    obtain ⟨span, replacement⟩ := pair
    rw [Draft.ofList] at hmade ⊢
    cases hmake : Mutant.make first index span replacement with
    | error failure =>
      rw [hmake] at hmade
      cases hmade
    | ok mutant =>
      rw [hmake] at hmade
      rw [h.make hmake]
      -- The first mutant goes before those of the rest, which have a result as well.
      cases hrest : (Draft.ofList first (index + 1) rest).result with
      | error stop =>
        rw [Draft.result] at hmade hrest
        dsimp only [Draft.after] at hmade
        split at hrest <;> simp_all
      | ok others =>
        have hothers := ih hrest
        rw [Draft.result] at hmade hrest hothers ⊢
        dsimp only [Draft.after] at hmade ⊢
        split at hrest <;> split at hothers <;> simp_all

theorem addSpans (h : first.Twin second) {added count : Nat} {spans : List Span} {after : Corpus}
    (hadded : Corpus.addSpans first added spans corpus = (.ok count, after)) :
    Corpus.addSpans second added spans corpus = (.ok count, after) := by
  induction spans generalizing added corpus with
  | nil => exact hadded
  | cons span rest ih =>
    cases htext : first.textOf span with
    | error failure =>
      rw [Corpus.addSpans, htext] at hadded
      cases hadded
    | ok text =>
      rw [Corpus.addSpans_cons_of_ok htext] at hadded
      rw [Corpus.addSpans_cons_of_ok (h.textOf htext)]
      exact ih hadded

theorem ofSource (h : first.Twin second) (hown : Corpus.ofSource first = .ok corpus) :
    Corpus.ofSource second = .ok corpus := by
  obtain ⟨count, hadded⟩ := Corpus.ofSource_eq_ok hown
  rw [Corpus.addSource, h.spans] at hadded
  rw [Corpus.ofSource, Corpus.addSource, h.addSpans hadded]

theorem pairs (h : first.Twin second) {spans : List Span} {found : List (Span × Replacement)}
    (hfound : Splice.pairs first corpus spans = .ok found) :
    Splice.pairs second corpus spans = .ok found := by
  induction spans generalizing found with
  | nil => exact hfound
  | cons span rest ih =>
    obtain ⟨own, hown, hrest⟩ := except_bind_eq_ok.mp hfound
    obtain ⟨later, hlater, hlast⟩ := except_bind_eq_ok.mp hrest
    exact except_bind_eq_ok.mpr
      ⟨own, h.textOf hown, except_bind_eq_ok.mpr ⟨later, ih hlater, hlast⟩⟩

/-- All mutants of a harvest are all mutants of the other one, whatever is there to draw from. -/
theorem mutants [Chooser σ] [Chooser τ] (h : first.Twin second) {mode : Mode}
    (hown : mode.usesSharedCorpus = false) {patience other : Nat} {corpora others : Option Corpus}
    {stall limit : StallLimit} {state : σ} {state' : τ} {made : List Mutant}
    (hmade : (mode.mutants patience first 0 corpora stall state).1.result = .ok made) :
    (mode.mutants other second 0 others limit state').1.result = .ok made := by
  cases mode with
  | deleteOnly =>
    change (Deletion.each first (Deletion.spans first)).result = _ at hmade
    rw [Deletion.each, Deletion.spans, h.spans] at hmade
    exact h.ofList hmade
  | selfSplice =>
    change (Splice.fromSelf patience first 0 stall state).1.result = _ at hmade
    change (Splice.fromSelf other second 0 limit state').1.result = _
    have hcount : checkCount 0 true = .ok 0 := rfl
    simp only [Splice.fromSelf, hcount] at hmade ⊢
    -- A count of zero asks for all pairs, so neither the patience nor the limit is looked at.
    cases hcorpus : Corpus.ofSource first with
    | error failure =>
      rw [hcorpus] at hmade
      cases hmade
    | ok corpus =>
      rw [hcorpus] at hmade
      rw [h.ofSource hcorpus]
      simp only [if_true] at hmade ⊢
      cases hpairs : Splice.pairs first corpus first.spans with
      | error failure =>
        rw [hpairs] at hmade
        cases hmade
      | ok found =>
        rw [hpairs] at hmade
        rw [h.spans] at hpairs
        rw [h.pairs hpairs]
        exact h.ofList hmade
  | splice | spliceRandomKind => cases hown

end Harvest.Twin

/-! ## Passes that leave the numbers alone -/

/-- A pass for all mutants draws nothing. -/
theorem Mode.mutants_zero [Chooser σ] {mode : Mode} (hown : mode.usesSharedCorpus = false)
    (patience : Nat) (harvest : Harvest) (corpus : Option Corpus) (stall : StallLimit) (state : σ) :
    (mode.mutants patience harvest 0 corpus stall state).2 = state := by
  cases mode with
  | deleteOnly => rfl
  | selfSplice =>
    -- With a count of zero all pairs are listed and made, and none is drawn.
    change (Splice.fromSelf patience harvest 0 stall state).2 = state
    have hcount : checkCount 0 true = .ok 0 := rfl
    simp only [Splice.fromSelf, hcount]
    cases Corpus.ofSource harvest with
    | error failure => rfl
    | ok corpus =>
      simp only [if_true]
      cases Splice.pairs harvest corpus harvest.spans <;> rfl
  | splice | spliceRandomKind => cases hown

/-- A pass that fails for its count draws nothing: a span that cannot be read is no bad count. -/
theorem Mode.mutants_of_badCount [Chooser σ] {mode : Mode} {patience : Nat} {harvest : Harvest}
    {count : Int} {corpus : Option Corpus} {stall : StallLimit} {state : σ} {failure : Failure}
    (h : (mode.mutants patience harvest count corpus stall state).1.ending
      = .stopped (.failed failure)) (hclass : failure.category = .mutationCount) :
    (mode.mutants patience harvest count corpus stall state).2 = state := by
  cases hrefusal : mode.refusal? count corpus with
  | some other => rw [mutants_of_refusal hrefusal]
  | none =>
    rcases failsBy_mutants hrefusal harvest.failsBy_category patience stall state failure h with
      hother | hother
    · cases hclass.symm.trans hother
    · cases hclass.symm.trans hother

/-! ## What is read in which turn

A run is taken apart by its turns.  All that was handed over of a source was handed over in the one
turn in which the source was read.
-/

/-- Whether an event is no reading, or a reading of one of some sources. -/
def Event.ReadsOnly (paths : List Path) (event : Event) : Prop :=
  ∀ path bytes, event = .read path bytes → path ∈ paths

namespace World

theorem Adds.mono {S S' : Event → Prop} (h : ∀ event, S event → S' event) {first second : World σ}
    (hadds : Adds S first second) : Adds S' first second := by
  obtain ⟨new, hnew, hsort⟩ := hadds
  exact ⟨new, hnew, fun event hmem => h event (hsort event hmem)⟩

/-- What was not read before and may not be read now was not read. -/
theorem Adds.not_mem {paths : List Path} {first second : World σ}
    (h : Adds (Event.ReadsOnly paths) first second) {path : Path} (hpath : path ∉ paths)
    {bytes : Bytes} (hbefore : .read path bytes ∉ first.events) :
    .read path bytes ∉ second.events := by
  obtain ⟨new, hnew, hsort⟩ := h
  rw [hnew, List.mem_append, not_or]
  exact ⟨hbefore, fun hmem => hpath (hsort _ hmem path bytes rfl)⟩

theorem tolerant_readsOnly (paths : List Path) :
    Tolerant (Adds (σ := σ) (Event.ReadsOnly paths)) := tolerant_adds fun _ => nofun

/-- The mutants of a source that were handed over, in order. -/
def mutantsOf (world : World σ) (path : Path) : List Mutant :=
  (world.acceptances.filter fun handed => handed.1 = path).map Prod.snd

theorem mutantsOf_of_append {first second : World σ} {handed : List (Path × Mutant)}
    (h : second.acceptances = first.acceptances ++ handed) (path : Path) :
    second.mutantsOf path
      = first.mutantsOf path ++ (handed.filter fun one => one.1 = path).map Prod.snd := by
  rw [mutantsOf, h, List.filter_append, List.map_append, mutantsOf]

theorem mutantsOf_of_quiet {first second : World σ} (h : Quiet first second) (path : Path) :
    second.mutantsOf path = first.mutantsOf path := by
  rw [mutantsOf, h.1, mutantsOf]

end World

namespace Run

/-- Finding the sources reads none of them, and no corpus is built in a mode without one. -/
theorem readsOnly_gather {tools : Toolchain} {plan : Plan}
    (hown : plan.mode.usesSharedCorpus = false) :
    Respects (World.Adds (Event.ReadsOnly [])) (gather tools plan : Run σ _) := by
  have hR := World.tolerant_readsOnly (σ := σ) []
  have hcorpus : Respects (World.Adds (Event.ReadsOnly []))
      (planCorpus tools plan : Run σ (Option Corpus)) := by
    rw [planCorpus, if_neg (Bool.eq_false_iff.mp hown)]
    exact respects_pure hR none
  refine respects_bind hR (respects_ensureOutputDirectory hR _ fun world _ => ?_) fun _ =>
    respects_bind hR (respects_scan hR _ _ _) fun _ =>
      respects_bind hR hcorpus fun _ => respects_pure hR _
  exact ⟨[], (List.append_nil world.events).symm, by simp⟩

section Turns

variable [Chooser σ] {tools : Toolchain} {plan : Plan} {corpus : Option Corpus} {path : Path}

/-- Mutating a text reads nothing. -/
theorem readsOnly_mutateText (paths : List Path) (text : String) :
    Respects (World.Adds (Event.ReadsOnly paths))
      (mutateText tools plan corpus path text : Run σ _) :=
  respects_mutateText_by (World.tolerant_readsOnly paths)
    (fun world _ => World.adds_after nofun world)
    (fun world _ => ⟨[], (List.append_nil world.events).symm, by simp⟩)
    fun world _ _ tree _ => World.adds_after nofun { world with tree }

/-- In the turn of a source nothing else is read. -/
theorem readsOnly_mutateFile (path : Path) :
    Respects (World.Adds (Event.ReadsOnly [path]))
      (mutateFile tools plan corpus path : Run σ _) := by
  have hR := World.tolerant_readsOnly (σ := σ) [path]
  refine respects_bind hR (respects_log hR _) fun _ => ?_
  refine respects_bind hR (respects_readSource hR fun world bytes _ => ?_) fun text =>
    readsOnly_mutateText _ text
  refine World.adds_after (fun other bytes' heq => ?_) world
  cases heq
  exact List.mem_singleton_self path

theorem readsOnly_mutateFiles (paths : List Path) :
    Respects (World.Adds (Event.ReadsOnly paths))
      (mutateFiles tools plan corpus paths : Run σ _) := by
  induction paths with
  | nil => exact respects_pure (World.tolerant_readsOnly []) _
  | cons path rest ih =>
    have hR := World.tolerant_readsOnly (σ := σ) (path :: rest)
    refine respects_bind hR (fun world => ?_) fun report => ?_
    · refine (readsOnly_mutateFile path world).mono fun event hevent other bytes heq => ?_
      exact List.mem_cons.mpr (.inl (List.mem_singleton.mp (hevent other bytes heq)))
    · refine respects_bind hR (fun world => ?_) fun reports => respects_pure hR _
      exact (ih world).mono fun event hevent other bytes heq =>
        List.mem_cons_of_mem _ (hevent other bytes heq)

/-- The turns of other sources hand over nothing of a source. -/
theorem mutantsOf_of_mutateFiles {paths : List Path} {reports : List SourceReport}
    {world world' : World σ}
    (h : mutateFiles tools plan corpus paths world = (.ok reports, world')) (hpath : path ∉ paths) :
    world'.mutantsOf path = world.mutantsOf path := by
  obtain ⟨yields, rfl, -, -, hhanded, -⟩ := mutateFiles_eq_ok h
  rw [World.mutantsOf_of_append hhanded, List.filter_eq_nil_iff.mpr, List.map_nil, List.append_nil]
  intro handed hmem
  obtain ⟨yield, hyield, hof⟩ := List.mem_flatMap.mp hmem
  obtain ⟨mutant, -, rfl⟩ := List.mem_map.mp hof
  simp only [decide_eq_true_eq]
  rintro rfl
  exact hpath (List.mem_map_of_mem hyield)

/-- A source that is read in the turns of some sources is read in its own turn, if it has one only,
and all that is handed over of it is handed over there. -/
theorem turn_of_mutateFiles {paths : List Path} {reports : List SourceReport} {first last : World σ}
    (h : mutateFiles tools plan corpus paths first = (.ok reports, last)) (hnodup : paths.Nodup)
    {bytes : Bytes} (hunread : .read path bytes ∉ first.events)
    (hread : .read path bytes ∈ last.events) :
    ∃ (report : SourceReport) (before after : World σ),
      mutateFile tools plan corpus path before = (.ok report, after) ∧
      .read path bytes ∉ before.events ∧ .read path bytes ∈ after.events ∧
      before.mutantsOf path = first.mutantsOf path ∧
      last.mutantsOf path = after.mutantsOf path := by
  have hpath : path ∈ paths := by
    by_contra hnot
    exact (readsOnly_mutateFiles paths).of_run h |>.not_mem hnot hunread hread
  obtain ⟨earlier, later, rfl⟩ := List.append_of_mem hpath
  obtain ⟨hearlier, hlater⟩ : path ∉ earlier ∧ path ∉ later := by
    have hmiddle := List.nodup_middle.mp hnodup
    rw [List.nodup_cons, List.mem_append, not_or] at hmiddle
    exact hmiddle.1
  obtain ⟨_, before, _, hfirst, hothers, -⟩ := mutateFiles_append_eq_ok.mp h
  obtain ⟨report, after, hturn, htail⟩ := Chance.bind_eq_ok.mp hothers
  obtain ⟨_, _, hrest, hlast⟩ := Chance.bind_eq_ok.mp htail
  cases hlast
  -- Neither the turns before nor those after are of this source.
  refine ⟨report, before, after, hturn, ?_, ?_, mutantsOf_of_mutateFiles hfirst hearlier,
    mutantsOf_of_mutateFiles hrest hlater⟩
  · exact (readsOnly_mutateFiles earlier).of_run hfirst |>.not_mem hearlier hunread
  · by_contra hnot
    exact (readsOnly_mutateFiles later).of_run hrest |>.not_mem hlater hnot hread

/-- In the turn of a source that is read and harvested, a pass over its harvest is made. -/
theorem pass_of_mutateFile {report : SourceReport} {before after : World σ}
    (h : mutateFile tools plan corpus path before = (.ok report, after)) {bytes : Bytes}
    {text : String} {root : SyntaxTree} (hread : .read path bytes ∈ after.events)
    (hfresh : .read path bytes ∉ before.events) (hdecode : Utf8.decode bytes = .ok text)
    (hwithin : Lines.within text plan.maxLines = true)
    (hparse : tools.parse plan.language bytes = .tree root) :
    ∃ (found : Harvest) (state : σ) (made : List Mutant), found.bytes = bytes ∧
      found.spans = Harvest.spansOf text root ∧
      (plan.mode.mutants tools.patience found plan.count corpus plan.stallLimit state).1.result
        = .ok made ∧
      after.acceptances = before.acceptances ++ made.map fun mutant => (path, mutant) := by
  rw [mutateFile, log_bind_apply] at h
  obtain ⟨text', between, hsource, hmutate⟩ := Chance.bind_eq_ok.mp h
  obtain ⟨bytes', hbytes', hdecode', rfl⟩ := readSource_eq_ok hsource
  -- There is no other reading than the one at the start of the turn.
  have hsame : bytes' = bytes := by
    obtain ⟨new, hnew, hsort⟩ := (readsOnly_mutateText [] text').of_run hmutate
    rw [hnew, World.events_after, World.events_after, List.append_assoc, List.append_assoc] at hread
    rcases List.mem_append.mp hread with hmem | hmem
    · exact absurd hmem hfresh
    · rcases List.mem_append.mp hmem with hmem | hmem
      · simp at hmem
      · rcases List.mem_append.mp hmem with hmem | hmem
        · simp only [List.mem_singleton, Event.read.injEq] at hmem
          exact hmem.2.symm
        · exact absurd (hsort _ hmem path bytes rfl) (List.not_mem_nil)
  subst hsame
  cases hdecode'.symm.trans hdecode
  have hquiet : World.Quiet before
      ((before.after (.logged (.info s!"filename : {path.name}"))).after (.read path bytes')) :=
    World.tolerant_quiet.trans (World.quiet_after rfl rfl before) (World.quiet_after rfl rfl _)
  rw [mutateText_of_within hwithin] at hmutate
  obtain ⟨found, harvested, hharvest, hrest⟩ := Chance.bind_eq_ok.mp hmutate
  have hquiet' : World.Quiet before harvested := World.tolerant_quiet.trans hquiet
    ((respects_harvest World.tolerant_quiet tools _ _ _).of_run hharvest)
  obtain ⟨harvested', hof, -, -⟩ := harvestText_apply tools plan.language path text
    ((before.after (.logged (.info s!"filename : {path.name}"))).after (.read path bytes'))
  obtain ⟨root', source, hparse', hdecoded, rfl⟩ := Harvest.ofParse_eq_ok_iff.mp
    (Toolchain.parsed_of_harvestOf (congrArg Prod.fst (hof.symm.trans hharvest)))
  rw [Utf8.encode_of_decode hdecode] at hparse' hdecoded
  cases hparse'.symm.trans hparse
  cases hdecoded.symm.trans hdecode
  obtain ⟨made, hmade, hhanded, -⟩ := mutateHarvest_eq_ok hrest
  exact ⟨_, _, made, Utf8.encode_of_decode hdecode, rfl, hmade, by rw [hhanded, hquiet'.1]⟩

end Turns

/-! ## Runs for all mutants -/

/-- A run for all mutants that returned.  No mode with a shared corpus can be asked for that. -/
structure ExhaustiveRun (σ : Type) [Chooser σ] where
  tools : Toolchain
  settings : Settings
  opening : Run σ Unit
  tree : FileTree
  chance : σ
  grammars : Grammars
  plan : Plan
  summary : Summary
  world : World σ
  opens : Opening settings opening
  checks : settings.check tree = .ok plan
  exhaustive : plan.count = 0
  returns : mutateAfter opening tools settings (World.fresh tree chance grammars)
    = (.ok summary, world)

namespace ExhaustiveRun

variable [Chooser σ] [Chooser τ]

/-- Whether the run read a source as some bytes and harvested these to a tree. -/
structure Harvested (run : ExhaustiveRun σ) (path : Path) (bytes : Bytes) (root : SyntaxTree) :
    Prop where
  read : .read path bytes ∈ run.world.events
  within : ∃ text, Utf8.decode bytes = .ok text ∧ Lines.within text run.plan.maxLines = true
  parsed : run.tools.parse run.plan.language bytes = .tree root

/-- The mutants that were produced of a source, in order. -/
def mutantsOf (run : ExhaustiveRun σ) (path : Path) : List Mutant := run.world.mutantsOf path

theorem usesSharedCorpus_eq (run : ExhaustiveRun σ) : run.plan.mode.usesSharedCorpus = false := by
  cases hshared : run.plan.mode.usesSharedCorpus with
  | false => rfl
  | true =>
    obtain ⟨hpos, -⟩ := Settings.checkCount_of_shared hshared
      (Settings.check_eq_ok_iff.mp run.checks).count run.plan.mode
    have hzero := run.exhaustive
    omega

/-- What was handed over of a harvested source are all mutants of one harvest of it. -/
theorem exists_pass (run : ExhaustiveRun σ) {path : Path} {bytes : Bytes} {root : SyntaxTree}
    (h : run.Harvested path bytes root) :
    ∃ (text : String) (found : Harvest) (corpus : Option Corpus) (state : σ),
      Utf8.decode bytes = .ok text ∧ found.bytes = bytes ∧
      found.spans = Harvest.spansOf text root ∧
      (run.plan.mode.mutants run.tools.patience found 0 corpus run.plan.stallLimit state).1.result
        = .ok (run.mutantsOf path) := by
  obtain ⟨plan, opened, carried, hplan, hopened, hcarried, hworld⟩ := mutateAfter_eq_ok run.returns
  cases hplan.symm.trans run.checks
  obtain ⟨files, corpus, gathered, sources, mutated, hgathered, hmutated, -, rfl⟩ :=
    carryOutBy_eq_ok.mp hcarried
  -- Up to the first turn nothing was read or handed over.
  have hstart : World.Adds (Event.ReadsOnly [])
      (World.fresh run.tree run.chance run.grammars) gathered := by
    have hR := World.tolerant_readsOnly (σ := σ) []
    apply hR.trans (run.opens.respects_start hR hopened (startLine run.plan))
    exact (readsOnly_gather run.usesSharedCorpus_eq).of_run hgathered
  have hquiet : World.Quiet (World.fresh run.tree run.chance run.grammars) gathered := by
    have hQ : World.Tolerant (World.Quiet (σ := σ)) := World.tolerant_quiet
    apply hQ.trans (run.opens.respects_start hQ hopened (startLine run.plan))
    exact quiet_gather hgathered
  have hunread : .read path bytes ∉ gathered.events := hstart.not_mem List.not_mem_nil (by simp)
  have hlater : World.Quiet mutated run.world := by
    rw [hworld]
    exact World.tolerant_quiet.trans (World.tolerant_quiet.logged mutated _)
      (World.tolerant_quiet.logged _ _)
  have hread : .read path bytes ∈ mutated.events := by
    have hmem := h.read
    rw [hworld, World.events_after, World.events_after] at hmem
    simpa using hmem
  -- The files of a scan are distinct, so that the source has one turn, and is read in that.
  obtain ⟨-, rules, -, -, rfl⟩ := gather_finds hgathered
  have hnodup := FileTree.nodup_sourceFiles gathered.tree run.plan.inputDirectory rules
  obtain ⟨report, before, after, hturn, hfresh, hturned, hbefore, hafter⟩ :=
    turn_of_mutateFiles hmutated hnodup hunread hread
  obtain ⟨text, hdecode, hwithin⟩ := h.within
  obtain ⟨found, state, made, hbytes, hspans, hmade, hhanded⟩ :=
    pass_of_mutateFile hturn hturned hfresh hdecode hwithin h.parsed
  refine ⟨text, found, corpus, state, hdecode, hbytes, hspans, ?_⟩
  have hall : run.mutantsOf path = made := by
    rw [mutantsOf, World.mutantsOf_of_quiet hlater, hafter, World.mutantsOf_of_append hhanded,
      hbefore, World.mutantsOf_of_quiet hquiet]
    simp [World.mutantsOf, World.acceptances, List.filter_map, Function.comp_def]
  rw [hall]
  rw [run.exhaustive] at hmade
  exact hmade

end ExhaustiveRun

/--
All mutants of a source depend on its bytes and its tree alone.  Passes for all mutants, and passes
that fail for their count, leave the numbers as they were; and two runs for all mutants in one mode
that harvest the same bytes to the same tree produce the same mutants of them.
-/
theorem mutants_isolated [Chooser σ] [Chooser τ] :
    (∀ (patience : Nat) (harvest : Harvest) (stall : StallLimit) (state : σ),
      (Deletion.mutants patience harvest 0 state).2 = state ∧
        (Splice.fromSelf patience harvest 0 stall state).2 = state) ∧
      (∀ (mode : Mode) (patience : Nat) (harvest : Harvest) (count : Int) (corpus : Option Corpus)
        (stall : StallLimit) (state : σ) (failure : Failure),
        (mode.mutants patience harvest count corpus stall state).1.result
          = .error (.failed failure) → failure.category = .mutationCount →
        (mode.mutants patience harvest count corpus stall state).2 = state) ∧
      ∀ (first : ExhaustiveRun σ) (second : ExhaustiveRun τ), first.plan.mode = second.plan.mode →
        ∀ (path other : Path) (bytes : Bytes) (root : SyntaxTree),
        first.Harvested path bytes root → second.Harvested other bytes root →
        first.mutantsOf path = second.mutantsOf other := by
  refine ⟨fun patience harvest stall state => ⟨?_, ?_⟩, ?_, ?_⟩
  · change (Mode.deleteOnly.mutants patience harvest 0 none stall state).2 = state
    exact Mode.mutants_zero rfl patience harvest none stall state
  · change (Mode.selfSplice.mutants patience harvest 0 none stall state).2 = state
    exact Mode.mutants_zero rfl patience harvest none stall state
  -- A failure stands at the end of its pass.
  · intro mode patience harvest count corpus stall state failure hresult hclass
    refine Mode.mutants_of_badCount ?_ hclass
    rw [Draft.result] at hresult
    split at hresult
    case h_1 => cases hresult
    case h_2 => cases hresult
    case h_3 stop hending =>
      cases hresult
      exact hending
  · intro first second hmode path other bytes root hfirst hsecond
    obtain ⟨text, found, corpus, state, hdecode, hbytes, hspans, hmade⟩ := first.exists_pass hfirst
    obtain ⟨text', found', corpus', state', hdecode', hbytes', hspans', hmade'⟩ :=
      second.exists_pass hsecond
    cases hdecode.symm.trans hdecode'
    -- Both passes went over harvests with the same bytes and spans.
    have htwin : found.Twin found' := ⟨hbytes.trans hbytes'.symm, hspans.trans hspans'.symm⟩
    have hagain : (second.plan.mode.mutants second.tools.patience found' 0 corpus'
        second.plan.stallLimit state').1.result = .ok (first.mutantsOf path) := by
      rw [← hmode]
      exact htwin.mutants first.usesSharedCorpus_eq hmade
    exact Except.ok.inj (hagain.symm.trans hmade')

/-! ### Two runs with one source in common -/

/-- What all self splices ask for. -/
def selfSplicesPlan : Plan := { sharedSplicesPlan with mode := .selfSplice, count := 0 }

theorem exists_selfSplicesRun (tree : FileTree) (chance : Script)
    (hplan : selfSplices.check tree = .ok selfSplicesPlan)
    (hreturns : (mutate twoNamesTools selfSplices
      (World.fresh tree chance .empty)).1.toOption.isSome) :
    ∃ run : ExhaustiveRun Script, run.tree = tree ∧ run.chance = chance ∧
      run.tools = twoNamesTools ∧ run.plan = selfSplicesPlan ∧
      run.world = (mutate twoNamesTools selfSplices (World.fresh tree chance .empty)).2 := by
  rcases hrun : mutate twoNamesTools selfSplices (World.fresh tree chance .empty) with
    ⟨stop | summary, world⟩
  · rw [hrun] at hreturns
    cases hreturns
  · exact ⟨⟨twoNamesTools, selfSplices, return (), tree, chance, .empty, selfSplicesPlan, summary,
      world, .given, hplan, rfl, hrun⟩, rfl, rfl, rfl, rfl, rfl⟩

/-- The source `a b` gives `b b` and `a a`, alone and beside another source. -/
theorem selfSplices_isolated :
    ∃ first second : ExhaustiveRun Script,
      first.tree = twoNamesTree ∧ second.tree = fourNamesTree ∧ first.chance ≠ second.chance ∧
      first.mutantsOf ⟨.relative, ["in", "a.rs"]⟩ = second.mutantsOf ⟨.relative, ["in", "a.rs"]⟩ ∧
      (first.mutantsOf ⟨.relative, ["in", "a.rs"]⟩).map Mutant.text = ["b b", "a a"] := by
  obtain ⟨first, htree, hchance, htools, hplan, hworld⟩ :=
    exists_selfSplicesRun twoNamesTree ⟨[]⟩ rfl (by decide +kernel)
  obtain ⟨second, htree', hchance', htools', hplan', hworld'⟩ :=
    exists_selfSplicesRun fourNamesTree ⟨[1]⟩ rfl (by decide +kernel)
  -- Both runs have harvested the file that they have in common.
  have hwithin : ∃ text, Utf8.decode [0x61, 0x20, 0x62] = .ok text ∧
      Lines.within text selfSplicesPlan.maxLines = true := ⟨"a b", by decide +kernel⟩
  have hfirst : first.Harvested ⟨.relative, ["in", "a.rs"]⟩ [0x61, 0x20, 0x62]
      (.node ⟨"source_file", 0, 3, ⟨0, 0⟩, ⟨0, 3⟩⟩ [
        .node ⟨"identifier", 0, 1, ⟨0, 0⟩, ⟨0, 1⟩⟩ [],
        .node ⟨"identifier", 2, 3, ⟨0, 2⟩, ⟨0, 3⟩⟩ []]) :=
    ⟨by rw [hworld]; decide +kernel, hplan ▸ hwithin, by rw [htools]; rfl⟩
  have hsecond : second.Harvested ⟨.relative, ["in", "a.rs"]⟩ [0x61, 0x20, 0x62]
      (.node ⟨"source_file", 0, 3, ⟨0, 0⟩, ⟨0, 3⟩⟩ [
        .node ⟨"identifier", 0, 1, ⟨0, 0⟩, ⟨0, 1⟩⟩ [],
        .node ⟨"identifier", 2, 3, ⟨0, 2⟩, ⟨0, 3⟩⟩ []]) :=
    ⟨by rw [hworld']; decide +kernel, hplan' ▸ hwithin, by rw [htools']; rfl⟩
  refine ⟨first, second, htree, htree', by rw [hchance, hchance']; decide,
    mutants_isolated.2.2 first second (by rw [hplan, hplan']) _ _ _ _ hfirst hsecond, ?_⟩
  rw [ExhaustiveRun.mutantsOf, hworld]
  decide +kernel

end Run

end SourceMutation
