import SourceMutation.Proofs.SharedCorpora
import SourceMutation.Proofs.Stops

/-!
# Sources that are ready

A source is ready if it can be read, and harvested if it is short enough (`Run.Ready`).  A corpus
pass that returns leaves all of its sources ready (`Run.ready_of_gather`), and so do the turns of
other sources, as long as nothing is written over them (`Run.Ready.of_turns`).

At the turn of a source that is ready a run does not stop for the sake of the source
(`Run.Ready.not_unread`, `Run.Ready.not_unharvested`).
-/

namespace SourceMutation.Run

variable {σ : Type} {tools : Toolchain} {language : Language} {maxLines : Nat} {path : Path}
  {first second : World σ}

/-- Whether the source at a path can be read, and harvested if it is short enough. -/
def Ready (tools : Toolchain) (language : Language) (maxLines : Nat) (path : Path)
    (world : World σ) : Prop :=
  ∃ text, world.tree.HasText path text ∧
    (Lines.within text maxLines = true →
      ∃ found, tools.harvestOf language path text world.grammars = .ok found)

/-- A source stays ready where it is read as before and the grammars serve as well. -/
theorem Ready.of_serves (h : Ready tools language maxLines path first)
    (hread : ∀ bytes, first.tree.read path = .ok bytes → second.tree.read path = .ok bytes)
    (hserves : Grammars.Serves tools.installed language first.grammars second.grammars) :
    Ready tools language maxLines path second := by
  obtain ⟨text, ⟨bytes, hbytes, hdecode⟩, hharvest⟩ := h
  refine ⟨text, ⟨bytes, hread bytes hbytes, hdecode⟩, fun hwithin => ?_⟩
  obtain ⟨found, hfound⟩ := hharvest hwithin
  exact ⟨found, Toolchain.harvestOf_of_serves hserves hfound⟩

theorem Ready.not_unread (h : Ready tools language maxLines path first) {failure : Failure} :
    first.tree.sourceText path ≠ .error failure := by
  obtain ⟨text, htext, -⟩ := h
  intro herror
  cases (FileTree.sourceText_eq_ok_iff.mpr htext).symm.trans herror

theorem Ready.not_unharvested (h : Ready tools language maxLines path first) {text : String}
    (htext : first.tree.HasText path text) (hwithin : Lines.within text maxLines = true)
    {stop : Stop} : tools.harvestOf language path text first.grammars ≠ .error stop := by
  obtain ⟨other, hother, hharvest⟩ := h
  cases hother.unique htext
  obtain ⟨found, hfound⟩ := hharvest hwithin
  intro herror
  cases hfound.symm.trans herror

/-! ## The corpus pass -/

/-- A source that was added is ready, and the grammars serve as well as before. -/
theorem ready_of_addFile {corpus : Corpus} {added : Bool × Corpus}
    (h : addFile tools language maxLines path corpus first = (.ok added, second)) :
    second.tree = first.tree ∧
      Grammars.Serves tools.installed language first.grammars second.grammars ∧
      Ready tools language maxLines path second := by
  obtain ⟨isUsed, joint⟩ := added
  obtain ⟨htree, text, htext, -⟩ := addFile_eq_ok h
  refine ⟨htree, ?_⟩
  -- A source that is too long loads no parser; one that is not has loaded it and was harvested.
  cases hwithin : Lines.within text maxLines with
  | false =>
    obtain ⟨after, hrun, hsame⟩ :=
      addFile_of_tooLong tools language corpus ⟨text, htext, hwithin⟩
    obtain rfl := congrArg Prod.snd (h.symm.trans hrun)
    rw [hsame.tree] at htext
    refine ⟨hsame.grammars ▸ .refl _ _ _, text, htext, fun hshort => ?_⟩
    cases hwithin.symm.trans hshort
  | true =>
    obtain ⟨after, hrun, hlevel, hkept⟩ := addFile_of_within tools language corpus htext hwithin
    have hboth := h.symm.trans hrun
    obtain rfl := congrArg Prod.snd hboth
    have hserves : Grammars.Serves tools.installed language first.grammars second.grammars := by
      rw [hkept]
      exact Grammars.serves_kept _ _ _
    refine ⟨hserves, text, hlevel.tree ▸ htext, fun _ => ?_⟩
    cases hharvest : tools.harvestOf language path text first.grammars with
    | error stop =>
      rw [hharvest] at hboth
      cases hboth
    | ok found => exact ⟨found, Toolchain.harvestOf_of_serves hserves hharvest⟩

/-- Sources that were gone over are ready. -/
theorem ready_of_addVisits {directory : Path} {met : List Visit} {used : Nat} {corpus : Corpus}
    {added : Nat × Corpus}
    (h : addVisits tools language maxLines directory met used corpus first = (.ok added, second)) :
    second.tree = first.tree ∧
      Grammars.Serves tools.installed language first.grammars second.grammars ∧
      ∀ path ∈ filesOf directory met, Ready tools language maxLines path second := by
  induction met generalizing used corpus first with
  | nil =>
    cases h
    exact ⟨rfl, .refl _ _ _, nofun⟩
  | cons visit rest ih =>
    rw [addVisits, logAll_bind_apply] at h
    have hlogged := first.still_afterLines (visitLine? visit).toList
    rw [hlogged.tree, ← hlogged.grammars]
    generalize first.afterLines (visitLine? visit).toList = logged at h ⊢
    cases hfile : visit.file? with
    | none =>
      rw [hfile] at h
      rw [filesOf_cons_of_none hfile]
      exact ih h
    | some names =>
      rw [hfile] at h
      rw [filesOf_cons_of_some hfile]
      obtain ⟨⟨isUsed, joint⟩, between, hadd, hothers⟩ := Chance.bind_eq_ok.mp h
      -- What is ready after its own turn stays so, since the files and the grammars are kept.
      obtain ⟨htree, hserves, hready⟩ := ready_of_addFile hadd
      obtain ⟨htree', hserves', hrest⟩ := ih hothers
      refine ⟨htree'.trans htree, hserves.trans hserves', List.forall_mem_cons.mpr ⟨?_, hrest⟩⟩
      exact hready.of_serves (fun bytes hbytes => htree' ▸ hbytes) hserves'

/-- Sources of which a corpus was gathered are ready. -/
theorem ready_of_gather {plan : Plan} (hlines : 1 ≤ plan.maxLines) {files : List Path}
    {corpus : Corpus} (h : gather tools plan first = (.ok (files, some corpus), second)) :
    ∀ path ∈ files, Ready tools plan.language plan.maxLines path second := by
  obtain ⟨met, used, start, added, rfl, -, -, hadded, hsame⟩ := addVisits_of_gather hlines h
  obtain ⟨-, -, hready⟩ := ready_of_addVisits hadded
  intro path hpath
  refine (hready path hpath).of_serves (fun bytes hbytes => ?_) ?_
  · rw [← hsame.tree]
    exact hbytes
  · rw [hsame.grammars]
    exact .refl _ _ _

/-! ## Turns of other sources -/

section Turns

variable [Chooser σ] {plan : Plan} {corpus : Option Corpus}

/-- Mutating a harvest loads nothing. -/
theorem grammars_mutateHarvest (tools : Toolchain) (plan : Plan) (corpus : Option Corpus)
    (path : Path) (found : Harvest) (world : World σ) :
    (mutateHarvest tools plan corpus path found world).2.grammars = world.grammars := by
  -- The world is compared with itself; no step but loading tells one grammar from another.
  have hsteps : World.Indistinct fun first second : World σ =>
      first = second ∧ first.grammars = world.grammars := {
    chance := fun h => h.1 ▸ rfl
    after := fun h event => ⟨h.1 ▸ rfl, h.2⟩
    withChance := fun h _ => ⟨h.1 ▸ rfl, h.2⟩
    tree := fun h => h.1 ▸ rfl
    withTree := fun h _ => ⟨h.1 ▸ rfl, h.2⟩ }
  exact (blind_mutateHarvest hsteps tools plan corpus path found world world ⟨rfl, rfl⟩).2.2

theorem hasText_of_mutateFile {report : SourceReport}
    (h : mutateFile tools plan corpus path first = (.ok report, second)) :
    ∃ text, first.tree.HasText path text := by
  rw [mutateFile, log_bind_apply] at h
  obtain ⟨text, read, hread, -⟩ := Chance.bind_eq_ok.mp h
  obtain ⟨bytes, hbytes, hdecode, -⟩ := readSource_eq_ok hread
  exact ⟨text, bytes, hbytes, hdecode⟩

theorem serves_of_mutateFile {report : SourceReport}
    (h : mutateFile tools plan corpus path first = (.ok report, second)) :
    Grammars.Serves tools.installed plan.language first.grammars second.grammars := by
  obtain ⟨text, htext⟩ := hasText_of_mutateFile h
  cases hwithin : Lines.within text plan.maxLines with
  | false =>
    obtain ⟨after, hrun, hsame⟩ := mutateFile_of_tooLong tools corpus ⟨text, htext, hwithin⟩
    obtain rfl := congrArg Prod.snd (h.symm.trans hrun)
    rw [hsame.grammars]
    exact .refl _ _ _
  -- The harvest has loaded the parser, and nothing after it loads anything.
  | true =>
    obtain ⟨harvested, -, hkept, hrun⟩ := mutateFile_of_within tools corpus htext hwithin
    have hboth := h.symm.trans hrun
    split at hboth
    · cases hboth
    case h_2 found _ =>
      have hgrammars := grammars_mutateHarvest tools plan corpus path found harvested
      rw [← hboth] at hgrammars
      rw [hgrammars, hkept]
      exact Grammars.serves_kept _ _ _

theorem serves_of_mutateFiles {paths : List Path} {reports : List SourceReport}
    (h : mutateFiles tools plan corpus paths first = (.ok reports, second)) :
    Grammars.Serves tools.installed plan.language first.grammars second.grammars := by
  induction paths generalizing first reports with
  | nil =>
    cases h
    exact .refl _ _ _
  | cons path rest ih =>
    obtain ⟨report, between, hfile, hothers⟩ := Chance.bind_eq_ok.mp h
    obtain ⟨others, last, hrest, hlast⟩ := Chance.bind_eq_ok.mp hothers
    cases hlast
    exact (serves_of_mutateFile hfile).trans (ih hrest)

/-- The turns of other sources leave a source ready that nothing is written over. -/
theorem Ready.of_turns (h : Ready tools plan.language plan.maxLines path first)
    (hgrounded : first.tree.Grounded) {paths : List Path} {reports : List SourceReport}
    (hrun : mutateFiles tools plan corpus paths first = (.ok reports, second))
    (hapart : ∀ target bytes, (target, bytes) ∈ second.writings →
      second.tree.locate target ≠ second.tree.locate path) :
    Ready tools plan.language plan.maxLines path second := by
  obtain ⟨new, hnew, haccounted⟩ :=
    (respects_mutateFiles (World.steps_accounts _) paths).of_run hrun hgrounded
  refine h.of_serves (fun bytes hbytes => ?_) (serves_of_mutateFiles hrun)
  refine haccounted.read_again hbytes fun target written hmem => hapart target written ?_
  refine List.mem_filterMap.mpr ⟨.wrote target written, ?_, rfl⟩
  rw [hnew]
  exact List.mem_append_right _ hmem

end Turns

end SourceMutation.Run
