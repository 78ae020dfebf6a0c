import SourceMutation.Proofs.Effects

/-!
# Runs that do not look back

What a run does depends on the files, the numbers and the grammars, and never on the events before
it.  So in two worlds that it cannot tell apart it comes to the same result, and it cannot tell the
worlds apart that it leaves there (`Run.Blind`).  Two worlds that differ only in what was read
before are such worlds (`World.Alike`).

Two runs are compared here, which `Run.Respects` cannot do; the lemmas follow the steps of a run in
the same way.  What a step asks of the relation decides which of three classes its lemma needs.

- Steps that only log and draw numbers: the worlds have the same numbers, and go on being related
  after one more event on both sides (`World.Paired`).
- Steps that look at the files or write them: the worlds have the same files as well
  (`World.Indistinct`).
- Steps that load grammars: the worlds have the same grammars as well (`World.Loading`).
-/

namespace SourceMutation

variable {σ α β : Type}

/-! ## Worlds that are alike -/

namespace Event

/-- Whether an event is anything but a reading. -/
def isLasting : Event → Bool
  | .read _ _ => false
  | _ => true

end Event

namespace World

/-- Whether two worlds differ at most in what was read before. -/
structure Alike (first second : World σ) : Prop where
  tree : first.tree = second.tree
  chance : first.chance = second.chance
  grammars : first.grammars = second.grammars
  events : first.events.filter Event.isLasting = second.events.filter Event.isLasting

theorem Alike.refl (world : World σ) : world.Alike world := ⟨rfl, rfl, rfl, rfl⟩

theorem Alike.symm {first second : World σ} (h : first.Alike second) : second.Alike first :=
  ⟨h.tree.symm, h.chance.symm, h.grammars.symm, h.events.symm⟩

theorem Alike.trans {first second third : World σ} (h : first.Alike second)
    (h' : second.Alike third) : first.Alike third :=
  ⟨h.tree.trans h'.tree, h.chance.trans h'.chance, h.grammars.trans h'.grammars,
    h.events.trans h'.events⟩

/-- Worlds that are alike stay so after the same event. -/
theorem Alike.after {first second : World σ} (h : first.Alike second) (event : Event) :
    (first.after event).Alike (second.after event) := by
  refine ⟨h.tree, h.chance, h.grammars, ?_⟩
  rw [events_after, events_after, List.filter_append, List.filter_append, h.events]

/-- A reading makes no difference. -/
theorem alike_after_read (world : World σ) (path : Path) (bytes : Bytes) :
    (world.after (.read path bytes)).Alike world := by
  refine ⟨rfl, rfl, rfl, ?_⟩
  rw [events_after, List.filter_append]
  simp [Event.isLasting]

/-- Relations between worlds that have the same numbers, and that last whatever is drawn or told in
both worlds alike. -/
structure Paired (R : World σ → World σ → Prop) : Prop where
  chance : ∀ {first second}, R first second → first.chance = second.chance
  after : ∀ {first second}, R first second → ∀ event, R (first.after event) (second.after event)
  withChance : ∀ {first second : World σ}, R first second → ∀ chance,
    R { first with chance } { second with chance }

/-- Relations between worlds that also have the same files, and that last whatever becomes of these
in both worlds alike. -/
structure Indistinct (R : World σ → World σ → Prop) : Prop extends Paired R where
  tree : ∀ {first second}, R first second → first.tree = second.tree
  withTree : ∀ {first second : World σ}, R first second → ∀ tree,
    R { first with tree } { second with tree }

/-- Relations between worlds that also have the same grammars, and that last whatever is loaded in
both worlds alike. -/
structure Loading (R : World σ → World σ → Prop) : Prop extends Paired R where
  grammars : ∀ {first second}, R first second → first.grammars = second.grammars
  withGrammars : ∀ {first second : World σ}, R first second → ∀ grammars,
    R { first with grammars } { second with grammars }

/-- Worlds that are alike have the same numbers. -/
theorem paired_alike : Paired (Alike (σ := σ)) where
  chance h := h.chance
  after h event := h.after event
  withChance h _ := ⟨h.tree, rfl, h.grammars, h.events⟩

/-- Worlds that are alike have the same files. -/
theorem indistinct_alike : Indistinct (Alike (σ := σ)) where
  toPaired := paired_alike
  tree h := h.tree
  withTree h _ := ⟨rfl, h.chance, h.grammars, h.events⟩

/-- Worlds that are alike have the same grammars. -/
theorem loading_alike : Loading (Alike (σ := σ)) where
  toPaired := paired_alike
  grammars h := h.grammars
  withGrammars h _ := ⟨h.tree, h.chance, rfl, h.events⟩

end World

/-! ## From the harvest on -/

namespace Run

/-- Mutates a harvest and tells what became of it. -/
def mutateHarvest [Chooser σ] (tools : Toolchain) (plan : Plan) (corpus : Option Corpus)
    (path : Path) (found : Harvest) : Run σ SourceReport := do
  let mutants ← mutants tools plan found corpus
  handOver path mutants
  let written ← writeMutants plan.outputDirectory path mutants
  log (.info s!"Number of generated files of {path.name}: {mutants.length}")
  return {
    path := path.text
    spanCount := found.spans.length
    mutantCount := mutants.length
    written := written.map Path.text }

/-- A text that is short enough is harvested, and its harvest is mutated. -/
theorem mutateText_of_within [Chooser σ] {tools : Toolchain} {plan : Plan} {text : String}
    (hwithin : Lines.within text plan.maxLines = true) (corpus : Option Corpus) (path : Path) :
    (mutateText tools plan corpus path text : Run σ SourceReport)
      = harvestText tools text plan.language path >>= mutateHarvest tools plan corpus path :=
  if_pos hwithin

/-- A text that is too long is passed over. -/
theorem mutateText_of_not_within [Chooser σ] {tools : Toolchain} {plan : Plan} {text : String}
    (hlong : Lines.within text plan.maxLines = false) (corpus : Option Corpus) (path : Path) :
    (mutateText tools plan corpus path text : Run σ SourceReport)
      = do
        log (.debug s!"Skipping '{path.text}': {tooLong plan.maxLines}")
        return {
          path := path.text, skipped := true, skipReason := some (tooLong plan.maxLines) } :=
  if_neg (Bool.eq_false_iff.mp hlong)

/-! ## Blind runs

A run is blind to a difference between worlds if it does the same in both and keeps them related.
Parts of a run that are blind make a blind run.
-/

variable {R : World σ → World σ → Prop}

/-- Whether a run does the same in related worlds, and leaves related worlds. -/
def Blind (R : World σ → World σ → Prop) (m : Run σ α) : Prop :=
  ∀ first second : World σ, R first second →
    (m first).1 = (m second).1 ∧ R (m first).2 (m second).2

/-- What a blind run comes to in one world, it comes to in a world that is related to it. -/
theorem Blind.of_run {m : Run σ α} (h : Blind R m) {first second after : World σ}
    (hrelated : R first second) {result : Except Stop α} (hrun : m second = (result, after)) :
    ∃ after', m first = (result, after') ∧ R after' after := by
  obtain ⟨hresult, hafter⟩ := h first second hrelated
  rw [hrun] at hresult hafter
  exact ⟨(m first).2, Prod.ext hresult rfl, hafter⟩

theorem blind_pure (a : α) : Blind R (pure a : Run σ α) := fun _ _ h => ⟨rfl, h⟩

theorem blind_throw (stop : Stop) : Blind R (throw stop : Run σ α) := fun _ _ h => ⟨rfl, h⟩

/-- A run of two parts is blind if both parts are. -/
theorem blind_bind {m : Run σ α} {f : α → Run σ β} (hm : Blind R m) (hf : ∀ a, Blind R (f a)) :
    Blind R (m >>= f) := by
  intro first second hrelated
  rw [Chance.bind_apply, Chance.bind_apply]
  cases hrun : m second with
  | mk result after =>
    obtain ⟨after', hrun', hafter⟩ := hm.of_run hrelated hrun
    rw [hrun']
    cases result with
    | error stop => exact ⟨rfl, hafter⟩
    | ok a => exact hf a after' after hafter

theorem blind_fail (failure : Failure) : Blind R (fail failure : Run σ α) := blind_throw _

/-- A result that is given looks at nothing. -/
theorem blind_ofExcept (result : Except Failure α) : Blind R (ofExcept result : Run σ α) := by
  cases result with
  | error failure => exact blind_fail failure
  | ok a => exact blind_pure a

section Paired

variable (hR : World.Paired R)

include hR

/-- An event is recorded without looking at those before. -/
theorem blind_record (event : Event) : Blind R (record event : Run σ Unit) :=
  fun _ _ h => ⟨rfl, hR.after h event⟩

theorem blind_log (line : LogLine) : Blind R (log line : Run σ Unit) := blind_record hR _

theorem blind_logAll (lines : List LogLine) : Blind R (logAll lines : Run σ Unit) := by
  induction lines with
  | nil => exact blind_pure ()
  | cons line rest ih => exact blind_bind (blind_log hR line) fun _ => ih

/-- A pass draws the same numbers in both worlds. -/
theorem blind_draft (pass : Pass σ) : Blind R (draft pass : Run σ Draft) := by
  intro first second h
  rw [draft_apply, draft_apply, hR.chance h]
  exact ⟨rfl, hR.withChance h _⟩

/-- Mutants are made of the harvest, the corpus and the numbers. -/
theorem blind_mutants [Chooser σ] (tools : Toolchain) (plan : Plan) (harvest : Harvest)
    (corpus : Option Corpus) : Blind R (mutants tools plan harvest corpus : Run σ _) := by
  refine blind_bind (blind_draft hR _) fun draft => ?_
  refine blind_bind (blind_logAll hR _) fun _ => ?_
  split
  · exact blind_pure _
  · exact blind_bind (blind_log hR _) fun _ => blind_pure _
  · exact blind_throw _

/-- Rules of a scan are read from the settings. -/
theorem blind_scanRules (suffixes patterns : Value) :
    Blind R (scanRules suffixes patterns : Run σ ScanRules) := by
  refine blind_bind (blind_ofExcept _) fun rules => ?_
  split
  · exact blind_bind (blind_log hR _) fun _ => blind_pure _
  · exact blind_pure _

/-- A scan comes to the same files if it meets the same. -/
theorem blind_scan_by {directory : Path}
    (hvisits : ∀ rules, Blind R (visits directory rules : Run σ (List Visit)))
    (suffixes patterns : Value) :
    Blind R (scan directory suffixes patterns : Run σ (List Path)) := by
  refine blind_bind (blind_scanRules hR _ _) fun rules => ?_
  refine blind_bind (hvisits rules) fun met => ?_
  exact blind_bind (blind_logAll hR _) fun _ => blind_pure _

/-- A traced step is as blind as its body. -/
theorem blind_traced {m : Run σ α} (hm : Blind R m) (step : String) : Blind R (traced step m) := by
  intro first second h
  obtain ⟨hresult, hworlds⟩ := hm _ _ (hR.after h (.logged (.entered step)))
  rw [traced, log_bind_apply, log_bind_apply, Chance.bind_apply, Chance.bind_apply,
    Chance.tryCatch_apply, Chance.tryCatch_apply]
  generalize m (first.after (.logged (.entered step))) = one at hresult hworlds ⊢
  generalize m (second.after (.logged (.entered step))) = other at hresult hworlds ⊢
  obtain ⟨result, after⟩ := one
  obtain ⟨result', after'⟩ := other
  dsimp only at hresult
  subst hresult
  -- The handler logs a failure and hands it on; out of numbers, it logs nothing.
  rcases result with (failure | _) | a
  · exact ⟨rfl, hR.after hworlds _⟩
  · exact ⟨rfl, hworlds⟩
  · exact ⟨rfl, hR.after hworlds _⟩

/-- Mutants are handed over whatever was handed over before. -/
theorem blind_handOver (source : Path) (mutants : List Mutant) :
    Blind R (handOver source mutants : Run σ Unit) := by
  induction mutants with
  | nil => exact blind_pure ()
  | cons mutant rest ih => exact blind_bind (blind_record hR _) fun _ => ih

omit hR in
/-- Mutants are written alike if each file is. -/
theorem blind_writeNumbered {directory : Path} {source : String}
    (hwrite : ∀ (index : Nat) bytes,
      Blind R (writeOutput (directory.below [MutantName.compose source index]) bytes))
    (index : Nat) (mutants : List Mutant) :
    Blind R (writeNumbered directory source index mutants : Run σ _) := by
  induction mutants generalizing index with
  | nil => exact blind_pure []
  | cons mutant rest ih =>
    rw [writeNumbered]
    cases hname : MutantName.ofIndex source index with
    | error failure => exact blind_throw _
    | ok name =>
      obtain rfl := compose_of_ofIndex hname
      rw [show (ofExcept (.ok (MutantName.compose source index)) : Run σ String)
        = pure (MutantName.compose source index) from rfl, pure_bind]
      exact blind_bind (hwrite index _) fun _ => blind_bind (ih (index + 1)) fun _ => blind_pure _

/-- Mutants are written without looking back if the output directory is made so and each file is
written so. -/
theorem blind_writeMutants_by {directory source : Path}
    (hensure : Blind R (ensureOutputDirectory directory : Run σ Unit))
    (hwrite : ∀ (index : Nat) bytes,
      Blind R (writeOutput (directory.below [MutantName.compose source.name index]) bytes))
    (mutants : List Mutant) :
    Blind R (writeMutants directory source mutants : Run σ (List Path)) := by
  unfold writeMutants
  split
  · exact blind_pure []
  · refine blind_bind hensure fun _ => ?_
    refine blind_bind (blind_writeNumbered hwrite 1 mutants) fun _ => ?_
    exact blind_bind (blind_log hR _) fun _ => blind_pure _

/-- What becomes of a harvest, if its mutants are written alike. -/
theorem blind_mutateHarvest_by [Chooser σ] {tools : Toolchain} {plan : Plan} {path : Path}
    (hwrite : ∀ mutants, Blind R (writeMutants plan.outputDirectory path mutants))
    (corpus : Option Corpus) (found : Harvest) :
    Blind R (mutateHarvest tools plan corpus path found : Run σ _) := by
  refine blind_bind (blind_mutants hR _ _ _ _) fun made => ?_
  refine blind_bind (blind_handOver hR _ _) fun _ => ?_
  refine blind_bind (hwrite made) fun _ => ?_
  exact blind_bind (blind_log hR _) fun _ => blind_pure _

end Paired

section Indistinct

variable (hR : World.Indistinct R)

include hR

/-- Worlds that cannot be told apart have the same files. -/
theorem blind_tree : Blind R (tree : Run σ FileTree) := by
  intro first second h
  rw [tree_apply, tree_apply, hR.tree h]
  exact ⟨rfl, h⟩

/-- The files that are set are the same in both worlds. -/
theorem blind_setTree (tree : FileTree) : Blind R (setTree tree : Run σ Unit) :=
  fun _ _ h => ⟨rfl, hR.withTree h tree⟩

/-- What a scan meets is told by the files. -/
theorem blind_visits (directory : Path) (rules : ScanRules) :
    Blind R (visits directory rules : Run σ (List Visit)) := by
  have hmet : Blind R (do return (← tree).visits directory rules : Run σ (List Visit)) :=
    blind_bind (blind_tree hR) fun _ => blind_pure _
  rw [visits]
  split
  · exact blind_bind (blind_fail _) fun _ => hmet
  · exact hmet

theorem blind_scan (directory : Path) (suffixes patterns : Value) :
    Blind R (scan directory suffixes patterns : Run σ (List Path)) :=
  blind_scan_by hR.toPaired (blind_visits hR directory) suffixes patterns

/-! ### Output -/

/-- Making the output directory looks at the files alone. -/
theorem blind_ensureOutputDirectory (path : Path) :
    Blind R (ensureOutputDirectory path : Run σ Unit) := by
  refine blind_bind (blind_tree hR) fun before => ?_
  split
  · exact blind_fail _
  · exact blind_pure ()
  · refine blind_bind (blind_setTree hR _) fun _ => ?_
    split
    · exact blind_log hR.toPaired _
    · exact blind_fail _

/-- Writing a file looks at the files alone. -/
theorem blind_writeOutput (path : Path) (bytes : Bytes) :
    Blind R (writeOutput path bytes : Run σ Unit) := by
  refine blind_bind (blind_tree hR) fun before => ?_
  split
  · exact blind_fail _
  · exact blind_bind (blind_setTree hR _) fun _ => blind_record hR.toPaired _

/-- What becomes of mutants and of a harvest. -/
theorem blind_writeMutants (directory source : Path) (mutants : List Mutant) :
    Blind R (writeMutants directory source mutants : Run σ (List Path)) :=
  blind_writeMutants_by hR.toPaired (blind_ensureOutputDirectory hR directory)
    (fun _ bytes => blind_writeOutput hR _ bytes) mutants

theorem blind_mutateHarvest [Chooser σ] (tools : Toolchain) (plan : Plan)
    (corpus : Option Corpus) (path : Path) (found : Harvest) :
    Blind R (mutateHarvest tools plan corpus path found : Run σ _) :=
  blind_mutateHarvest_by hR.toPaired
    (fun mutants => blind_writeMutants hR plan.outputDirectory path mutants) corpus found

end Indistinct

/-! ## Runs that load grammars -/

section Loading

variable (hR : World.Loading R)

include hR

/-- Whether a parser loads is told by the grammars that are kept. -/
theorem blind_loadParser (tools : Toolchain) (given : Value) :
    Blind R (loadParser tools given : Run σ Unit) := by
  intro first second h
  rw [loadParser_apply, loadParser_apply, hR.grammars h]
  refine ⟨rfl, ?_⟩
  obtain ⟨-, hlines⟩ := blind_logAll hR.toPaired
    (Grammars.askParser tools.installed given second.grammars).log _ _ (hR.withGrammars h
      (Grammars.askParser tools.installed given second.grammars).kept)
  rw [logAll_apply, logAll_apply] at hlines
  exact hlines

/-- A harvest needs the bytes and the grammars. -/
theorem blind_harvest (tools : Toolchain) (bytes : Bytes) (given : Value)
    (path : Option String) : Blind R (harvest tools bytes given path : Run σ Harvest) := by
  refine blind_bind (blind_loadParser hR tools given) fun _ => ?_
  refine blind_bind (blind_ofExcept _) fun language => ?_
  refine blind_bind (blind_ofExcept _) fun found => ?_
  split
  · exact blind_bind (blind_log hR.toPaired _) fun _ => blind_pure _
  · exact blind_pure _

/-- What becomes of a text, if its mutants are written alike. -/
theorem blind_mutateText_by [Chooser σ] {tools : Toolchain} {plan : Plan} {path : Path}
    (hwrite : ∀ mutants, Blind R (writeMutants plan.outputDirectory path mutants))
    (corpus : Option Corpus) (text : String) :
    Blind R (mutateText tools plan corpus path text : Run σ _) := by
  cases hwithin : Lines.within text plan.maxLines with
  | true =>
    rw [mutateText_of_within hwithin]
    exact blind_bind (blind_harvest hR _ _ _ _) fun found =>
      blind_mutateHarvest_by hR.toPaired hwrite corpus found
  | false =>
    rw [mutateText_of_not_within hwithin]
    exact blind_bind (blind_log hR.toPaired _) fun _ => blind_pure _

end Loading

/-- What becomes of a text does not depend on what was read before. -/
theorem blind_mutateText [Chooser σ] (tools : Toolchain) (plan : Plan) (corpus : Option Corpus)
    (path : Path) (text : String) :
    Blind World.Alike (mutateText tools plan corpus path text : Run σ _) :=
  blind_mutateText_by World.loading_alike
    (fun mutants => blind_writeMutants World.indistinct_alike plan.outputDirectory path mutants)
    corpus text

end Run

end SourceMutation
