import SourceMutation.Proofs.OneSource
import SourceMutation.Proofs.Scans

/-!
# Numbers that agree

A run counts its mutants in several places: each pass numbers the mutants that it makes, the output
numbers the files that it writes, reports count what was made, and the summary adds the reports up.
All of these agree (`Run.mutateAfter_tallies`).

## Passes

- Mutants of one pass are numbered from one, in the order in which they are made (`Numbered`).
- How many there are is what the mode promises (`Mode.mutants_counts`).  Deletions are as many as
  there are spans to delete, or as many as are asked for if these are fewer.  Splices that are drawn
  are as many as are asked for, or none at all.
- Both are proved of drafts first (`Draft.Counts`), since a pass that is stopped has numbered what
  it made until then.

## Sources and runs

- The report of a source, the mutants handed over and the files written have the same numbers,
  whatever the mode (`Yield.Tallied`).  A source that is too long has none of them, and its report
  says why it was skipped.
- Sources take turns, and each was read in its own turn, after all that the turns before had written
  (`Run.InTurn`).
- The summary has a report for each source in the order of the scan, and its totals are the sums
  over these (`Run.Tallies`).
-/

namespace SourceMutation

variable {σ α : Type}

/-! ## Mutants in order -/

/-- Whether mutants bear the numbers from `index` on, in order, and show them. -/
def Numbered (index : Nat) (mutants : List Mutant) : Prop :=
  ∀ k mutant, mutants[k]? = some mutant →
    mutant.index = ((index + k : Nat) : Int) ∧
      ∃ rest : String, mutant.describe = s!"[{((index + k : Nat) : Int)}] " ++ rest

/-- A mutant shows its number first. -/
theorem Mutant.describe_index (mutant : Mutant) :
    ∃ rest : String, mutant.describe = s!"[{mutant.index}] " ++ rest := by
  rw [describe]
  split
  · exact ⟨_, by simp only [String.append_assoc]; rfl⟩
  · exact ⟨_, by simp only [String.append_assoc]; rfl⟩

/-- Where there are no mutants, they are numbered from anywhere. -/
theorem numbered_nil (index : Nat) : Numbered index [] := by
  intro k mutant h
  cases h

/-- The first mutant bears the first number, and the others those after it. -/
theorem Numbered.cons {index : Nat} {mutant : Mutant} {rest : List Mutant}
    (hindex : mutant.index = index) (h : Numbered (index + 1) rest) :
    Numbered index (mutant :: rest) := by
  intro k other hother
  cases k with
  | zero =>
    obtain rfl : mutant = other := by simpa using hother
    refine ⟨hindex, ?_⟩
    rw [Nat.add_zero, ← hindex]
    exact mutant.describe_index
  | succ k =>
    have hplace : index + (k + 1) = index + 1 + k := by omega
    rw [hplace]
    exact h k other (by simpa using hother)

/-- A mutant bears the number that it was made with. -/
theorem Mutant.index_of_make {harvest : Harvest} {index : Nat} {span : Span}
    {replacement : Replacement} {mutant : Mutant}
    (h : Mutant.make harvest index span replacement = .ok mutant) : mutant.index = index := by
  obtain ⟨own, -, h⟩ := except_bind_eq_ok.mp h
  obtain ⟨text, -, h⟩ := except_bind_eq_ok.mp h
  cases h
  rfl

/-! ## What a draft counts -/

/-- Whether the mutants of a draft are numbered from `index` on, and, if the draft has a result,
are as many as allowed. -/
structure Draft.Counts (index : Nat) (allowed : Nat → Prop) (draft : Draft) : Prop where
  numbered : Numbered index draft.mutants
  allowed : ∀ made, draft.result = .ok made → allowed made.length

namespace Draft

variable {index : Nat} {allowed : Nat → Prop} {draft : Draft}

/-- A draft that counts what one rule allows counts what a weaker one allows. -/
theorem Counts.mono {others : Nat → Prop} (h : Counts index allowed draft)
    (himp : ∀ n, allowed n → others n) : Counts index others draft where
  numbered := h.numbered
  allowed made hmade := himp _ (h.allowed made hmade)

/-- An empty draft counts if no mutants are allowed. -/
theorem counts_nothing (index : Nat) (h : allowed 0) : Counts index allowed nothing where
  numbered := numbered_nil index
  allowed made hmade := by
    cases hmade
    exact h

/-- A draft without mutants that has no result counts as anything. -/
theorem counts_stopped (index : Nat) (allowed : Nat → Prop) (stop : Stop) :
    Counts index allowed ⟨[], .stopped stop⟩ where
  numbered := numbered_nil index
  allowed made hmade := by cases hmade

/-- One more mutant in front of a draft is one more in all. -/
theorem Counts.after {mutant : Mutant} (hindex : mutant.index = index)
    (h : Counts (index + 1) (fun n => allowed (n + 1)) draft) :
    Counts index allowed (draft.after mutant) where
  numbered := h.numbered.cons hindex
  allowed made hmade := by
    obtain ⟨mutants, ending⟩ := draft
    cases ending with
    | complete =>
      cases hmade
      exact h.allowed mutants rfl
    | gaveUp =>
      cases hmade
      exact h.allowed mutants rfl
    | stopped stop => cases hmade

/-- A draft of a list makes a mutant of each of its items, or has no result. -/
theorem counts_ofList (harvest : Harvest) (index : Nat) (pairs : List (Span × Replacement)) :
    Counts index (fun n => n = pairs.length) (ofList harvest index pairs) := by
  induction pairs generalizing index with
  | nil => exact counts_nothing index rfl
  | cons pair rest ih =>
    obtain ⟨span, replacement⟩ := pair
    rw [ofList]
    split
    case h_1 mutant hmake =>
      refine Counts.after (Mutant.index_of_make hmake) ?_
      simpa using ih (index + 1)
    case h_2 => exact counts_stopped _ _ _

end Draft

/-! ## How many a sample has -/

namespace Sample

variable [Chooser σ]

/-- A sample from a pool has as many elements as were asked for. -/
theorem length_of_fromPool {k : Nat} {pool drawn : List α} {state state' : σ}
    (h : (fromPool k pool : Chance σ (List α)) state = (.ok drawn, state')) :
    drawn.length = k := by
  induction k generalizing pool drawn state state' with
  | zero =>
    cases h
    rfl
  | succ k ih =>
    obtain ⟨i, first, -, h⟩ := Chance.bind_eq_ok.mp h
    obtain ⟨others, second, hothers, h⟩ := Chance.bind_eq_ok.mp h
    cases h
    rw [List.length_cons, ih hothers]

/-- A sample that is drawn by places not used before has as many elements as were asked for. -/
theorem length_of_fromUnused {patience k : Nat} {items drawn : List α} {used : List Nat}
    {state state' : σ}
    (h : (fromUnused patience items k used : Chance σ (List α)) state = (.ok drawn, state')) :
    drawn.length = k := by
  induction k generalizing used drawn state state' with
  | zero =>
    cases h
    rfl
  | succ k ih =>
    -- A place that was used is drawn again, so each step adds one element.
    obtain ⟨i, first, -, h⟩ := Chance.bind_eq_ok.mp h
    obtain ⟨others, second, hothers, h⟩ := Chance.bind_eq_ok.mp h
    cases h
    rw [List.length_cons, ih hothers]

/-- A sample of `k` items has `k` items, whichever way they are drawn. -/
theorem length_of_ofList {patience k : Nat} {items drawn : List α} {state state' : σ}
    (h : (ofList patience items k : Chance σ (List α)) state = (.ok drawn, state')) :
    drawn.length = k := by
  rw [ofList] at h
  split at h
  · exact length_of_fromPool h
  · exact length_of_fromUnused h

end Sample

/-! ## How many a pass makes

Each strategy is taken to its draw loop or to a list of pairs, and what is counted there is carried
back to the mode.
-/

/-- A count that is taken is taken as it is. -/
theorem eq_of_checkCount {count n : Nat} {allowAll : Bool}
    (h : checkCount count allowAll = .ok n) : n = count := by
  unfold checkCount at h
  split at h
  · cases h
  · split at h <;> cases h
    exact Int.toNat_natCast count

/-- Whether a pass numbers its mutants from one and makes as many as allowed, wherever it starts. -/
def Pass.Counts (allowed : Nat → Prop) (pass : Pass σ) : Prop :=
  ∀ state, (pass state).1.Counts 1 allowed

variable {harvest : Harvest}

namespace DrawLoop

variable [Chooser σ] {draw : Draw σ}

/-- A draw that is accepted makes a mutant of the number that it was given. -/
theorem index_of_once {index : Nat} {mutant : Mutant} {state state' : σ}
    (h : once harvest draw index state = (.ok (some mutant), state')) : mutant.index = index := by
  obtain ⟨span, first, -, h⟩ := Chance.bind_eq_ok.mp h
  obtain ⟨drawn, second, -, h⟩ := Chance.bind_eq_ok.mp h
  cases drawn with
  | none => cases h
  | some replacement =>
    obtain ⟨own, third, -, h⟩ := Chance.bind_eq_ok.mp h
    -- The mutant is made only where the replacement differs from the text of the span.
    split at h
    case isFalse => cases h
    case isTrue =>
      obtain ⟨made, fourth, hmade, h⟩ := Chance.bind_eq_ok.mp h
      cases h
      exact Mutant.index_of_make (Chance.ofExcept_eq_ok hmade)

/-- The loop makes all mutants that are missing, or gives up before it has made any. -/
theorem counts_more (draw : Draw σ) (stall : StallLimit) (fuel missing made attempts : Nat)
    (state : σ) :
    (more harvest draw stall fuel missing made attempts state).1.Counts (made + 1)
      fun n => n = missing ∨ made = 0 ∧ n = 0 := by
  -- The induction follows the draws; an accepted one leaves one less missing and one more made.
  induction fuel generalizing missing made attempts state with
  | zero =>
    cases missing with
    | zero => exact Draft.counts_nothing _ (.inl rfl)
    | succ missing => exact Draft.counts_stopped _ _ _
  | succ fuel ih =>
    cases missing with
    | zero => exact Draft.counts_nothing _ (.inl rfl)
    | succ missing =>
      rw [more]
      split
      -- The loop gives up only as long as nothing was made, so that nothing is what it has made.
      case isTrue hstalled =>
        refine ⟨numbered_nil _, fun mutants hmutants => ?_⟩
        cases hmutants
        exact .inr ⟨hstalled.1, rfl⟩
      case isFalse =>
        dsimp only
        split
        case h_1 between _ => exact ih (missing + 1) made (attempts + 1) between
        case h_2 mutant between honce =>
          have hrest := ih missing (made + 1) (attempts + 1) between
          refine Draft.Counts.after (index_of_once honce) ⟨hrest.numbered, fun mutants h => ?_⟩
          -- Once a mutant is made, giving up is out of the question.
          obtain hall | ⟨hnone, -⟩ := hrest.allowed mutants h
          · exact .inl (by rw [hall])
          · cases hnone
        case h_3 => exact Draft.counts_stopped _ _ _

/-- The draw loop makes as many mutants as it is asked for, or gives up before the first one. -/
theorem counts_mutants (draw : Draw σ) (patience count : Nat) (stall : StallLimit) :
    Pass.Counts (fun n => n = 0 ∨ n = count) (mutants patience harvest count draw stall) := by
  intro state
  rw [mutants]
  split
  · exact Draft.counts_nothing 1 (.inl rfl)
  · exact (counts_more draw stall patience count 0 0 state).mono fun n hn =>
      hn.elim .inr fun hnone => .inl hnone.2

end DrawLoop

namespace Splice

variable [Chooser σ]

/-- A splice that draws makes as many, or none where there is nothing to draw. -/
theorem counts_drawn (draw : Draw σ) (patience count : Nat) (stall : StallLimit)
    (possible : Except Failure Bool) :
    Pass.Counts (fun n => n = 0 ∨ n = count)
      (drawn patience harvest count stall draw possible) := by
  intro state
  unfold drawn
  split
  · exact Draft.counts_stopped _ _ _
  · exact Draft.counts_nothing 1 (.inl rfl)
  · exact DrawLoop.counts_mutants draw patience count stall state

/-- What a count asks of a splice: that many or none at all; a count of zero asks for nothing. -/
def Asked (count n : Nat) : Prop := 1 ≤ count → n = 0 ∨ n = count

/-- Splices with a source's own texts are as many as are asked for, or none. -/
theorem counts_fromSelf (patience : Nat) (harvest : Harvest) (count : Nat) (stall : StallLimit) :
    Pass.Counts (Asked count) (fromSelf (σ := σ) patience harvest count stall) := by
  intro state
  unfold fromSelf
  split
  case h_1 => exact Draft.counts_stopped _ _ _
  case h_2 n hcount =>
    obtain rfl := eq_of_checkCount hcount
    split
    · exact Draft.counts_stopped _ _ _
    · split
      · -- All pairs are asked for, and the count says nothing.
        split
        · exact Draft.counts_stopped _ _ _
        · refine (Draft.counts_ofList harvest 1 _).mono fun made _ hpositive => ?_
          omega
      · exact (counts_drawn _ patience n stall _ state).mono fun made hmade _ => hmade

/-- A count that is taken asks a draw for that many, and one that is refused for nothing. -/
theorem counts_ofCheck {pass : Pass σ} {count : Nat} {draw : Draw σ} {patience : Nat}
    {stall : StallLimit} {possible : Except Failure Bool}
    (htaken : ∀ n, checkCount count false = .ok n →
      pass = drawn patience harvest n stall draw possible)
    (hrefused : ∀ failure, checkCount count false = .error failure →
      pass = fun state => (.failed failure, state)) :
    Pass.Counts (Asked count) pass := by
  cases hcount : checkCount count false with
  | error failure =>
    rw [hrefused failure hcount]
    exact fun state => Draft.counts_stopped _ _ _
  | ok n =>
    rw [htaken n hcount, eq_of_checkCount hcount]
    intro state
    exact (counts_drawn draw patience count stall possible state).mono fun made hmade _ => hmade

/-- Splices with the texts of a corpus are as many as are asked for, or none. -/
theorem counts_fromCorpus (patience : Nat) (harvest : Harvest) (corpus : Corpus) (count : Nat)
    (stall : StallLimit) :
    Pass.Counts (Asked count) (fromCorpus (σ := σ) patience harvest corpus count stall) := by
  apply counts_ofCheck
  · intro n hcount
    funext state
    rw [fromCorpus, hcount]
  · intro failure hcount
    funext state
    rw [fromCorpus, hcount]

/-- Splices with texts of any kind are as many as are asked for, or none. -/
theorem counts_fromAnyKind (patience : Nat) (harvest : Harvest) (corpus : Corpus) (count : Nat)
    (stall : StallLimit) :
    Pass.Counts (Asked count) (fromAnyKind (σ := σ) patience harvest corpus count stall) := by
  apply counts_ofCheck
  · intro n hcount
    funext state
    rw [fromAnyKind, hcount]
  · intro failure hcount
    funext state
    rw [fromAnyKind, hcount]

end Splice

/-- How many spans of a harvest have a text that can be deleted. -/
def Harvest.deletable (harvest : Harvest) : Nat := harvest.spans.countP fun span => 0 < span.length

/-- Deletions are as many as can be made, and no more than are asked for. -/
theorem Deletion.counts_mutants [Chooser σ] (patience : Nat) (harvest : Harvest) (count : Nat) :
    Pass.Counts (fun n => n = if count = 0 then harvest.deletable else min count harvest.deletable)
      (mutants (σ := σ) patience harvest count) := by
  have hspans : (spans harvest).length = harvest.deletable := List.countP_eq_length_filter.symm
  have heach : ∀ drawn : List Span, Draft.Counts 1 (fun n => n = drawn.length)
      (each harvest drawn) := fun drawn => by
    simpa [each] using Draft.counts_ofList harvest 1 (drawn.map fun span => (span, replacement))
  have hcheck : checkCount count true = .ok count := by simp [checkCount]
  intro state
  unfold mutants
  rw [hcheck]
  -- No count stands for all spans, each of them once; any other count takes a sample.
  cases count with
  | zero =>
    rw [if_pos rfl, ← hspans]
    exact heach _
  | succ count =>
    rw [if_neg (Nat.succ_ne_zero count), ← hspans]
    show Draft.Counts 1 _ (Pass.ofChance
      (Sample.ofList patience (spans harvest) (min (count + 1) (spans harvest).length))
      (fun drawn state => (each harvest drawn, state)) state).1
    unfold Pass.ofChance
    split
    case h_1 drawn between hdrawn =>
      rw [← Sample.length_of_ofList hdrawn]
      exact heach drawn
    case h_2 => exact Draft.counts_stopped _ _ _

/-- How many mutants a mode promises of a harvest.  Deletions are all that there are, up to the
count; splices are as many as the count says, or none. -/
def Mode.Promises (mode : Mode) (harvest : Harvest) (count n : Nat) : Prop :=
  match mode with
  | .deleteOnly => n = if count = 0 then harvest.deletable else min count harvest.deletable
  | _ => Splice.Asked count n

/-- A pass of any mode numbers its mutants from one, and makes as many as the mode promises. -/
theorem Mode.mutants_counts [Chooser σ] (mode : Mode) (patience : Nat) (harvest : Harvest)
    (count : Nat) (corpus : Option Corpus) (stall : StallLimit) :
    Pass.Counts (mode.Promises harvest count)
      (mode.mutants (σ := σ) patience harvest count corpus stall) := by
  intro state
  cases mode with
  | deleteOnly => exact Deletion.counts_mutants patience harvest count state
  | selfSplice => exact Splice.counts_fromSelf patience harvest count stall state
  | splice =>
    cases corpus with
    -- A mode with a shared corpus stops where there is none.
    | none => exact Draft.counts_stopped _ _ _
    | some corpus => exact Splice.counts_fromCorpus patience harvest corpus count stall state
  | spliceRandomKind =>
    cases corpus with
    | none => exact Draft.counts_stopped _ _ _
    | some corpus => exact Splice.counts_fromAnyKind patience harvest corpus count stall state

/-! ## What a source counts -/

/-- Whether a source, of which `text` was read, has the numbers that are reported of it.  A text of
too many lines is skipped.  Any other has a harvest, whose spans are counted, and mutants of it,
which are numbered from one, are as many as the mode promises, and are named by their paths in
order. -/
inductive Yield.Tallied (tools : Toolchain) (plan : Plan) (text : String) : Yield → Prop
  | skipped (path : Path) (hlong : plan.maxLines ≤ Lines.count text) :
    Tallied tools plan text ⟨path, [], Run.skippedReport plan.maxLines path⟩
  | mutated (path : Path) (mutants : List Mutant) (found : Harvest)
    (hshort : Lines.count text < plan.maxLines)
    (hparsed : tools.parsed plan.language path text = .ok found)
    (hnumbered : Numbered 1 mutants)
    (hpromised : plan.mode.Promises found plan.count mutants.length) :
    Tallied tools plan text ⟨path, mutants, {
      path := path.text
      skipped := false
      spanCount := found.spans.length
      mutantCount := mutants.length
      written := (numbered plan.outputDirectory path.name 1 mutants).map (·.1.text) }⟩

/-- A source of a run with the text that was read of it. -/
structure Tally extends Yield where
  text : String

namespace Run

variable [Chooser σ] {tools : Toolchain} {plan : Plan} {corpus : Option Corpus}

/-- What is made of a harvest is handed over, written and reported with the same numbers. -/
theorem mutateHarvest_tallied {path : Path} {text : String} {found : Harvest}
    {report : SourceReport} {world world' : World σ} (hshort : Lines.count text < plan.maxLines)
    (hparsed : tools.parsed plan.language path text = .ok found)
    (h : mutateHarvest tools plan corpus path found world = (.ok report, world')) :
    ∃ mutants, (Yield.mk path mutants report).Tallied tools plan text ∧
      world'.acceptances = world.acceptances ++ (Yield.mk path mutants report).acceptances ∧
      world'.writings = world.writings
        ++ ((Yield.mk path mutants report).targets plan.outputDirectory).map written := by
  obtain ⟨made, hresult, hhanded, hwritten, rfl⟩ := mutateHarvest_eq_ok h
  have hcounts := plan.mode.mutants_counts tools.patience found plan.count corpus plan.stallLimit
    world.chance
  refine ⟨made, .mutated path made found hshort hparsed ?_ (hcounts.allowed made hresult),
    hhanded, hwritten⟩
  rw [← Draft.mutants_of_result hresult]
  exact hcounts.numbered

/-- Of a text that was mutated, the same numbers are reported, handed over and written. -/
theorem mutateText_tallied {path : Path} {text : String} {report : SourceReport}
    {world world' : World σ}
    (h : mutateText tools plan corpus path text world = (.ok report, world')) :
    ∃ mutants, (Yield.mk path mutants report).Tallied tools plan text ∧
      world'.acceptances = world.acceptances ++ (Yield.mk path mutants report).acceptances ∧
      world'.writings = world.writings
        ++ ((Yield.mk path mutants report).targets plan.outputDirectory).map written := by
  -- A text that is too long is skipped, and all of its numbers are zero.
  cases hwithin : Lines.within text plan.maxLines with
  | false =>
    rw [mutateText_of_not_within hwithin, log_bind_apply] at h
    cases h
    have hlong : plan.maxLines ≤ Lines.count text := by
      simpa [Lines.within] using hwithin
    refine ⟨[], .skipped path hlong, ?_, ?_⟩
    · simp [Yield.acceptances, Event.accepted?]
    · simp [Yield.targets, numbered, Event.written?]
  | true =>
    rw [mutateText_of_within hwithin] at h
    obtain ⟨found, harvested, hharvest, hrest⟩ := Chance.bind_eq_ok.mp h
    obtain ⟨hhanded, hwritten⟩ : World.Quiet world harvested :=
      (respects_harvest World.tolerant_quiet tools _ _ _).of_run hharvest
    have hparsed : tools.parsed plan.language path text = .ok found := by
      obtain ⟨_, happly, -⟩ := harvestText_apply tools plan.language path text world
      exact tools.parsed_of_harvestOf (congrArg Prod.fst (happly.symm.trans hharvest))
    have hshort : Lines.count text < plan.maxLines := by
      simpa [Lines.within] using hwithin
    rw [← hhanded, ← hwritten]
    exact mutateHarvest_tallied hshort hparsed hrest

/-- A source that was mutated was read first, and nothing else was done before. -/
theorem mutateFile_tallied {path : Path} {report : SourceReport} {world world' : World σ}
    (h : mutateFile tools plan corpus path world = (.ok report, world')) :
    ∃ bytes text mutants, Utf8.decode bytes = .ok text ∧
      (Yield.mk path mutants report).Tallied tools plan text ∧
      world'.acceptances = world.acceptances ++ (Yield.mk path mutants report).acceptances ∧
      world'.writings = world.writings
        ++ ((Yield.mk path mutants report).targets plan.outputDirectory).map written ∧
      ∃ past later, world'.events = past ++ .read path bytes :: later ∧
        past.filterMap Event.written? = world.writings := by
  rw [mutateFile, log_bind_apply] at h
  obtain ⟨text, read, hread, hrest⟩ := Chance.bind_eq_ok.mp h
  obtain ⟨bytes, -, hdecode, rfl⟩ := readSource_eq_ok hread
  obtain ⟨mutants, htallied, hhanded, hwritten⟩ := mutateText_tallied hrest
  obtain ⟨later, hlater, -⟩ :=
    (respects_mutateText (World.steps_adds plan.outputDirectory) path text).of_run hrest
  refine ⟨bytes, text, mutants, hdecode, htallied, ?_, ?_,
    world.events ++ [.logged (.info s!"filename : {path.name}")], later, ?_, ?_⟩
  -- Reading and logging hand nothing over and write nothing.
  · simpa [Event.accepted?] using hhanded
  · simpa [Event.written?] using hwritten
  · rw [hlater, World.events_after, World.events_after, List.append_assoc]
    rfl
  · rw [List.filterMap_append]
    exact List.append_nil _

/-- Whether sources were tallied one after another, between a world and a later one: each was read
when the mutants of those before it had been written. -/
structure InTurn (tools : Toolchain) (plan : Plan) (tallies : List Tally) (first last : World σ) :
    Prop where
  tallied : ∀ tally ∈ tallies, tally.toYield.Tallied tools plan tally.text
  read : ∀ earlier tally later, tallies = earlier ++ tally :: later →
    ∃ bytes past rest, last.events = past ++ .read tally.source bytes :: rest ∧
      Utf8.decode bytes = .ok tally.text ∧
      past.filterMap Event.written? = first.writings
        ++ earlier.flatMap fun tally => (tally.targets plan.outputDirectory).map written
  acceptances : last.acceptances
    = first.acceptances ++ tallies.flatMap fun tally => tally.acceptances
  writings : last.writings = first.writings
    ++ tallies.flatMap fun tally => (tally.targets plan.outputDirectory).map written

omit [Chooser σ] in
/-- Whatever is read stays read. -/
theorem InTurn.mono {tallies : List Tally} {first last later : World σ}
    (h : InTurn tools plan tallies first last) (hquiet : World.Quiet last later)
    (hadds : World.Adds (fun _ => True) last later) : InTurn tools plan tallies first later where
  tallied := h.tallied
  read earlier tally others htallies := by
    obtain ⟨bytes, past, rest, hevents, hread⟩ := h.read earlier tally others htallies
    obtain ⟨new, hnew, -⟩ := hadds
    refine ⟨bytes, past, rest ++ new, ?_, hread⟩
    rw [hnew, hevents, List.append_assoc, List.cons_append]
  acceptances := hquiet.1.trans h.acceptances
  writings := hquiet.2.trans h.writings

omit [Chooser σ] in
/-- A line of the log takes no turn. -/
theorem InTurn.logged {tallies : List Tally} {first last : World σ}
    (h : InTurn tools plan tallies first last) (line : LogLine) :
    InTurn tools plan tallies first (last.after (.logged line)) :=
  h.mono (World.quiet_after rfl rfl last) (World.adds_after trivial last)

/-- A pass over sources tallies them in turn. -/
theorem mutateFiles_inTurn {paths : List Path} {reports : List SourceReport} {world world' : World σ}
    (h : mutateFiles tools plan corpus paths world = (.ok reports, world')) :
    ∃ tallies : List Tally, tallies.map (·.source) = paths ∧ tallies.map (·.report) = reports ∧
      InTurn tools plan tallies world world' := by
  -- The induction is on the sources: the turns after one only add to what it leaves.
  induction paths generalizing reports world with
  | nil =>
    cases h
    refine ⟨[], rfl, rfl, nofun, ?_, ?_, ?_⟩
    · intro earlier tally later hnil
      obtain ⟨-, hcons⟩ := List.append_eq_nil_iff.mp hnil.symm
      cases hcons
    · simp
    · simp
  | cons path paths ih =>
    -- The first turn, and then those of the rest.
    obtain ⟨report, first, hreport, hothers⟩ := Chance.bind_eq_ok.mp h
    obtain ⟨others, second, hrest, hlast⟩ := Chance.bind_eq_ok.mp hothers
    cases hlast
    obtain ⟨bytes, text, mutants, hdecode, htallied, hhanded, hwritten, past, rest, hevents, hpast⟩ :=
      mutateFile_tallied hreport
    obtain ⟨tallies, rfl, rfl, hturns⟩ := ih hrest
    -- What the later turns add goes behind what the first one has left.
    obtain ⟨new, hnew, -⟩ :=
      (respects_mutateFiles (World.steps_adds plan.outputDirectory) _).of_run hrest
    refine ⟨⟨⟨path, mutants, report⟩, text⟩ :: tallies, rfl, rfl, ?_, ?_, ?_, ?_⟩
    · exact List.forall_mem_cons.mpr ⟨htallied, hturns.tallied⟩
    · intro earlier tally later htallies
      cases earlier with
      | nil =>
        -- The first source was read in the turn that was just taken.
        cases htallies
        refine ⟨bytes, past, rest ++ new, ?_, hdecode, ?_⟩
        · rw [hnew, hevents, List.append_assoc, List.cons_append]
        · rw [hpast, List.flatMap_nil, List.append_nil]
      | cons tallyFirst earlier =>
        cases htallies
        obtain ⟨bytes, past, rest, hevents, hdecode, hpast⟩ := hturns.read earlier tally later rfl
        refine ⟨bytes, past, rest, hevents, hdecode, ?_⟩
        rw [hpast, hwritten, List.flatMap_cons, List.append_assoc]
    · rw [hturns.acceptances, hhanded, List.flatMap_cons, List.append_assoc]
    · rw [hturns.writings, hwritten, List.flatMap_cons, List.append_assoc]

/-! ## What a run counts

The numbers of a summary are compared with the events of the run, and not with its own reports: each
source is given its share of what was handed over and written.
-/

/-- Whether the numbers of a run agree: those of its summary, of what it handed over and of what it
wrote, source by source, in the order of its scan. -/
structure Tallies (tools : Toolchain) (tree : FileTree) (plan : Plan) (summary : Summary)
    (world : World σ) (tallies : List Tally) : Prop where
  scanned : ∃ rules, plan.rules = .ok rules ∧ tallies.map (·.source)
    = (tree.withDirectory plan.outputDirectory).sourceFiles plan.inputDirectory rules
  reported : summary.sources = tallies.map (·.report)
  tallied : ∀ tally ∈ tallies, tally.toYield.Tallied tools plan tally.text
  /-- Each source was read when the mutants of those before it had been written. -/
  read : ∀ earlier tally later, tallies = earlier ++ tally :: later →
    ∃ bytes past rest, world.events = past ++ .read tally.source bytes :: rest ∧
      Utf8.decode bytes = .ok tally.text ∧
      past.filterMap Event.written?
        = earlier.flatMap fun tally => (tally.targets plan.outputDirectory).map written
  acceptances : world.acceptances = tallies.flatMap fun tally => tally.acceptances
  /-- What was handed over of a source are its mutants. -/
  ofSource : ∀ tally ∈ tallies,
    world.acceptances.filter (fun accepted => accepted.1 = tally.source) = tally.acceptances
  writings : world.writings
    = tallies.flatMap fun tally => (tally.targets plan.outputDirectory).map written
  total : summary.totalMutants = world.acceptances.length
  processed : summary.processedSources
    = tallies.countP fun tally => Lines.count tally.text < plan.maxLines

omit [Chooser σ] in
/-- Among all that was handed over, that of one source is what its own turn handed over. -/
theorem filter_acceptances {tallies : List Tally} (hnodup : (tallies.map (·.source)).Nodup)
    {tally : Tally} (hmem : tally ∈ tallies) :
    (tallies.flatMap fun tally => tally.acceptances).filter
        (fun accepted => accepted.1 = tally.source) = tally.acceptances := by
  have hown : ∀ other : Tally, other.acceptances.filter
      (fun accepted => accepted.1 = tally.source)
        = if other.source = tally.source then other.acceptances else [] := by
    intro other
    simp only [Yield.acceptances, List.filter_map]
    split <;> simp_all [Function.comp_def]
  -- The source has one turn only, so that the rest can be left out.
  induction tallies with
  | nil => cases hmem
  | cons first rest ih =>
    obtain ⟨hfirst, hrest⟩ := List.nodup_cons.mp hnodup
    rw [List.flatMap_cons, List.filter_append, hown]
    obtain rfl | hmem := List.mem_cons.mp hmem
    · -- No other source is the same one.
      have hnone : (rest.flatMap fun tally => tally.acceptances).filter
          (fun accepted => accepted.1 = tally.source) = [] := by
        rw [List.filter_flatMap, List.flatMap_eq_nil_iff]
        intro other hother
        rw [hown, if_neg]
        intro heq
        exact hfirst (List.mem_map.mpr ⟨other, hother, heq⟩)
      rw [if_pos rfl, hnone, List.append_nil]
    · have hne : first.source ≠ tally.source := fun heq =>
        hfirst (List.mem_map.mpr ⟨tally, hmem, heq.symm⟩)
      rw [if_neg hne, List.nil_append, ih hrest hmem]

omit [Chooser σ] in
/-- The summary of tallied sources adds up what was handed over, and counts those of few lines. -/
theorem summarize_tallies {tallies : List Tally} {first last : World σ} (corpus : Option Corpus)
    (hfresh : first.acceptances = []) (h : InTurn tools plan tallies first last) :
    (summarize plan corpus (tallies.map (·.report))).totalMutants = last.acceptances.length ∧
      (summarize plan corpus (tallies.map (·.report))).processedSources
        = tallies.countP fun tally => Lines.count tally.text < plan.maxLines := by
  obtain ⟨htallied, -, hhanded, -⟩ := h
  rw [hhanded, hfresh, List.nil_append]
  clear hhanded hfresh
  induction tallies with
  | nil => exact ⟨rfl, rfl⟩
  | cons tally rest ih =>
    obtain ⟨hfirst, hrest⟩ := List.forall_mem_cons.mp htallied
    obtain ⟨htotal, hprocessed⟩ := ih hrest
    obtain ⟨⟨source, mutants, report⟩, text⟩ := tally
    simp only [Summary.totalMutants, Summary.processedSources, summarize] at htotal hprocessed ⊢
    rw [List.map_cons, List.map_cons, List.foldr_cons, htotal, List.countP_cons, hprocessed,
      List.countP_cons, List.flatMap_cons, List.length_append, Yield.acceptances, List.length_map]
    -- A skipped source adds nothing to either sum.
    cases hfirst with
    | skipped path hlong =>
      have hnot : ¬Lines.count text < plan.maxLines := Nat.not_lt.mpr hlong
      simp [skippedReport, hnot]
    | mutated path mutants found hshort => simp [hshort]

/--
The numbers of a run that returns agree: its sources are those of the scan, in order; a source is
skipped exactly if the text that was read has too many lines; of any other the spans are counted,
and the mutants handed over, written and reported are the same, numbered from one, and as many as
the mode promises.
-/
theorem mutateAfter_tallies {settings : Settings} {opening : Run σ Unit}
    (hopening : Opening settings opening) {tree : FileTree} {chance : σ} {grammars : Grammars}
    {summary : Summary} {world : World σ}
    (h : mutateAfter opening tools settings (World.fresh tree chance grammars)
      = (.ok summary, world)) :
    ∃ plan tallies, settings.check tree = .ok plan ∧
      Tallies tools tree plan summary world tallies := by
  obtain ⟨plan, opened, carried, hplan, hopened, hcarried, rfl⟩ := mutateAfter_eq_ok h
  obtain ⟨files, corpus, gathered, sources, mutated, hgathered, hmutated, rfl, rfl⟩ :=
    carryOutBy_eq_ok.mp hcarried
  have hsame : opened.tree = tree := (hopening.respects World.tolerant_sameTree).of_run hopened
  obtain ⟨htree, rules, hrules, -, hfiles⟩ := gather_finds hgathered
  rw [World.tree_after, hsame] at htree
  -- Nothing is handed over or written before the sources are mutated, ...
  obtain ⟨hunhanded, hunwritten⟩ : World.Quiet (World.fresh tree chance grammars) gathered :=
    World.tolerant_quiet.trans
      (by simp [World.Quiet, Event.accepted?, Event.written?])
      (World.tolerant_quiet.trans ((hopening.respects World.tolerant_quiet).of_run hopened)
        (World.tolerant_quiet.trans (World.quiet_after rfl rfl opened) (quiet_gather hgathered)))
  obtain ⟨tallies, hsources, rfl, hmutating⟩ := mutateFiles_inTurn hmutated
  -- ... and nothing but lines is added after that.
  have hturns := (hmutating.logged
    (endLine (summarize plan corpus (tallies.map (·.report))))).logged (.completed "run_mutation")
  have hnone : gathered.acceptances = [] := hunhanded
  have hnothing : gathered.writings = [] := hunwritten
  have hhanded := hturns.acceptances
  rw [hnone, List.nil_append] at hhanded
  -- A scan yields no path twice, so a source is known by its path.
  have hnodup : (tallies.map (·.source)).Nodup := by
    rw [hsources, hfiles]
    exact FileTree.nodup_sourceFiles _ _ _
  obtain ⟨htotal, hprocessed⟩ := summarize_tallies corpus hnone hturns
  refine ⟨plan, tallies, hplan, ⟨rules, hrules, ?_⟩, rfl, hturns.tallied, ?_, hhanded, ?_, ?_,
    htotal, hprocessed⟩
  · rw [hsources, hfiles, htree]
  · simpa [hnothing] using hturns.read
  · intro tally hmem
    rw [hhanded]
    exact filter_acceptances hnodup hmem
  · simpa [hnothing] using hturns.writings

/-- All deletions of the sources in `in` that have less than two lines, written to `out`. -/
def shortOnly : Settings := { selfSplices with mode := .int 0, maxLines := .int 2 }

/-- What this comes to for a short source and a long one; it draws nothing. -/
def shortOnlyRun : Except Stop Summary × World Script :=
  mutate twoNamesTools shortOnly (World.fresh shortAndLongTree ⟨[]⟩ .empty)

/-- Its summary: two mutants of the short source, and the long one skipped. -/
def shortOnlySummary : Summary where
  mode := 0
  count := 0
  language := "rust"
  outputDirectory := "out"
  sources := [
    { path := "in/a.rs", spanCount := 2, mutantCount := 2,
      written := ["out/mut_a.rs_1.rs", "out/mut_a.rs_2.rs"] },
    { path := "in/z.rs", skipped := true, skipReason := some "2 lines or more" }]

/-- The numbers of that run agree. -/
theorem shortOnly_tallies :
    shortOnlyRun = (.ok shortOnlySummary, shortOnlyRun.2) ∧
      ∃ plan tallies, shortOnly.check shortAndLongTree = .ok plan ∧
        Tallies twoNamesTools shortAndLongTree plan shortOnlySummary shortOnlyRun.2
          tallies := by
  have hsummary : shortOnlyRun.1.toOption = some shortOnlySummary := by decide +kernel
  have hrun : shortOnlyRun = (.ok shortOnlySummary, shortOnlyRun.2) := by
    rcases hrun : shortOnlyRun with ⟨stop | summary, world⟩
    · rw [hrun] at hsummary
      cases hsummary
    · rw [hrun] at hsummary
      cases hsummary
      rfl
  exact ⟨hrun, mutateAfter_tallies .given hrun⟩

end Run

end SourceMutation
