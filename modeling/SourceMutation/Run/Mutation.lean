import SourceMutation.Chance.Twister
import SourceMutation.Report
import SourceMutation.Run.CorpusPass
import SourceMutation.Run.Output
import SourceMutation.Strategy.Splice

/-!
# Mutation runs

A run checks its settings, lists the sources below the input directory, and mutates them one after
another: each is read, harvested, mutated by the mode's pass, and its mutants are handed over and
written before the next source is read.

In the modes that draw from many sources, a corpus of all of them is built before the first mutant
is made, so that every source sees the same one.

A run may be watched by a bar over the sources.  The bar is left once, when the sources are behind
it or at the one that fails, and nothing of the run depends on it.
-/

namespace SourceMutation.Run

variable {σ : Type}

/-! ## One source -/

/-- Makes the mutants of a source and logs each of them. -/
def mutants [Chooser σ] (tools : Toolchain) (plan : Plan) (harvest : Harvest)
    (corpus : Option Corpus) : Run σ (List Mutant) := do
  let draft ← draft (plan.mode.mutants tools.patience harvest plan.count corpus plan.stallLimit)
  logAll (draft.mutants.map fun mutant => .debug mutant.describe)
  match draft.ending with
  | .complete => return draft.mutants
  | .gaveUp =>
    log (.debug (s!"No mutation accepted after {plan.stallText} draws for {harvest.label}; "
      ++ "giving up"))
    return draft.mutants
  | .stopped stop => throw stop

/-- Hands mutants of a source over. -/
def handOver (source : Path) : List Mutant → Run σ Unit
  | [] => return ()
  | mutant :: rest => do
    record (.accepted source mutant)
    handOver source rest

/-- Mutates the text of a source and tells what became of it. -/
def mutateText [Chooser σ] (tools : Toolchain) (plan : Plan) (corpus : Option Corpus)
    (path : Path) (text : String) : Run σ SourceReport := do
  if Lines.within text plan.maxLines then
    let harvest ← harvestText tools text plan.language path
    let mutants ← mutants tools plan harvest corpus
    handOver path mutants
    let written ← writeMutants plan.outputDirectory path mutants
    log (.info s!"Number of generated files of {path.name}: {mutants.length}")
    return {
      path := path.text
      spanCount := harvest.spans.length
      mutantCount := mutants.length
      written := written.map Path.text }
  else
    log (.debug s!"Skipping '{path.text}': {tooLong plan.maxLines}")
    return { path := path.text, skipped := true, skipReason := some (tooLong plan.maxLines) }

/-- Reads one source, mutates it and tells what became of it. -/
def mutateFile [Chooser σ] (tools : Toolchain) (plan : Plan) (corpus : Option Corpus)
    (path : Path) : Run σ SourceReport := do
  log (.info s!"filename : {path.name}")
  let text ← readSource path
  mutateText tools plan corpus path text

/-- Mutates sources one after another. -/
def mutateFiles [Chooser σ] (tools : Toolchain) (plan : Plan) (corpus : Option Corpus) :
    List Path → Run σ (List SourceReport)
  | [] => return []
  | path :: rest => do
    let report ← mutateFile tools plan corpus path
    return report :: (← mutateFiles tools plan corpus rest)

/-! ## Sources under a bar -/

/-- Leaves a bar where a source failed. -/
def leaveBar (done total : Nat) : Stop → Run σ Unit
  | .failed _ => record (.tracked done total)
  | .unfinished => return ()

/-- Mutates sources one after another under a bar, of which some are behind it already.  The bar is
left when all are, or with the first source that fails. -/
def trackFiles [Chooser σ] (tools : Toolchain) (plan : Plan) (corpus : Option Corpus)
    (total : Nat) : (done : Nat) → List Path → Run σ (List SourceReport)
  | done, [] => do
    record (.tracked done total)
    return []
  | done, path :: rest => do
    let report ← tryCatch (mutateFile tools plan corpus path) fun stop => do
      leaveBar done total stop
      throw stop
    return report :: (← trackFiles tools plan corpus total (done + 1) rest)

/-- Mutates sources one after another under a bar, unless there are none. -/
def mutateTracked [Chooser σ] (tools : Toolchain) (plan : Plan) (corpus : Option Corpus)
    (paths : List Path) : Run σ (List SourceReport) :=
  if paths.isEmpty then return [] else trackFiles tools plan corpus paths.length 0 paths

/-! ## Whole runs -/

/-- The corpus that a plan needs, if its mode needs one. -/
def planCorpus (tools : Toolchain) (plan : Plan) : Run σ (Option Corpus) :=
  if plan.mode.usesSharedCorpus then
    some <$> buildCorpus tools plan.inputDirectory (.text plan.language.name) (.int plan.maxLines)
      (.texts plan.ignorePatterns)
  else return none

/-- The line at the start of a run. -/
def startLine (plan : Plan) : LogLine :=
  let count := if plan.count = 0 then "all" else toString plan.count
  .info (s!"Mutating '{plan.inputDirectory.text}' in mode {plan.mode.number} "
    ++ s!"({plan.mode.label}), count={count}, language={plan.language.name}")

/-- The line at the end of a run. -/
def endLine (summary : Summary) : LogLine :=
  ⟨.info, .timed (s!"Generated {summary.totalMutants} mutants from "
    ++ s!"{summary.processedSources} files in ") ""⟩

/-- Makes the output directory, finds the sources, and builds the corpus that the mode needs. -/
def gather (tools : Toolchain) (plan : Plan) : Run σ (List Path × Option Corpus) := do
  ensureOutputDirectory plan.outputDirectory
  let files ← scan plan.inputDirectory (.texts plan.language.suffixes) (.texts plan.ignorePatterns)
  let corpus ← planCorpus tools plan
  return (files, corpus)

/-- What is told about a plan that was carried out. -/
def summarize (plan : Plan) (corpus : Option Corpus) (sources : List SourceReport) : Summary where
  mode := plan.mode.number
  count := plan.count
  language := plan.language.name
  outputDirectory := plan.outputDirectory.text
  sources := sources
  corpusKinds := (corpus.map Corpus.size).getD 0
  corpusSnippets := (corpus.map Corpus.snippetCount).getD 0

/-- Does what a plan says, with a pass that mutates all sources against the corpus. -/
def carryOutBy (pass : Option Corpus → List Path → Run σ (List SourceReport)) (tools : Toolchain)
    (plan : Plan) : Run σ Summary := do
  log (startLine plan)
  let (files, corpus) ← gather tools plan
  let sources ← pass corpus files
  let summary := summarize plan corpus sources
  log (endLine summary)
  return summary

/-- Does what a plan says. -/
def carryOut [Chooser σ] (tools : Toolchain) (plan : Plan) : Run σ Summary :=
  carryOutBy (mutateFiles tools plan) tools plan

/-- Checks settings, prepares the numbers to draw, and does what the settings ask for. -/
def mutateAfter [Chooser σ] (prepare : Run σ Unit) (tools : Toolchain) (settings : Settings) :
    Run σ Summary :=
  traced "run_mutation" do
    let plan ← ofExcept (settings.check (← tree))
    prepare
    carryOut tools plan

/-- A run like `mutateAfter`, but with a bar over the sources. -/
def trackAfter [Chooser σ] (prepare : Run σ Unit) (tools : Toolchain) (settings : Settings) :
    Run σ Summary :=
  traced "run_mutation" do
    let plan ← ofExcept (settings.check (← tree))
    prepare
    carryOutBy (mutateTracked tools plan) tools plan

/-- A run that draws from the numbers of the world. -/
def mutate [Chooser σ] (tools : Toolchain) (settings : Settings) : Run σ Summary :=
  mutateAfter (return ()) tools settings

/-- Puts the generator of a seed in the world, unless the seed is left open. -/
def seed (given : Value) : Run Twister Unit := do
  match Twister.ofSetting given with
  | .error failure => fail failure
  | .ok none => return ()
  | .ok (some twister) => setChance twister

/-- A run that draws from the generator of the settings' seed. -/
def mutateSeeded (tools : Toolchain) (settings : Settings) : Run Twister Summary :=
  mutateAfter (seed settings.seed) tools settings

/-- The same with a bar over the sources. -/
def trackSeeded (tools : Toolchain) (settings : Settings) : Run Twister Summary :=
  trackAfter (seed settings.seed) tools settings

end SourceMutation.Run
