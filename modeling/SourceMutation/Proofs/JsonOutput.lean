import SourceMutation.Proofs.JsonTexts
import SourceMutation.Proofs.LogFiles
import SourceMutation.Proofs.Misfits
import SourceMutation.Proofs.WatchedRuns

/-!
# JSON as the only output

A mutation run that is asked for on the command line with `--json` shows one line, which is one JSON
object, and nothing else: the summary of the run with exit code 0, or else the class and the words
of its failure, with exit code 2 if the failure is about the configuration and 1 if it is not
(`performLine_json`).

There are failures that are not the program's own, and these are not shown at all: the output is
then empty and the exit code 1.  `Unshown` lists them, and what becomes of one of them is
`unreadPattern_shows_nothing`.
-/

namespace SourceMutation

/-! ## The settings of a command line -/

theorem Value.texts_injective : Function.Injective Value.texts := by
  intro texts others h
  have hitem : Function.Injective Value.text := fun _ _ heq => Value.text.inj heq
  exact List.map_injective_iff.mpr hitem (Value.list.inj h)

theorem Settings.isInteger_ofInt? {n : Option Int} (h : n.isSome) : (ofInt? n).IsInteger := by
  obtain ⟨m, rfl⟩ := Option.isSome_iff_exists.mp h
  exact trivial

theorem Environment.isSome_int (environment : Environment) (name : String) (n : Int) :
    (environment.int name (some n)).isSome := by
  unfold int intOr
  split
  · rfl
  · simp

namespace Command

/-- What a command line asks for has the sorts that are meant for it. -/
theorem typed_settings (environment : Environment) (outputDirectory : Path)
    (options : MutateOptions) : (settings environment outputDirectory options).Typed where
  mode := trivial
  count := trivial
  language := ⟨options.language, rfl⟩
  maxLines := trivial
  stallLimit := Settings.isInteger_ofInt? (environment.isSome_int _ _)
  seed := by
    unfold settings
    dsimp only
    split
    · exact .inr trivial
    -- A seed from the environment is nothing or an integer.
    · have hseed : ∀ given, Settings.ofInt? given = .none ∨ (Settings.ofInt? given).IsInteger := by
        rintro (_ | n)
        · exact .inl rfl
        · exact .inr trivial
      exact hseed (environment.int "SPANMUT_SEED" none)
  ignorePatterns := ⟨options.ignore, rfl⟩

theorem nullFree_of_pathText {text path : String} (h : pathText text = .ok path) :
    path = text ∧ NullFree path := by
  unfold pathText at h
  split at h
  case isTrue => cases h
  case isFalse hnull =>
    cases h
    exact ⟨rfl, by simpa [NullFree] using hnull⟩

theorem nullFree_of_readMutate {arguments : Arguments Key} {options : MutateOptions} {text : String}
    (h : readMutate arguments = .ok options) (htext : options.outputDirectory = some text) :
    NullFree text := by
  unfold readMutate at h
  obtain ⟨_, -, h⟩ := except_bind_eq_ok.mp h
  obtain ⟨inputDirectory, -, h⟩ := except_bind_eq_ok.mp h
  obtain ⟨outputDirectory, houtput, h⟩ := except_bind_eq_ok.mp h
  obtain ⟨_, -, h⟩ := except_bind_eq_ok.mp h
  obtain ⟨mode, -, h⟩ := except_bind_eq_ok.mp h
  obtain ⟨count, -, h⟩ := except_bind_eq_ok.mp h
  obtain ⟨maxLines, -, h⟩ := except_bind_eq_ok.mp h
  obtain ⟨seed, -, h⟩ := except_bind_eq_ok.mp h
  cases h
  dsimp only at htext
  subst htext
  -- The text was read as a path.
  cases hgiven : arguments.value? .outputDirectory with
  | none =>
    rw [hgiven] at houtput
    cases houtput
  | some given =>
    rw [hgiven] at houtput
    obtain ⟨path, hpath, hsome⟩ := except_bind_eq_ok.mp houtput
    cases hsome
    exact (nullFree_of_pathText hpath).2

/-- Whether a command is a mutation run does not depend on the files, and its output directory has
no null character. -/
theorem read_eq_mutate {tree : FileTree} {name : String} {arguments : List String}
    {options : MutateOptions} (h : read tree name arguments = .ok (.mutate options)) :
    (∀ other, read other name arguments = .ok (.mutate options)) ∧
      ∀ text, options.outputDirectory = some text → NullFree text := by
  unfold read at h
  cases hrules : rulesOf? name with
  | none =>
    rw [hrules] at h
    cases h
  | some rules =>
    rw [hrules] at h
    obtain ⟨parsed, hparsed, h⟩ := except_bind_eq_ok.mp h
    dsimp only at h
    split at h
    case h_1 =>
      obtain ⟨found, hfound, h⟩ := except_bind_eq_ok.mp h
      cases h
      -- The tree is looked at for other commands only.
      refine ⟨fun other => ?_, fun text htext => nullFree_of_readMutate hfound htext⟩
      unfold read
      rw [hrules]
      exact except_bind_eq_ok.mpr ⟨parsed, hparsed, except_bind_eq_ok.mpr ⟨options, hfound, rfl⟩⟩
    -- The other commands are read as something else.
    case h_2 =>
      obtain ⟨_, -, h⟩ := except_bind_eq_ok.mp h
      obtain ⟨_, -, h⟩ := except_bind_eq_ok.mp h
      cases h
    case h_3 =>
      obtain ⟨_, -, h⟩ := except_bind_eq_ok.mp h
      obtain ⟨_, -, h⟩ := except_bind_eq_ok.mp h
      obtain ⟨_, -, h⟩ := except_bind_eq_ok.mp h
      cases h
    case h_4 =>
      obtain ⟨_, -, h⟩ := except_bind_eq_ok.mp h
      cases h

/-- Where a command line has mutants written, there is no null character. -/
theorem nullFree_outputOf {tree : FileTree} {options : MutateOptions} (h : tree.Proper)
    (hgiven : ∀ text, options.outputDirectory = some text → NullFree text) :
    NullFree (outputOf tree options).text := by
  unfold outputOf
  split
  case h_1 text htext => exact Path.nullFree_ofText (hgiven text htext)
  case h_2 => exact h.nullFree_workPath

/-! ## How a run ends

Where JSON is asked for, a failure of the program's own is shown as a line of it, and any other one
shows nothing.
-/

/-- What a mutation run comes to that is asked for on the command line. -/
def runOf (around : Surroundings) (options : MutateOptions) (start : World Twister) :
    Except Stop Summary × World Twister :=
  Run.mutateSeeded around.tools
    (settings around.environment (outputOf start.tree options) options)
    (World.fresh start.tree start.chance start.grammars)

/-- A failure that is not the program's own, and so is not shown. -/
inductive Unshown (options : MutateOptions) (tree : FileTree) : Failure → Prop
  /-- An ignore pattern cannot be read. -/
  | pattern {pattern : String} {failure : Failure} (hpattern : pattern ∈ options.ignore)
    (hread : IgnorePattern.ofText pattern = .error failure) : Unshown options tree failure
  /-- It cannot be told whether anything stands at the path of a directory, which is too long. -/
  | path {fault : FileFault}
    (hasked : tree.isDirectory (Path.ofText options.inputDirectory) = .error fault ∨
      tree.isPresent (outputOf tree options) = .error fault) :
    Unshown options tree (.file fault)

/-- How a mutation run ends that shows JSON: with a line of JSON, or without any output. -/
inductive EndsInJson (around : Surroundings) (options : MutateOptions) (start : World Twister) :
    Outcome → Prop
  /-- The run returned, and its summary is shown. -/
  | returned {summary : Summary} {after : World Twister} {output : String}
    (hrun : runOf around options start = (.ok summary, after))
    (hline : Json.IsLine (summary.toValue around.duration) output) :
    EndsInJson around options start { exitCode := 0, output }
  /-- The run failed, and its failure is shown. -/
  | reported {failure : Failure} {after : World Twister} {output : String}
    (hrun : runOf around options start = (.error (.failed failure), after))
    (hline : Json.IsLine (.dict [("status", .text "error"), ("error", .text failure.category.name),
      ("message", .text failure.message)]) output) :
    EndsInJson around options start
      { exitCode := if failure.category.isConfiguration then 2 else 1, output }
  /-- The run failed, and nothing is shown. -/
  | escaped {failure : Failure} {after : World Twister}
    (hrun : runOf around options start = (.error (.failed failure), after))
    (hcause : Unshown options start.tree failure) :
    EndsInJson around options start
      { exitCode := 1, output := "", uncaught := some (.failed failure) }
  /-- The run did not end for as long as it was allowed to draw. -/
  | unfinished {after : World Twister}
    (hrun : runOf around options start = (.error .unfinished, after)) :
    EndsInJson around options start { exitCode := 1, output := "", uncaught := some .unfinished }

end Command

namespace Failure

theorem isApplication_of_isReported {failure : Failure} (h : failure.IsReported) :
    failure.category.isApplication = true := by
  simp only [IsReported, List.mem_cons, List.not_mem_nil, or_false] at h
  rcases h with h | h | h | h <;> rw [h] <;> rfl

/-- What is about the configuration is the program's own. -/
theorem isApplication_of_isConfiguration {category : FailureClass}
    (h : category.isConfiguration = true) : category.isApplication = true := by
  cases category <;>
    simp_all [FailureClass.isConfiguration, FailureClass.isApplication, FailureClass.lineage]

theorem not_isApplication_file (fault : FileFault) :
    (Failure.file fault).category.isApplication = false := by
  rw [category]
  split
  · rfl
  · simp [FailureClass.isApplication, FailureClass.lineage]

theorem not_isApplication_of_ofText {text : String} {failure : Failure}
    (h : IgnorePattern.ofText text = .error failure) : failure.category.isApplication = false := by
  rcases IgnorePattern.category_of_ofText h with hclass | hclass <;> rw [hclass] <;> rfl

end Failure

/-! ## What is shown -/

/-- The JSON of a failure is shown as a line. -/
theorem Display.isLine_failureJson (failure : Failure) :
    Json.IsLine (failureJson failure) (plain [(failureJson failure).json]) := by
  refine isLine_plain (Value.written_dict ?_)
  simp [Value.written_text]

theorem SourceReport.written_toValue (report : SourceReport) : report.toValue.Written := by
  refine Value.written_dict ?_
  have hreason : (Value.ofText? report.skipReason).Written := by
    cases report.skipReason with
    | none => exact Value.written_none
    | some reason => exact Value.written_text reason
  simp [Value.written_text, Value.written_int, Value.written_texts, Value.written_bool, hreason]

/-- The JSON of a summary is shown as a line. -/
theorem Display.isLine_summary {duration : Value} (hduration : duration.Written)
    (summary : Summary) :
    Json.IsLine (summary.toValue duration) (Display.summary true duration summary) := by
  refine isLine_plain (Value.written_dict ?_)
  have hsources : (Value.list (summary.sources.map SourceReport.toValue)).Written := by
    refine Value.written_list fun v hv => ?_
    obtain ⟨report, -, rfl⟩ := List.mem_map.mp hv
    exact report.written_toValue
  simp [Value.written_text, Value.written_int, hsources, hduration]

/-! ## Command lines -/

section

variable {around : Surroundings} {options : MutateOptions} {start : World Twister}

/-- A failure of the program's own is shown, and no other. -/
theorem Outcome.stopped_of_failed {failure : Failure} :
    (failure.category.isApplication = true → ∃ output,
      Json.IsLine (Display.failureJson failure) output ∧
        stopped true "" (.failed failure)
          = { exitCode := if failure.category.isConfiguration then 2 else 1, output }) ∧
      (failure.category.isApplication = false →
        stopped true "" (.failed failure) = escaped "" (.failed failure)) := by
  constructor
  · intro happlication
    refine ⟨_, Display.isLine_failureJson failure, ?_⟩
    simp [stopped, happlication]
  · intro hforeign
    simp [stopped, hforeign]

/-- With JSON nothing is shown before the run has ended. -/
theorem Command.performMutate_of_json (hjson : options.json = true)
    {result : Except Stop Summary} {after : World Twister}
    (hrun : runOf around options start = (result, after)) :
    (performMutate around options start).1
      = match result with
        | .ok summary => .success (Display.summary true around.duration summary)
        | .error stop => .stopped true "" stop := by
  have hplain : options.isWatched = false := by simp [MutateOptions.isWatched, hjson]
  -- A run that is not watched leaves no bars to be shown.
  have hbars : (runOf around options start).2.bars = [] := Run.bars_mutateAfter _ .seeded _
  rw [hrun] at hbars
  unfold runOf at hrun
  unfold performMutate
  dsimp only
  rw [seededRun_of_not_isWatched hplain, hrun]
  cases result <;> simp [preamble, hjson, progress, hbars]

/-- A mutation run that is asked for JSON shows one line of it, or fails with what is not shown. -/
theorem Command.performMutate_json (hjson : options.json = true) (hproper : start.tree.Proper)
    (houtput : NullFree (outputOf start.tree options).text) (hcuts : around.tools.CutsTexts)
    (hduration : around.duration.Written) :
    EndsInJson around options start (performMutate around options start).1 := by
  have htyped := typed_settings around.environment (outputOf start.tree options) options
  rcases hrun : runOf around options start with ⟨result, after⟩
  rw [performMutate_of_json hjson hrun]
  rcases result with (failure | _) | summary
  · have hshown : failure.category.isApplication = true →
        EndsInJson around options start (.stopped true "" (.failed failure)) := by
      intro happlication
      obtain ⟨output, hline, hstopped⟩ := Outcome.stopped_of_failed.1 happlication
      rw [hstopped]
      exact .reported hrun hline
    have hescaped : failure.category.isApplication = false →
        Unshown options start.tree failure →
          EndsInJson around options start (.stopped true "" (.failed failure)) := by
      intro hforeign hcause
      rw [Outcome.stopped_of_failed.2 hforeign]
      exact .escaped hrun hcause
    have hgrounded : (World.fresh start.tree start.chance start.grammars).tree.Grounded :=
      hproper.grounded
    -- A failure that is not reported comes from settings that do not fit, and from nothing else.
    rcases (Run.mutateAfter_eq_error hrun).isReported_or_misfit .seeded hgrounded hproper.names hcuts
      htyped with hreported | ⟨-, hmisfit⟩
    · exact hshown (Failure.isApplication_of_isReported hreported)
    · cases hmisfit with
      | refused hclass => exact hshown (Failure.isApplication_of_isConfiguration hclass)
      | input hinput =>
        exact hescaped (Failure.not_isApplication_file _) (.path (.inl hinput))
      | output hasked =>
        rcases hasked with hasked | ⟨-, hnull⟩
        · exact hescaped (Failure.not_isApplication_file _) (.path (.inr hasked))
        · exact absurd houtput hnull
      | pattern htexts hpattern hread =>
        cases Value.texts_injective htexts
        exact hescaped (Failure.not_isApplication_of_ofText hread) (.pattern hpattern hread)
  · exact .unfinished hrun
  · exact .returned hrun (Display.isLine_summary hduration summary)

/-- A command line that asks for a mutation run with JSON.  If the log can be set up as it asks, the
output is one line, which is a JSON object: the summary of the run, with exit code 0, or the class
and the words of its failure, with exit code 2 if that is about the configuration and 1 if not.
Only where an ignore pattern cannot be read, or the path of a directory is too long to be asked for,
is the output empty, with exit code 1. -/
theorem performLine_json {start : ProperWorld Twister} {commandLine : List String}
    {invocation : Invocation} {digits : Nat} {exponent : Int}
    (hline : Invocation.read commandLine = .ok invocation)
    (hcommand : Command.read start.tree invocation.commandName invocation.arguments
      = .ok (.mutate options))
    (hjson : options.json = true) (hcuts : around.tools.CutsTexts)
    (hduration : around.duration = .real (.finite false digits exponent)) (log : LogState) :
    match invocation.verbosity.apply around.environment log start.tree with
    | (.error failure, _, _) =>
      (performLine around commandLine log start).1 = .escaped "" (.failed failure)
    | (.ok (), _, tree) =>
      Command.EndsInJson around options { start.toWorld with tree }
        (performLine around commandLine log start).1 := by
  obtain ⟨hcommand, hgiven⟩ := Command.read_eq_mutate hcommand
  -- What the log is set up with leaves a tree as file systems have them.
  have hready := invocation.verbosity.proper_of_apply start.proper around.environment log
  unfold performLine
  rw [hline]
  dsimp only
  rcases hsetUp : invocation.verbosity.apply around.environment log start.tree with
    ⟨failure | _, after, tree⟩
  · rfl
  · rw [hsetUp] at hready
    dsimp only
    rw [hcommand]
    have hwritten : around.duration.Written := hduration ▸ Value.written_real false digits exponent
    have houtput : NullFree (Command.outputOf tree options).text :=
      Command.nullFree_outputOf hready hgiven
    exact Command.performMutate_json hjson hready houtput hcuts hwritten

end

/-! ### An input directory that is not there, and a pattern that cannot be read -/

/-- A parser that finds one node in each source, and runs that take no time. -/
def wholeTexts : Surroundings := ⟨Run.wholeTextTools, .empty, .real (.finite false 0 0)⟩

theorem proper_namesakes : Run.namesakesTree.Proper where
  grounded := Run.namesakesTree.grounded
  names := by decide +kernel
  targets _ target h := absurd h (FileTree.not_link_of_entries (by decide) _ target)

/-- Two sources in directories of `in`, before anything was done. -/
def namesakesStart : ProperWorld Twister :=
  ⟨World.fresh Run.namesakesTree default .empty, proper_namesakes⟩

/-- A run of which the input directory is not there. -/
def missingInputLine : List String := ["-q", "mutate", "-i", "é", "-m", "0", "--json"]

/-- What it asks for, besides being quiet. -/
def missingInput : MutateOptions where
  inputDirectory := "é"
  outputDirectory := none
  mode := 0
  count := 0
  language := "rust"
  maxLines := 500
  seed := none
  ignore := []
  noProgress := false
  json := true

/-- What it comes to. -/
def missingInputOutcome : Outcome :=
  (performLine wholeTexts missingInputLine .initial namesakesStart).1

/-- Its failure is shown as one line of ASCII. -/
theorem missingInput_json :
    missingInputOutcome.exitCode = 2 ∧
      missingInputOutcome.output
        = "\x7b\"status\":\"error\",\"error\":\"ConfigError\",\"message\":"
          ++ "\"Input directory '\\u00e9' does not exist or is not a directory\"\x7d\n" ∧
      Command.EndsInJson wholeTexts missingInput namesakesStart missingInputOutcome := by
  have hline : Invocation.read missingInputLine
      = .ok ⟨.quiet, "mutate", ["-i", "é", "-m", "0", "--json"]⟩ := rfl
  have hcommand : Command.read namesakesStart.tree "mutate" ["-i", "é", "-m", "0", "--json"]
      = .ok (.mutate missingInput) := rfl
  have hsetUp : Verbosity.quiet.apply wholeTexts.environment .initial namesakesStart.tree
      = (.ok (), ⟨true, []⟩, namesakesStart.tree) := rfl
  have hduration : wholeTexts.duration = .real (.finite false 0 0) := rfl
  -- The log is set up without a file, so the command starts from the same tree.
  have hends := performLine_json hline hcommand rfl Run.cutsTexts_wholeText hduration .initial
  rw [hsetUp] at hends
  exact ⟨by decide +kernel, by decide +kernel, hends⟩

/-- A run with an ignore pattern that negates nothing. -/
def unreadPatternLine : List String :=
  ["mutate", "-i", "in", "-o", "out", "-m", "0", "--json", "--ignore", "!"]

/-- What such a command line comes to. -/
def unreadPatternOutcome : Outcome :=
  (performLine wholeTexts unreadPatternLine .initial namesakesStart).1

/-- The pattern cannot be used, and yet nothing is shown, and the exit code is not that of a failure
about the configuration. -/
theorem unreadPattern_shows_nothing :
    (∃ options, Command.read namesakesStart.tree "mutate" unreadPatternLine.tail
        = .ok (.mutate options) ∧ options.json = true ∧ options.ignore = ["!"]) ∧
      wholeTexts.tools.CutsTexts ∧
      unreadPatternOutcome.uncaught = some (.failed (.ignorePattern "!")) ∧
      unreadPatternOutcome.exitCode = 1 ∧
      ¬∃ object, Json.IsLine object unreadPatternOutcome.output := by
  have houtcome : unreadPatternOutcome = .escaped "" (.failed (.ignorePattern "!")) := rfl
  refine ⟨⟨_, rfl, rfl, rfl⟩, Run.cutsTexts_wholeText, ?_⟩
  rw [houtcome]
  exact ⟨rfl, rfl, fun ⟨_, hline⟩ => hline.ne_empty rfl⟩

end SourceMutation
