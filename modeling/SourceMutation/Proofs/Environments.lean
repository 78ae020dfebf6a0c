import SourceMutation.Proofs.JsonOutput
import SourceMutation.Proofs.Yields

/-!
# Command lines and the environment

A mutation run has two sources of defaults: a command line fills in what no option says, and
settings that are built by a caller take what is left open from the environment.  A command line
that performs a run is compared here with a caller who sets what is given as an option and nothing
else (`Command.given`).

The seed and the stall limit are taken from the environment in both.  For the language and the line
limit a command line has defaults of its own, and never looks them up: it does what the caller does
in an environment without these two names (`Command.MutateLine.performLine_environment`).  So the
two agree if neither name matters, and part where one does (`Command.plainLine_parts`).
-/

namespace SourceMutation

/-! ## Environments without some names -/

namespace Environment

/-- An environment without some names. -/
def without (environment : Environment) (names : List String) : Environment :=
  ⟨fun name => if name ∈ names then none else environment.get? name⟩

variable {environment : Environment} {names : List String} {name : String}

theorem get_without_of_mem (h : name ∈ names) (default : String) :
    (environment.without names).get name default = default := by
  simp [get, without, h]

theorem int_without_of_mem (h : name ∈ names) (default : Option Int) :
    (environment.without names).int name default = default := by
  simp [int, intOr, without, h]

theorem int_without_of_not_mem (h : name ∉ names) (default : Option Int) :
    (environment.without names).int name default = environment.int name default := by
  simp [int, without, h]

end Environment

namespace Command

variable {environment : Environment} {arguments : Arguments Key} {options : MutateOptions}

/-! ## Settings that say what is given

A command line always says which language and which line limit it means, so the environment is never
asked for these.  Of the other settings it says only what is given.
-/

/-- The integer that is given as an option. -/
def integerGiven (arguments : Arguments Key) (key : Key) : Option Int :=
  (arguments.value? key).bind IntegerOption.read?

/-- The settings of a caller who sets what is given as an option, and leaves all else open. -/
def given (environment : Environment) (workPath : Path) (arguments : Arguments Key) : Settings :=
  let defaults := Settings.defaults environment
    (Path.ofText ((arguments.value? .inputDirectory).getD ""))
    ((arguments.value? .outputDirectory).elim workPath Path.ofText)
  { defaults with
    mode := (integerGiven arguments .mode).elim defaults.mode .int
    count := (integerGiven arguments .count).elim defaults.count .int
    language := (arguments.value? .language).elim defaults.language .text
    maxLines := (integerGiven arguments .maxLines).elim defaults.maxLines .int
    seed := (integerGiven arguments .seed).elim defaults.seed .int
    ignorePatterns :=
      if arguments.has .ignore then .texts (arguments.values .ignore)
      else defaults.ignorePatterns }

/-- The names that a command line does not look up. -/
def passedOver : List String := ["SPANMUT_LANGUAGE", "SPANMUT_MAX_LINES"]

/-- Whether neither of these names matters: it is overruled by an option, or says what counts where
nothing is said. -/
structure Unswayed (environment : Environment) (arguments : Arguments Key) : Prop where
  language : arguments.value? .language = none →
    environment.get "SPANMUT_LANGUAGE" Settings.defaultLanguage = Settings.defaultLanguage
  maxLines : integerGiven arguments .maxLines = none →
    environment.int "SPANMUT_MAX_LINES" (some Settings.defaultMaxLines)
      = some Settings.defaultMaxLines

/-! ## What options say -/

theorem needed_eq_ok {key : Key} {what value : String} (h : needed arguments key what = .ok value) :
    arguments.value? key = some value := by
  unfold needed at h
  split at h
  case h_1 found hfound =>
    cases h
    exact hfound
  case h_2 => cases h

theorem integer_eq_ok {text : String} {n : Int} (h : integer text = .ok n) :
    IntegerOption.read? text = some n := by
  unfold integer at h
  split at h
  case h_1 m hread =>
    cases h
    exact hread
  case h_2 => cases h

theorem integer?_eq_ok {key : Key} {n : Option Int} (h : integer? arguments key = .ok n) :
    integerGiven arguments key = n := by
  unfold integer? at h
  unfold integerGiven
  cases htext : arguments.value? key with
  -- The option is not given, and stays out of the settings.
  | none =>
    rw [htext] at h
    cases h
    rfl
  | some text =>
    rw [htext] at h
    dsimp only at h
    cases hread : integer text with
    | error fault =>
      rw [hread] at h
      cases h
    | ok m =>
      rw [hread] at h
      cases h
      exact integer_eq_ok hread

theorem pathText_mapM_eq_ok {text path : Option String} (h : text.mapM pathText = .ok path) :
    text = path := by
  cases text with
  | none =>
    cases h
    rfl
  | some text =>
    obtain ⟨found, hfound, hpath⟩ := except_bind_eq_ok.mp h
    cases hpath
    rw [(nullFree_of_pathText hfound).1]

/-- What the options of a run are, by what is given. -/
structure ReadFrom (arguments : Arguments Key) (options : MutateOptions) : Prop where
  inputDirectory : arguments.value? .inputDirectory = some options.inputDirectory
  outputDirectory : arguments.value? .outputDirectory = options.outputDirectory
  mode : integerGiven arguments .mode = some options.mode
  count : (integerGiven arguments .count).getD 0 = options.count
  language : (arguments.value? .language).getD Settings.defaultLanguage = options.language
  maxLines : (integerGiven arguments .maxLines).getD Settings.defaultMaxLines = options.maxLines
  seed : integerGiven arguments .seed = options.seed
  ignore : arguments.values .ignore = options.ignore

theorem readFrom_of_readMutate (h : readMutate arguments = .ok options) :
    ReadFrom arguments options := by
  unfold readMutate at h
  obtain ⟨_, -, h⟩ := except_bind_eq_ok.mp h
  obtain ⟨inputDirectory, hinput, h⟩ := except_bind_eq_ok.mp h
  obtain ⟨outputDirectory, houtput, h⟩ := except_bind_eq_ok.mp h
  obtain ⟨modeText, hmodeText, h⟩ := except_bind_eq_ok.mp h
  obtain ⟨mode, hmode, h⟩ := except_bind_eq_ok.mp h
  obtain ⟨count, hcount, h⟩ := except_bind_eq_ok.mp h
  obtain ⟨maxLines, hmaxLines, h⟩ := except_bind_eq_ok.mp h
  obtain ⟨seed, hseed, h⟩ := except_bind_eq_ok.mp h
  cases h
  -- All options were read; each part of the claim is about one of them.
  obtain ⟨inputText, hinputText, hpath⟩ := except_bind_eq_ok.mp hinput
  constructor
  case inputDirectory => rw [(nullFree_of_pathText hpath).1]; exact needed_eq_ok hinputText
  case outputDirectory => exact pathText_mapM_eq_ok houtput
  case mode =>
    rw [integerGiven, needed_eq_ok hmodeText]
    exact integer_eq_ok hmode
  case count => rw [integer?_eq_ok hcount]
  case language => rfl
  case maxLines => rw [integer?_eq_ok hmaxLines]
  case seed => exact integer?_eq_ok hseed
  case ignore => rfl

/-- The default of an option is that of an environment which does not tell it. -/
theorem elim_ofInt? (given : Option Int) (default : Int) :
    given.elim (Settings.ofInt? (some default)) .int = .int (given.getD default) := by
  cases given <;> rfl

/-- A command line sets what is given, and takes the rest from the environment without the names
that it does not look up. -/
theorem settings_eq_given (h : ReadFrom arguments options) (environment : Environment)
    (tree : FileTree) :
    settings environment (outputOf tree options) options
      = given (environment.without passedOver) tree.workPath arguments := by
  have hlanguage : "SPANMUT_LANGUAGE" ∈ passedOver := by decide
  have hmaxLines : "SPANMUT_MAX_LINES" ∈ passedOver := by decide
  have hstall : "SPANMUT_STALL_LIMIT" ∉ passedOver := by decide
  have hseed : "SPANMUT_SEED" ∉ passedOver := by decide
  simp only [settings, given, Settings.defaults, Settings.mk.injEq]
  refine ⟨?_, ?_, ?_, ?_, ?_, ?_, ?_, ?_, ?_⟩
  · rw [h.inputDirectory]
    rfl
  · rw [h.outputDirectory, outputOf]
    cases options.outputDirectory <;> rfl
  · rw [h.mode]
    rfl
  · rw [← h.count]
    exact (elim_ofInt? _ 0).symm
  · rw [Environment.get_without_of_mem hlanguage, ← h.language]
    cases arguments.value? .language <;> rfl
  · rw [Environment.int_without_of_mem hmaxLines, ← h.maxLines, elim_ofInt?]
  · rw [Environment.int_without_of_not_mem hstall]
  · rw [Environment.int_without_of_not_mem hseed, h.seed]
    cases options.seed <;> rfl
  · -- Without a pattern there is an empty list of them, as in the defaults.
    rw [← h.ignore]
    split
    case isTrue => rfl
    case isFalse hnone =>
      have hempty : arguments.values .ignore = [] := by
        simpa [Arguments.has, Arguments.value?] using hnone
      rw [hempty]
      rfl

theorem ofInt?_injective {n m : Option Int} (h : Settings.ofInt? n = Settings.ofInt? m) : n = m := by
  cases n <;> cases m <;> cases h <;> rfl

/-- The names that a command line does not look up make no difference exactly where they do not
matter. -/
theorem given_eq_iff {workPath : Path} :
    given environment workPath arguments
        = given (environment.without passedOver) workPath arguments ↔
      Unswayed environment arguments := by
  have hlanguage : "SPANMUT_LANGUAGE" ∈ passedOver := by decide
  have hmaxLines : "SPANMUT_MAX_LINES" ∈ passedOver := by decide
  have hstall : "SPANMUT_STALL_LIMIT" ∉ passedOver := by decide
  have hseed : "SPANMUT_SEED" ∉ passedOver := by decide
  simp only [given, Settings.defaults, Settings.mk.injEq, Environment.get_without_of_mem hlanguage,
    Environment.int_without_of_mem hmaxLines, Environment.int_without_of_not_mem hstall,
    Environment.int_without_of_not_mem hseed, true_and, and_true]
  -- What is left are the language and the line limit, each one given or not.
  constructor
  · rintro ⟨hsame, hlines⟩
    constructor
    · intro hnone
      rw [hnone] at hsame
      exact Value.text.inj hsame
    · intro hnone
      rw [hnone] at hlines
      exact ofInt?_injective hlines
  · rintro ⟨hsame, hlines⟩
    constructor
    · cases hgiven : arguments.value? .language with
      | none => exact congrArg Value.text (hsame hgiven)
      | some text => rfl
    · cases hgiven : integerGiven arguments .maxLines with
      | none => exact congrArg Settings.ofInt? (hlines hgiven)
      | some n => rfl

/-! ## Runs -/

/-- The run of a caller who sets what is given as an option, and leaves all else to an
environment. -/
def runGiven (around : Surroundings) (environment : Environment) (arguments : Arguments Key)
    (start : World Twister) : Except Stop Summary × World Twister :=
  Run.mutateSeeded around.tools (given environment start.tree.workPath arguments)
    (World.fresh start.tree start.chance start.grammars)

/-- What a command shows before its run has ended: where mutants go if nothing is said, the mutants,
and the bars that are left over the sources. -/
def shownDuring (around : Surroundings) (options : MutateOptions) (before : FileTree)
    (after : World Twister) (left : List (Nat × Nat)) : String :=
  preamble before options ++ progress options.json after ++ Display.bars around.duration left

/-- Whether a command ends as a run does: with the same files, and with an outcome that tells of the
same mutants and of the same summary or the same stop.  In between it shows how far a bar got over
the sources, if the run is watched. -/
structure EndsAs (around : Surroundings) (options : MutateOptions) (before : FileTree)
    (run : Except Stop Summary × World Twister) (command : Outcome × World Twister) : Prop where
  tree : command.2.tree = run.2.tree
  writings : command.2.writings = run.2.writings
  acceptances : command.2.acceptances = run.2.acceptances
  returned : ∀ summary, run.1 = .ok summary →
    ∃ left, LeavesBars options (.ok summary) left ∧
      command.1 = .success (shownDuring around options before run.2 left
        ++ Display.summary options.json around.duration summary)
  stopped : ∀ stop, run.1 = .error stop →
    ∃ left, LeavesBars options (.error stop) left ∧
      command.1 = .stopped options.json (shownDuring around options before run.2 left) stop

/-- A failure that is logged leaves the files alone. -/
theorem quiet_logFailure (stop : Stop) (world : World Twister) :
    (Run.logFailure stop world).2.tree = world.tree ∧
      World.Quiet world (Run.logFailure stop world).2 := by
  unfold Run.logFailure
  split
  · split
    · exact ⟨rfl, World.quiet_after rfl rfl world⟩
    · exact ⟨rfl, World.tolerant_quiet.refl world⟩
  · exact ⟨rfl, World.tolerant_quiet.refl world⟩

theorem performMutate_endsAs (h : ReadFrom arguments options) (around : Surroundings)
    (start : World Twister) :
    EndsAs around options start.tree
      (runGiven around (around.environment.without passedOver) arguments start)
      (performMutate around options start) := by
  unfold performMutate runGiven
  rw [settings_eq_given h]
  dsimp only
  generalize given (around.environment.without passedOver) start.tree.workPath arguments = asked
  have hnone : (Run.mutateSeeded around.tools asked
      (World.fresh start.tree start.chance start.grammars)).2.bars = [] :=
    Run.bars_mutateAfter _ .seeded _
  obtain ⟨left, hwatches, hleft⟩ := seededRun_watches options around.tools asked
    (World.fresh start.tree start.chance start.grammars)
  generalize Run.mutateSeeded around.tools asked _ = plain at hwatches hleft hnone ⊢
  generalize seededRun options around.tools asked _ = watched at hwatches ⊢
  obtain ⟨result, after⟩ := watched
  obtain ⟨result', plain⟩ := plain
  obtain ⟨rfl, hworlds⟩ := hwatches
  have hshown : preamble start.tree options ++ progress options.json after
        ++ Display.bars around.duration after.bars
      = shownDuring around options start.tree plain left := by
    rw [shownDuring, progress, progress, hworlds.acceptances, hworlds.bars, hnone, List.nil_append]
  rcases result with stop | summary
  · -- A command logs the failure of its run, and does nothing else after it.
    obtain ⟨htree, haccepted, hwritten⟩ := quiet_logFailure stop after
    refine ⟨htree.trans hworlds.tree, hwritten.trans hworlds.writings,
      haccepted.trans hworlds.acceptances, fun _ hok => ?_, fun _ hstop => ?_⟩
    · cases hok
    · cases hstop
      exact ⟨left, hleft, by rw [← hshown]⟩
  · refine ⟨hworlds.tree, hworlds.writings, hworlds.acceptances, fun _ hok => ?_,
      fun _ hstop => ?_⟩
    · cases hok
      exact ⟨left, hleft, by rw [← hshown]⟩
    · cases hstop

/-! ## Command lines -/

/-- A command line that asks for a run, and what is given on it. -/
structure MutateLine (commandLine : List String) where
  invocation : Invocation
  rules : List (OptionRule Key)
  arguments : Arguments Key
  options : MutateOptions
  read_line : Invocation.read commandLine = .ok invocation
  isMutate : invocation.commandName = "mutate"
  rulesOf : rulesOf? "mutate" = some rules
  read_arguments : Arguments.read rules true invocation.arguments = .ok arguments
  read_options : readMutate arguments = .ok options

namespace MutateLine

variable {commandLine : List String}

/-- What such a line asks for does not depend on the files. -/
theorem read_eq (line : MutateLine commandLine) (tree : FileTree) :
    read tree line.invocation.commandName line.invocation.arguments
      = .ok (.mutate line.options) := by
  rw [line.isMutate, Command.read, line.rulesOf]
  exact except_bind_eq_ok.mpr ⟨line.arguments, line.read_arguments,
    except_bind_eq_ok.mpr ⟨line.options, line.read_options, rfl⟩⟩

/-- How a command line performs the run that it asks for: what is compared is where it ended and
how. -/
structure Performs (line : MutateLine commandLine) (around : Surroundings) (start : World Twister)
    (command : Outcome × World Twister) : Prop where
  /-- It is the run of a caller to whom the environment does not tell what is passed over. -/
  passing : EndsAs around line.options start.tree
    (runGiven around (around.environment.without passedOver) line.arguments start) command
  /-- So it is that of a caller in the same environment, if what is passed over does not matter. -/
  unswayed : Unswayed around.environment line.arguments →
    EndsAs around line.options start.tree
      (runGiven around around.environment line.arguments start) command
  /-- What is passed over matters exactly if it changes the settings. -/
  matters : Unswayed around.environment line.arguments ↔
    given around.environment start.tree.workPath line.arguments
      = given (around.environment.without passedOver) start.tree.workPath line.arguments

theorem performs (line : MutateLine commandLine) (around : Surroundings) (start : World Twister) :
    line.Performs around start (performMutate around line.options start) := by
  have hends := performMutate_endsAs (readFrom_of_readMutate line.read_options) around start
  refine ⟨hends, fun hunswayed => ?_, given_eq_iff.symm⟩
  rw [runGiven, given_eq_iff.mpr hunswayed]
  exact hends

/--
A command line that asks for a run ends as the run of a caller who sets what is given on it, except
that the language and the line limit are never taken from the environment.
-/
theorem performLine_environment (line : MutateLine commandLine) (around : Surroundings)
    (log : LogState) (start : World Twister) :
    match line.invocation.verbosity.apply around.environment log start.tree with
    | (.error failure, after, tree) =>
      performLine around commandLine log start
        = (.escaped "" (.failed failure), after, { start with tree })
    | (.ok (), after, tree) =>
      ∃ outcome world, performLine around commandLine log start = (outcome, after, world) ∧
        line.Performs around { start with tree } (outcome, world) := by
  unfold performLine
  rw [line.read_line]
  dsimp only
  -- The log is set up first, and if that fails the command is not performed.
  rcases line.invocation.verbosity.apply around.environment log start.tree with
    ⟨failure | _, after, tree⟩
  · rfl
  · dsimp only
    rw [line.read_eq]
    exact ⟨_, _, rfl, line.performs around { start with tree }⟩

end MutateLine

/-! ### Sources in two languages -/

/-- The sources `a.rs` and `b.py` in the directory `in`. -/
def twoLanguages : World Twister :=
  World.fresh
    ⟨["w"], ⟨[(["w"], .directory), (["w", "in"], .directory), (["w", "in", "a.rs"], .file [0x78]),
      (["w", "in", "b.py"], .file [0x79])]⟩⟩
    default .empty

/-- An environment that asks for Python, without a number where one is wanted. -/
def pythonEnvironment : Environment :=
  .ofList [("SPANMUT_LANGUAGE", "python"), ("SPANMUT_MAX_LINES", "lots"), ("SPANMUT_SEED", "7")]

/-- A parser that finds one node in each source, in that environment. -/
def pythonAround : Surroundings := ⟨Run.wholeTextTools, pythonEnvironment, .real (.finite false 0 0)⟩

/-- All deletions, of sources in a language that is given. -/
def rustLine : List String := ["mutate", "-i", "in", "-o", "out", "-m", "0", "--language=rust"]

/-- What is given on it. -/
def rustMutateLine : MutateLine rustLine where
  invocation := ⟨.asBefore, "mutate", rustLine.tail⟩
  rules := (rulesOf? "mutate").getD []
  arguments := ⟨[(.inputDirectory, "in"), (.outputDirectory, "out"), (.mode, "0"),
    (.language, "rust")], []⟩
  options := ⟨"in", some "out", 0, 0, "rust", 500, none, [], false, false⟩
  read_line := rfl
  isMutate := rfl
  rulesOf := rfl
  read_arguments := rfl
  read_options := rfl

/-- With the language given and the line limit unread, the command and the caller agree. -/
theorem rustLine_agrees :
    Unswayed pythonEnvironment rustMutateLine.arguments ∧
      ∃ outcome world, performLine pythonAround rustLine .initial twoLanguages
          = (outcome, .initial, world) ∧
        EndsAs pythonAround rustMutateLine.options twoLanguages.tree
          (runGiven pythonAround pythonEnvironment rustMutateLine.arguments twoLanguages)
          (outcome, world) := by
  have hunswayed : Unswayed pythonEnvironment rustMutateLine.arguments :=
    ⟨fun hnone => (nomatch hnone), fun _ => by decide +kernel⟩
  obtain ⟨outcome, world, hline, hperforms⟩ :=
    rustMutateLine.performLine_environment pythonAround .initial twoLanguages
  exact ⟨hunswayed, outcome, world, hline, hperforms.unswayed hunswayed⟩

/-- All deletions, and nothing said of the language. -/
def plainLine : List String := ["mutate", "-i", "in", "-o", "out", "-m", "0", "--no-progress"]

/-- What is given on it. -/
def plainMutateLine : MutateLine plainLine where
  invocation := ⟨.asBefore, "mutate", plainLine.tail⟩
  rules := (rulesOf? "mutate").getD []
  arguments := ⟨[(.inputDirectory, "in"), (.outputDirectory, "out"), (.mode, "0"),
    (.noProgress, "")], []⟩
  options := ⟨"in", some "out", 0, 0, "rust", 500, none, [], true, false⟩
  read_line := rfl
  isMutate := rfl
  rulesOf := rfl
  read_arguments := rfl
  read_options := rfl

/-- Then the command mutates the one source, and the caller the other. -/
theorem plainLine_parts :
    ((performLine pythonAround plainLine .initial twoLanguages).2.2.writings.map fun writing =>
        writing.1.text) = ["out/mut_a.rs_1.rs"] ∧
      ((runGiven pythonAround pythonEnvironment plainMutateLine.arguments
        twoLanguages).2.writings.map fun writing => writing.1.text) = ["out/mut_b.py_1.py"] := by
  constructor
  · decide +kernel
  · decide +kernel

end Command

end SourceMutation
