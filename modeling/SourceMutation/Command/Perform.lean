import SourceMutation.Command.Display
import SourceMutation.Command.Invocation
import SourceMutation.Log.Sinks
import SourceMutation.Run.Mutation

/-!
# Performing commands

A command ends with an exit code and an output.  The program's own failures are shown, and end
with 2 if they are about configuration and with 1 if not.  Usage faults end with 2 and show nothing
here.  Any other failure is not shown: it ends the command with 1 and is left to the caller.

A mutation run shows the mutants as they are accepted, and a bar over the sources unless it is told
not to or JSON is asked for.  What is shown does not go to a terminal, so that the bar appears once,
as it was left.
-/

namespace SourceMutation

/-- How a command ended. -/
structure Outcome where
  /-- Zero if all went well. -/
  exitCode : Nat
  /-- What was shown. -/
  output : String
  /-- Why the arguments were refused, if they were. -/
  usage : Option UsageFault := none
  /-- What ended the command and was not shown. -/
  uncaught : Option Stop := none

namespace Outcome

/-- An outcome in which all went well. -/
def success (output : String) : Outcome := { exitCode := 0, output }

/-- The outcome of arguments that are refused. -/
def refused (fault : UsageFault) : Outcome := { exitCode := 2, output := "", usage := some fault }

/-- The outcome of a stop that is not shown, after some output. -/
def escaped (output : String) (stop : Stop) : Outcome :=
  { exitCode := 1, output, uncaught := some stop }

/-- The outcome of what was to be shown, which is all or nothing. -/
def ofOutput : Except Failure String → Outcome
  | .ok output => success output
  | .error failure => escaped "" (.failed failure)

/-- The outcome of a stop after some output. -/
def stopped (json : Bool) (output : String) (stop : Stop) : Outcome :=
  match stop with
  | .failed failure =>
    if failure.category.isApplication then
      let shown :=
        if json then Display.plain [(Display.failureJson failure).json]
        else Display.failureText failure
      { exitCode := if failure.category.isConfiguration then 2 else 1, output := output ++ shown }
    else escaped output stop
  | .unfinished => escaped output stop

end Outcome

/-- What a command needs from outside. -/
structure Surroundings where
  /-- The grammars that are installed. -/
  tools : Toolchain
  /-- The environment. -/
  environment : Environment
  /-- The time that is told for a run: how long it took, or, behind a bar that was left early, how
  long the rest is expected to take, and zero if nothing is known of that. -/
  duration : Value

namespace Command

/-- The version of the program. -/
def versionText : String := "spanmut v0.1.0"

/-! ## Mutation runs -/

/-- The settings that a command line asks for; what it cannot set comes from the environment. -/
def settings (environment : Environment) (outputDirectory : Path) (options : MutateOptions) :
    Settings :=
  let defaults :=
    Settings.defaults environment (Path.ofText options.inputDirectory) outputDirectory
  { defaults with
    mode := .int options.mode
    count := .int options.count
    language := .text options.language
    maxLines := .int options.maxLines
    ignorePatterns := .texts options.ignore
    seed :=
      match options.seed with
      | some seed => .int seed
      | none => defaults.seed }

/-- Where mutants go: to the working directory if nothing is said. -/
def outputOf (tree : FileTree) (options : MutateOptions) : Path :=
  match options.outputDirectory with
  | some text => Path.ofText text
  | none => tree.workPath

/-- What is shown before a run. -/
def preamble (tree : FileTree) (options : MutateOptions) : String :=
  if options.json || options.outputDirectory.isSome then "" else Display.preamble tree.workPath

/-- The run that is asked for. -/
def seededRun (options : MutateOptions) (tools : Toolchain) (settings : Settings) :
    Run Twister Summary :=
  if options.isWatched then Run.trackSeeded tools settings else Run.mutateSeeded tools settings

/-- What is shown of the mutants during a run. -/
def progress (json : Bool) (world : World Twister) : String :=
  if json then "" else Display.progress (world.acceptances.map fun acceptance => acceptance.2)

/-- Performs a mutation run. -/
def performMutate (around : Surroundings) (options : MutateOptions) (world : World Twister) :
    Outcome × World Twister :=
  let settings := settings around.environment (outputOf world.tree options) options
  let start := World.fresh world.tree world.chance world.grammars
  let (result, after) := seededRun options around.tools settings start
  let shown := preamble world.tree options ++ progress options.json after
    ++ Display.bars around.duration after.bars
  match result with
  | .ok summary =>
    (.success (shown ++ Display.summary options.json around.duration summary), after)
  | .error stop => (.stopped options.json shown stop, (Run.logFailure stop after).2)

/-! ## All commands -/

/-- Lists the spans of a file.  A span whose text cannot be read is left to the caller, and so is a
title that cannot be shown. -/
def performHarvest (tools : Toolchain) (file : Path) (language : Option String) (json : Bool)
    (world : World Twister) : Outcome × World Twister :=
  match Run.harvestFile tools file (.ofText? language) world with
  | (.error stop, world) => (.stopped json "" stop, world)
  | (.ok found, world) =>
    (.ofOutput (Display.spanTexts found >>= Display.spans file json), world)

/-- Counts the texts of each kind in a directory. -/
def performCorpus (tools : Toolchain) (directory : Path) (language : String) (maxLines : Int)
    (json : Bool) (world : World Twister) : Outcome × World Twister :=
  match Run.buildCorpus tools directory (.text language) (.int maxLines) .none world with
  | (.error stop, world) => (.stopped json "" stop, world)
  | (.ok built, world) => (.ofOutput (Display.corpus directory json built), world)

/-- Performs a command. -/
def perform (around : Surroundings) (command : Command) (world : World Twister) :
    Outcome × World Twister :=
  match command with
  | .mutate options => performMutate around options world
  | .harvest file language json => performHarvest around.tools file language json world
  | .corpus directory language maxLines json =>
    performCorpus around.tools directory language maxLines json world
  | .version => (.success (Display.plain [versionText]), world)

end Command

/-! ## Command lines -/

/-- What a verbosity asks of the log, if anything. -/
def Verbosity.request? : Verbosity → Option LogRequest
  | .asBefore => none
  | .quiet => some { suppressConsole := some true, force := true }
  | .verbose => some { level := .text "DEBUG", force := true }

/-- Sets the log up as a verbosity asks. -/
def Verbosity.apply (verbosity : Verbosity) (environment : Environment) (log : LogState)
    (tree : FileTree) : Except Failure Unit × LogState × FileTree :=
  match verbosity.request? with
  | none => (.ok (), log, tree)
  | some request => LogState.setUp environment request log tree

/-- Performs a command line. -/
def performLine (around : Surroundings) (commandLine : List String) (log : LogState)
    (world : World Twister) : Outcome × LogState × World Twister :=
  match Invocation.read commandLine with
  | .error fault => (.refused fault, log, world)
  | .ok invocation =>
    let (ready, log, tree) := invocation.verbosity.apply around.environment log world.tree
    let world := { world with tree }
    match ready with
    | .error failure => (.escaped "" (.failed failure), log, world)
    | .ok () =>
      match Command.read world.tree invocation.commandName invocation.arguments with
      | .error fault => (.refused fault, log, world)
      | .ok command =>
        let (outcome, world) := command.perform around world
        (outcome, log, world)

end SourceMutation
