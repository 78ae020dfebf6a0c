import SourceMutation.Command.Arguments
import SourceMutation.Command.IntegerOption
import SourceMutation.Files.Operations
import SourceMutation.Settings

/-!
# Invocations

What a command line asks for: a command with its options, and how much is logged.  A command line
that asks for nothing sensible is a usage fault; a path that a command reads must be there, and
be of the right kind.
-/

namespace SourceMutation

/-- What a mutation run is asked for on the command line. -/
structure MutateOptions where
  inputDirectory : String
  outputDirectory : Option String
  mode : Int
  count : Int
  language : String
  maxLines : Int
  seed : Option Int
  ignore : List String
  noProgress : Bool
  json : Bool

/-- Whether a run is watched by a bar over its sources. -/
def MutateOptions.isWatched (options : MutateOptions) : Bool :=
  !(options.noProgress || options.json)

/-- A command with its options. -/
inductive Command where
  /-- Mutate all sources of a directory. -/
  | mutate (options : MutateOptions)
  /-- List the spans of a file. -/
  | harvest (file : Path) (language : Option String) (json : Bool)
  /-- Count the texts of each kind in a directory. -/
  | corpus (directory : Path) (language : String) (maxLines : Int) (json : Bool)
  /-- Tell the version. -/
  | version

/-- How much is logged. -/
inductive Verbosity where
  | asBefore
  | quiet
  | verbose
  deriving DecidableEq, Repr

/-- A command line whose command is known, with the arguments for that command. -/
structure Invocation where
  verbosity : Verbosity
  commandName : String
  arguments : List String

namespace Command

/-! ## Options -/

/-- What an option stands for. -/
inductive Key where
  | verbose
  | quiet
  | inputDirectory
  | outputDirectory
  | mode
  | count
  | language
  | maxLines
  | seed
  | ignore
  | noProgress
  | json
  deriving DecidableEq, Repr

/-- An option with a value. -/
def valued (key : Key) (names : List String) : OptionRule Key := ⟨key, names, true⟩

/-- An option without a value. -/
def flag (key : Key) (names : List String) : OptionRule Key := ⟨key, names, false⟩

/-- The options before the command's name. -/
def generalRules : List (OptionRule Key) :=
  [flag .verbose ["--verbose", "-v"], flag .quiet ["--quiet", "-q"]]

/-- The option that names a language. -/
def languageRule : OptionRule Key := valued .language ["--language", "-l"]

/-- The option that sets the line limit. -/
def maxLinesRule : OptionRule Key := valued .maxLines ["--max-lines"]

/-- The option that asks for JSON. -/
def jsonRule : OptionRule Key := flag .json ["--json"]

/-- The options of each command; no command has another name. -/
def rulesOf? : String → Option (List (OptionRule Key))
  | "mutate" =>
    some [
      valued .inputDirectory ["--input-dir", "-i"],
      valued .outputDirectory ["--output-dir", "-o"],
      valued .mode ["--mode", "-m"],
      valued .count ["--count", "-c"],
      languageRule,
      maxLinesRule,
      valued .seed ["--seed"],
      valued .ignore ["--ignore"],
      flag .noProgress ["--no-progress"],
      jsonRule]
  | "harvest" => some [languageRule, jsonRule]
  | "corpus" => some [languageRule, maxLinesRule, jsonRule]
  | "version" => some []
  | _ => none

/-! ## Values of options -/

/-- The value of an option that must be given. -/
def needed (arguments : Arguments Key) (key : Key) (what : String) : Except UsageFault String :=
  match arguments.value? key with
  | some value => .ok value
  | none => .error (.missing what)

/-- A text as an integer. -/
def integer (text : String) : Except UsageFault Int :=
  match IntegerOption.read? text with
  | some n => .ok n
  | none => .error (.notInteger text)

/-- The value of an option that is an integer, if it is given. -/
def integer? (arguments : Arguments Key) (key : Key) : Except UsageFault (Option Int) :=
  match arguments.value? key with
  | some text => some <$> integer text
  | none => .ok none

/-! ## Operands -/

/-- The only operand. -/
def onlyOperand (what : String) : List String → Except UsageFault String
  | [] => .error (.missing what)
  | [operand] => .ok operand
  | _ :: operand :: _ => .error (.unexpected operand)

/-- Refuses any operand. -/
def noOperand : List String → Except UsageFault Unit
  | [] => .ok ()
  | operand :: _ => .error (.unexpected operand)

/-- The path that a text writes, if something of the right kind stands there. -/
def existing (tree : FileTree) (wantsDirectory : Bool) (text : String) :
    Except UsageFault Path :=
  let path := Path.ofText text
  match tree.entryAt path with
  | .error _ => .error (.noSuchPath text)
  | .ok entry =>
    if (entry == .directory) == wantsDirectory then .ok path else .error (.wrongKind text)

/-- A text that is to be a path, which nothing can stand at if it has a null character. -/
def pathText (text : String) : Except UsageFault String :=
  if text.toList.contains '\x00' then .error (.noSuchPath text) else .ok text

/-! ## Commands -/

/-- The mutation run that arguments ask for. -/
def readMutate (arguments : Arguments Key) : Except UsageFault MutateOptions := do
  noOperand arguments.operands
  let inputDirectory ←
    needed arguments .inputDirectory "option '--input-dir' / '-i'" >>= pathText
  let outputDirectory ← (arguments.value? .outputDirectory).mapM pathText
  let mode ← integer (← needed arguments .mode "option '--mode' / '-m'")
  let count ← integer? arguments .count
  let maxLines ← integer? arguments .maxLines
  let seed ← integer? arguments .seed
  return {
    inputDirectory, outputDirectory, mode, seed
    count := count.getD 0
    language := (arguments.value? .language).getD Settings.defaultLanguage
    maxLines := maxLines.getD Settings.defaultMaxLines
    ignore := arguments.values .ignore
    noProgress := arguments.has .noProgress
    json := arguments.has .json }

/-- The command of a name and its arguments. -/
def read (tree : FileTree) (name : String) (arguments : List String) :
    Except UsageFault Command :=
  match rulesOf? name with
  | none => .error (.unknownCommand name)
  | some rules => do
    let arguments ← Arguments.read rules true arguments
    let language := arguments.value? .language
    let json := arguments.has .json
    match name with
    | "mutate" => return .mutate (← readMutate arguments)
    | "harvest" =>
      let operand ← onlyOperand "argument 'FILE'" arguments.operands
      return .harvest (← existing tree false operand) language json
    | "corpus" =>
      let operand ← onlyOperand "argument 'DIRECTORY'" arguments.operands
      let maxLines ← integer? arguments .maxLines
      return .corpus (← existing tree true operand) (language.getD Settings.defaultLanguage)
        (maxLines.getD Settings.defaultMaxLines) json
    | _ =>
      noOperand arguments.operands
      return .version

end Command

/-- Takes the general options off a command line.  Being quiet wins over being verbose. -/
def Invocation.read (commandLine : List String) : Except UsageFault Invocation := do
  let arguments ← Arguments.read Command.generalRules false commandLine
  let verbosity :=
    if arguments.has .quiet then Verbosity.quiet
    else if arguments.has .verbose then .verbose
    else .asBefore
  match arguments.operands with
  | [] => throw (.missing "command")
  | name :: rest =>
    if (Command.rulesOf? name).isSome then return ⟨verbosity, name, rest⟩
    else throw (.unknownCommand name)

end SourceMutation
