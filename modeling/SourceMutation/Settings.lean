import SourceMutation.Environment
import SourceMutation.Files.Operations
import SourceMutation.Grammar
import SourceMutation.Scan.Rules
import SourceMutation.Strategy.DrawLoop

/-!
# Settings

What a mutation run is asked for.  Settings are given as values of any sort; checking them gives a
plan, in which every part has its own type.  Checks go in a fixed order and stop at the first one
that fails: mode, count, language, line limit, stall limit, ignore patterns, input directory.

What a caller leaves open is taken from the environment, or else from defaults.
-/

namespace SourceMutation

/-- What a run is asked for, not checked yet. -/
structure Settings where
  /-- The directory of the sources. -/
  inputDirectory : Path
  /-- Where mutants are written. -/
  outputDirectory : Path
  /-- The number of the mode. -/
  mode : Value
  /-- How many mutants each source gets; zero asks for all. -/
  count : Value
  /-- The name of the sources' language. -/
  language : Value
  /-- Sources with this many lines or more are skipped. -/
  maxLines : Value
  /-- How many draws a pass may make before its first mutant. -/
  stallLimit : Value
  /-- The seed of the generator. -/
  seed : Value
  /-- Which files to pass over. -/
  ignorePatterns : Value
  deriving Inhabited

/-- What a run does: settings that passed all checks. -/
structure Plan where
  inputDirectory : Path
  outputDirectory : Path
  mode : Mode
  count : Nat
  language : Language
  maxLines : Nat
  stallLimit : StallLimit
  /-- The stall limit as it was given. -/
  stallText : String
  /-- The ignore patterns, not read yet. -/
  ignorePatterns : List String

namespace Settings

/-! ## Defaults -/

/-- The language of sources, where nothing is said. -/
def defaultLanguage : String := "rust"

/-- The line limit, where nothing is said. -/
def defaultMaxLines : Int := 500

/-- The stall limit, where nothing is said. -/
def defaultStallLimit : Int := 100

/-- The value of an integer that may be absent. -/
def ofInt? : Option Int → Value
  | none => .none
  | some n => .int n

/-- The settings of an environment. -/
def defaults (environment : Environment) (inputDirectory outputDirectory : Path) : Settings where
  inputDirectory := inputDirectory
  outputDirectory := outputDirectory
  mode := .int 0
  count := .int 0
  language := .text (environment.get "SPANMUT_LANGUAGE" defaultLanguage)
  maxLines := ofInt? (environment.int "SPANMUT_MAX_LINES" (some defaultMaxLines))
  stallLimit := ofInt? (environment.int "SPANMUT_STALL_LIMIT" (some defaultStallLimit))
  seed := ofInt? (environment.int "SPANMUT_SEED" none)
  ignorePatterns := .list []

/-! ## Checks of single values -/

/-- The mode that a number selects; a truth value is no number here. -/
def checkMode (given : Value) : Except Failure Mode :=
  let number? : Option Int :=
    match given with
    | .int n => some n
    | .real x => x.toInt?
    | _ => none
  match number?.bind Mode.ofNumber? with
  | some mode => .ok mode
  | none => .error (.invalidMode given)

/-- The number of mutants that a mode can be asked for. -/
def checkCount (mode : Mode) (given : Value) : Except Failure Nat :=
  match given with
  | .int n =>
    if n < 0 then .error (.mutationCount given .negative)
    else if n = 0 ∧ mode.usesSharedCorpus then .error (.mutationCount given (.zeroInMode mode))
    else .ok n.toNat
  | _ => .error (.mutationCount given .notInteger)

/-- A number of lines, which must be positive. -/
def checkMaxLines (given : Value) : Except Failure Nat :=
  match given with
  | .int n => if n ≤ 0 then .error (.lineLimit (.notPositive n)) else .ok n.toNat
  | v => .error (.lineLimit (.notInteger v.sortName))

/-- A limit on draws, which must not be negative.  One that is no finite number limits nothing. -/
def checkStallLimit (given : Value) : Except Failure StallLimit :=
  match given with
  | .none => .error (.stallLimit given)
  | .bool b => .ok (some (if b then 1 else 0))
  | .int n => if n < 0 then .error (.stallLimit given) else .ok (some n)
  | .real x => if x.isNegative then .error (.stallLimit given) else .ok x.truncate?
  | v => .error (.notComparable v.sortName)

/-- Ignore patterns; a value that says nothing stands for none. -/
def checkIgnorePatterns (given : Value) : Except Failure (List String) :=
  if given.isSet then ScanRules.checkPatterns given else .ok []

/-- Refuses a path without a directory. -/
def checkInputDirectory (tree : FileTree) (path : Path) : Except Failure Unit :=
  match tree.isDirectory path with
  | .ok true => .ok ()
  | .ok false => .error (.inputDirectory path.text)
  | .error fault => .error (.file fault)

/-! ## The whole check -/

/-- The plan of settings that pass all checks. -/
def check (settings : Settings) (tree : FileTree) : Except Failure Plan := do
  let mode ← checkMode settings.mode
  let count ← checkCount mode settings.count
  let language ← Grammars.checkLanguage settings.language
  let maxLines ← checkMaxLines settings.maxLines
  let stallLimit ← checkStallLimit settings.stallLimit
  let ignorePatterns ← checkIgnorePatterns settings.ignorePatterns
  checkInputDirectory tree settings.inputDirectory
  return {
    inputDirectory := settings.inputDirectory
    outputDirectory := settings.outputDirectory
    mode, count, language, maxLines, stallLimit, ignorePatterns
    stallText := settings.stallLimit.shown }

/-! ## Export -/

/-- A value as an integer: numbers lose their fraction, and a text is read. -/
def asInteger (given : Value) : Except Failure Int :=
  match given with
  | .int n => .ok n
  | .bool b => .ok (if b then 1 else 0)
  | .real x =>
    match x with
    | .nan => .error .nanToInteger
    | .infinite _ => .error .infinityToInteger
    | .finite _ _ _ => .ok (x.truncate?.getD 0)
  | .text s => (Numeral.read s).mapError (.numeral s)
  | v => .error (.notNumeric v.sortName)

/-- The settings by name, in a fixed order, with the mode as an integer. -/
def toFields (settings : Settings) : Except Failure (List (String × Value)) := do
  let mode ← asInteger settings.mode
  let patterns ← ScanRules.itemsOf settings.ignorePatterns
  return [
    ("input_dir", .text settings.inputDirectory.text),
    ("output_dir", .text settings.outputDirectory.text),
    ("mode", .int mode),
    ("count", settings.count),
    ("language", settings.language),
    ("max_lines", settings.maxLines),
    ("stall_limit", settings.stallLimit),
    ("seed", settings.seed),
    ("ignore_patterns", .list patterns)]

end Settings

end SourceMutation
