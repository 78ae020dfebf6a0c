import SourceMutation.Environment
import SourceMutation.Failure
import SourceMutation.Files.Operations

/-!
# Log sinks

Where log lines go.  Setting the log up removes all sinks and adds new ones: the console, unless
it is suppressed, and a file, if file logging is asked for.  What a caller leaves open is taken
from the environment.

The log counts as set up from the moment a set-up starts; later set-ups do nothing unless they are
forced.
-/

namespace SourceMutation

/-- A place that log lines go to, from a level on. -/
inductive Sink where
  | console (level : Int)
  | file (level : Int)
  deriving DecidableEq, Repr

/-- Whether the log was set up, and its sinks in order. -/
structure LogState where
  configured : Bool
  sinks : List Sink
  deriving DecidableEq, Repr, Inhabited

/-- What a set-up is asked for. -/
structure LogRequest where
  /-- The level of the console: a name or a number. -/
  level : Value := .text "INFO"
  /-- Whether the console is left out; open if nothing is said. -/
  suppressConsole : Option Bool := none
  /-- Whether a file is kept; open if nothing is said. -/
  enableFile : Option Bool := none
  /-- Whether to set the log up again. -/
  force : Bool := false
  /-- The time of the set-up, as it is written in the name of a file. -/
  time : String := ""
  deriving Inhabited

namespace LogState

/-- Before any set-up. -/
def initial : LogState := ⟨false, []⟩

/-! ## Levels -/

/-- The levels that have names. -/
def levels : List (String × Int) :=
  [("TRACE", 5), ("DEBUG", 10), ("INFO", 20), ("SUCCESS", 25), ("WARNING", 30), ("ERROR", 40),
    ("CRITICAL", 50)]

/-- The number of a level; numbers stand for themselves. -/
def levelNumber : Value → Except Failure Int
  | .text name =>
    match List.lookup name levels with
    | some n => .ok n
    | none => .error (.unknownLevel name)
  | .int n => if n < 0 then .error (.negativeLevel n) else .ok n
  | .bool b => .ok (if b then 1 else 0)
  | v => .error (.levelSort v.sortName)

/-- The level of the file, whatever the console's is. -/
def fileLevel : Int := 20

/-- The name of the log file in its directory. -/
def fileName : String := "spanmut.log"

/-! ## Setting up -/

/-- Adds the console, unless it is suppressed. -/
def addConsole (suppressed : Bool) (level : Value) (state : LogState) :
    Except Failure Unit × LogState :=
  if suppressed then (.ok (), state)
  else
    match levelNumber level with
    | .ok n => (.ok (), { state with sinks := state.sinks ++ [.console n] })
    | .error failure => (.error failure, state)

/-- Where the log file of a directory is.  Its path is a template, in which `time` can be asked for,
and is then followed as it is written. -/
def filePath (directory : Path) (time : String) (tree : FileTree) : Except Failure Path :=
  match Template.fill [("time", time)] (directory.below [fileName]).text with
  | .ok text => .ok (tree.absolute (Path.ofText text))
  | .error fault => .error (.template fault)

/-- Opens a log file, which is made empty if it is not there, in a directory that is made too. -/
def openFile (path : Path) (tree : FileTree) : Except FileFault Unit × FileTree :=
  match tree.buildDirectories ⟨path.anchor, path.parts.dropLast⟩ with
  | (.error fault, tree) => (.error fault, tree)
  | (.ok (), tree) =>
    match tree.ensureFile path with
    | .error fault => (.error fault, tree)
    | .ok tree => (.ok (), tree)

/-- Adds the file, and makes its directory. -/
def addFile (directory : Path) (time : String) (state : LogState) (tree : FileTree) :
    Except Failure Unit × LogState × FileTree :=
  match tree.ensureDirectories directory with
  | (.error fault, tree) => (.error (.file fault), state, tree)
  | (.ok (), tree) =>
    match filePath directory time tree with
    | .error failure => (.error failure, state, tree)
    | .ok path =>
      match openFile path tree with
      | (.error fault, tree) => (.error (.file fault), state, tree)
      | (.ok (), tree) =>
        (.ok (), { state with sinks := state.sinks ++ [.file fileLevel] }, tree)

/-- Sets the log up. -/
def setUp (environment : Environment) (request : LogRequest) (state : LogState) (tree : FileTree) :
    Except Failure Unit × LogState × FileTree :=
  if state.configured && !request.force then (.ok (), state, tree)
  else
    let suppressed := request.suppressConsole.getD (environment.flag "SPANMUT_MACHINE_MODE")
    match addConsole suppressed request.level ⟨true, []⟩ with
    | (.error failure, state) => (.error failure, state, tree)
    | (.ok (), state) =>
      if request.enableFile.getD (environment.flag "SPANMUT_FILE_LOGGING") then
        let directory := environment.get "SPANMUT_LOG_DIR" ".spanmut/logs"
        addFile (Path.ofText directory) request.time state tree
      else (.ok (), state, tree)

end LogState

end SourceMutation
