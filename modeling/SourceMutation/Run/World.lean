import SourceMutation.Files.Operations
import SourceMutation.Grammar
import SourceMutation.Log.Line
import SourceMutation.Strategy.Draft

/-!
# The world of a run

What a run may change, and what it tells about itself on the way.  A run reads and writes files,
draws numbers, and loads grammars; it logs lines, hands over each mutant it accepts, and each of
these is an event.

`Run σ` is a computation over such a world, with a source of numbers of type `σ`.  When it stops
early, the world stays as it was at that moment: what was written stays written.
-/

namespace SourceMutation

/-- Something that a run does, as seen from outside. -/
inductive Event where
  /-- A line was logged. -/
  | logged (line : LogLine)
  /-- A source was read. -/
  | read (path : Path) (bytes : Bytes)
  /-- A mutant of a source was accepted. -/
  | accepted (source : Path) (mutant : Mutant)
  /-- A file was written. -/
  | wrote (path : Path) (bytes : Bytes)
  /-- A bar over the sources was left, with so many of them behind it. -/
  | tracked (done total : Nat)
  deriving DecidableEq

namespace Event

/-- The line of an event that logs one. -/
def line? : Event → Option LogLine
  | .logged line => some line
  | _ => none

/-- The source and the mutant of an event that hands one over. -/
def accepted? : Event → Option (Path × Mutant)
  | .accepted source mutant => some (source, mutant)
  | _ => none

/-- The path and the bytes of an event that writes a file. -/
def written? : Event → Option (Path × Bytes)
  | .wrote path bytes => some (path, bytes)
  | _ => none

/-- How far a bar got, and how far it was to get, of an event that leaves one. -/
def bar? : Event → Option (Nat × Nat)
  | .tracked done total => some (done, total)
  | _ => none

end Event

/-- What a run may change, and what it did. -/
structure World (σ : Type) where
  /-- The files. -/
  tree : FileTree
  /-- The source of numbers. -/
  chance : σ
  /-- The grammars that are loaded. -/
  grammars : Grammars
  /-- The events so far, the latest first. -/
  history : List Event

namespace World

variable {σ : Type}

/-- A world before its first event. -/
def fresh (tree : FileTree) (chance : σ) (grammars : Grammars) : World σ :=
  ⟨tree, chance, grammars, []⟩

/-- The events so far, in order. -/
def events (world : World σ) : List Event := world.history.reverse

/-- The lines logged so far. -/
def lines (world : World σ) : List LogLine := world.events.filterMap Event.line?

/-- The mutants accepted so far, each with its source. -/
def acceptances (world : World σ) : List (Path × Mutant) := world.events.filterMap Event.accepted?

/-- The files written so far, with their bytes. -/
def writings (world : World σ) : List (Path × Bytes) := world.events.filterMap Event.written?

/-- The bars left so far, each by how far it got and how far it was to get. -/
def bars (world : World σ) : List (Nat × Nat) := world.events.filterMap Event.bar?

end World

/-- What a run needs from outside: the grammars that are installed, and their parsers. -/
structure Toolchain where
  /-- Whether a language's grammar can be loaded. -/
  installed : Language → Bool
  /-- What a language's parser makes of a source. -/
  parse : Language → Bytes → Parse
  /-- How many draws a pass may make in all. -/
  patience : Nat

/-- A computation over a world; the world is kept when it stops. -/
abbrev Run (σ : Type) := ExceptT Stop (StateM (World σ))

namespace Run

variable {σ α : Type}

/-! ## Events and stops -/

/-- Adds an event. -/
def record (event : Event) : Run σ Unit :=
  modify fun world => { world with history := event :: world.history }

/-- Logs a line. -/
def log (line : LogLine) : Run σ Unit := record (.logged line)

/-- Logs lines. -/
def logAll : List LogLine → Run σ Unit
  | [] => return ()
  | line :: rest => do
    log line
    logAll rest

/-- Stops with a failure. -/
def fail (failure : Failure) : Run σ α := throw (.failed failure)

/-- Goes on with a result, or stops with its failure. -/
def ofExcept : Except Failure α → Run σ α
  | .ok a => pure a
  | .error failure => fail failure

/-- Logs how a traced step failed. -/
def logStop (step : String) : Stop → Run σ Unit
  | .failed failure => log (.aborted step failure)
  | .unfinished => return ()

/-- Logs a failure of the program's own. -/
def logFailure : Stop → Run σ Unit
  | .failed failure =>
    if failure.category.isApplication then log (.error failure.message) else return ()
  | .unfinished => return ()

/-- Logs a step's start and its end. -/
def traced (step : String) (body : Run σ α) : Run σ α := do
  log (.entered step)
  let a ← tryCatch body fun stop => do
    logStop step stop
    throw stop
  log (.completed step)
  return a

/-! ## Parts of the world -/

/-- The files as they are now. -/
def tree : Run σ FileTree := do return (← get).tree

/-- Puts files in the place of those before. -/
def setTree (tree : FileTree) : Run σ Unit := modify fun world => { world with tree }

/-- Puts a source of numbers in the place of the one before. -/
def setChance (chance : σ) : Run σ Unit := modify fun world => { world with chance }

/-- Makes a pass with the numbers of the world. -/
def draft (pass : Pass σ) : Run σ Draft := do
  let (draft, chance) := pass (← get).chance
  setChance chance
  return draft

/-- Loads the parser of a given language. -/
def loadParser (tools : Toolchain) (given : Value) : Run σ Unit := do
  let loaded := Grammars.askParser tools.installed given (← get).grammars
  modify fun world => { world with grammars := loaded.kept }
  logAll loaded.log
  match loaded.answer with
  | .ok _ => return ()
  | .error failure => fail failure

end Run

end SourceMutation
