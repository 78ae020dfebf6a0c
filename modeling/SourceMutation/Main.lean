import SourceMutation.Command.Perform

/-!
# The command line

The outer layer.  Standard input names the files and directories that a command may see, one to a
line, as a directory listing does.  They are read into a file tree, the command is performed on the
tree, and what it changed is written back.  The log goes to standard error.

No grammar is built in, so that sources are refused as soon as one has to be parsed.
-/

namespace SourceMutation.CommandLine

/-- The names of the environment that count. -/
def variableNames : List String :=
  ["SPANMUT_LANGUAGE", "SPANMUT_MAX_LINES", "SPANMUT_STALL_LIMIT", "SPANMUT_SEED",
    "SPANMUT_MACHINE_MODE", "SPANMUT_FILE_LOGGING", "SPANMUT_LOG_DIR"]

/-- The environment of the process. -/
def readEnvironment : IO Environment := do
  let entries ← variableNames.filterMapM fun name => do
    return (← IO.getEnv name).map fun text => (name, text)
  return .ofList entries

/-- The lines of an input up to its end. -/
partial def readLines (input : IO.FS.Stream) (lines : List String) : IO (List String) := do
  let line ← input.getLine
  if line.isEmpty then return lines.reverse
  else readLines input (String.ofList (dropBlankEnd line.toList) :: lines)

/-- Puts an entry in a tree, with the directories above it. -/
def place (tree : FileTree) (location : Location) (entry : Entry) : FileTree :=
  let above := (List.range location.length).map location.take
  let tree := above.foldl (fun tree location => tree.put location .directory) tree
  if location.isEmpty then tree else tree.put location entry

/-- Adds what stands under a name on disk: a file that can be read, or else a directory. -/
def addName (tree : FileTree) (name : String) : IO FileTree := do
  let path := Path.ofText name
  let location := FileTree.startOf path.anchor tree.workDirectory ++ path.parts
  let bytes? ← (IO.FS.readBinFile name).toBaseIO
  let entry :=
    match bytes? with
    | .ok bytes => Entry.file bytes.toList
    | .error _ => .directory
  return place tree location entry

/-- Writes a changed entry to disk. -/
def store (change : Location × Entry) : IO Unit := do
  let name := "/" ++ "/".intercalate change.1
  match change.2 with
  | .file bytes => IO.FS.writeBinFile name (ByteArray.mk bytes.toArray)
  | .directory => IO.FS.createDirAll name
  | .link _ => return ()

/-- The grammars that are built in: none. -/
def tools : Toolchain where
  installed := fun _ => false
  parse := fun _ _ => .nothing
  patience := 1000000000

/-- The number of a line's level. -/
def levelOf (line : LogLine) : Int :=
  match line.level with
  | .debug => 10
  | .info => 20
  | .error => 40

/-- Whether a line goes to the console. -/
def isShown (log : LogState) (line : LogLine) : Bool :=
  log.sinks.any fun
    | .console level => decide (level ≤ levelOf line)
    | .file _ => false

/-- Performs a command line on the files that standard input names. -/
def run (arguments : List String) : IO UInt32 := do
  let environment ← readEnvironment
  let work := (Path.ofText ((← IO.getEnv "PWD").getD "/")).parts
  let start := place ⟨work, .empty⟩ work .directory
  let before ← (← readLines (← IO.getStdin) []).foldlM addName start
  let (_, log, prepared) := LogState.setUp environment {} .initial before
  let seed ← IO.rand 0 4294967295
  let world := World.fresh prepared (Twister.ofSeed seed) .empty
  let (outcome, log, world) := performLine ⟨tools, environment, .int 0⟩ arguments log world
  (before.changesFrom world.tree).forM store
  let errors ← IO.getStderr
  for line in world.lines do
    if isShown log line then
      let shown := line.message.render "0s"
      errors.putStrLn s!"{line.level.name} | {shown}"
  if let some fault := outcome.usage then errors.putStrLn fault.message
  if let some (.failed failure) := outcome.uncaught then
    errors.putStrLn s!"{failure.category.name}: {failure.message}"
  (← IO.getStdout).putStr outcome.output
  return outcome.exitCode.toUInt32

end SourceMutation.CommandLine

/-- Performs the command line that the program is started with. -/
def main (arguments : List String) : IO UInt32 := SourceMutation.CommandLine.run arguments
