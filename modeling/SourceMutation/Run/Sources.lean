import SourceMutation.Run.World
import SourceMutation.Scan.Walk
import SourceMutation.Text.Lines

/-!
# Sources of a run

Finding sources, reading them as text, and harvesting them.  A source that cannot be read, or that
is no text, is one failure; one that cannot be parsed is another.
-/

namespace SourceMutation.Run

variable {σ : Type}

/-! ## Reading -/

/-- The text of the source at a path. -/
def readSource (path : Path) : Run σ String := do
  match (← tree).read path with
  | .error fault => fail (.ofFault (.sourceRead path.text) fault)
  | .ok bytes =>
    match Utf8.decode bytes with
    | .error fault => fail (.sourceRead path.text fault.message)
    | .ok text =>
      record (.read path bytes)
      return text

/-! ## Harvesting -/

/-- Harvests bytes as a source of a given language. -/
def harvest (tools : Toolchain) (bytes : Bytes) (given : Value) (path : Option String) :
    Run σ Harvest := do
  loadParser tools given
  let language ← ofExcept (Grammars.checkLanguage given)
  let parse := tools.parse language bytes
  let harvest ← ofExcept (Harvest.ofParse bytes language.name path parse)
  if parse.hasNodes then
    log (.debug s!"Harvested {harvest.spans.length} spans from {harvest.label}")
  return harvest

/-- Harvests a text that was read at a path. -/
def harvestText (tools : Toolchain) (text : String) (language : Language) (path : Path) :
    Run σ Harvest :=
  harvest tools (Utf8.encode text) (.text language.name) (some path.text)

/-- A file's language: the one given, or else that of the file's suffix. -/
def languageOf (path : Path) (given : Value) : Except Failure Value :=
  match given with
  | .none => (fun language => .text language.name) <$> Grammars.checkSuffix (.text path.suffix)
  | v => .ok v

/-- Reads and harvests one file. -/
def harvestFile (tools : Toolchain) (path : Path) (given : Value) : Run σ Harvest := do
  let language ← ofExcept (languageOf path given)
  let text ← readSource path
  harvest tools (Utf8.encode text) language (some path.text)

/-! ## Scanning -/

/-- The line that a visit leaves in the log, if it leaves one. -/
def visitLine? : Visit → Option LogLine
  | .ignoredDirectory names =>
    some (.debug s!"Ignoring directory '{(Path.here.below names).text}' due to ignore rules.")
  | .ignoredFile names =>
    some (.debug s!"Ignoring '{(Path.here.below names).text}' due to ignore rules")
  | .file _ => none

/-- The rules of a scan, from given suffixes and ignore patterns. -/
def scanRules (suffixes patterns : Value) : Run σ ScanRules := do
  let rules ← ofExcept (ScanRules.ofValues suffixes patterns)
  if patterns.isSet then
    log (.debug s!"Initialized scanner with {rules.ignore.length} ignore patterns.")
  return rules

/-- What a scan of a directory meets.  Only a path that cannot be asked for is a failure. -/
def visits (directory : Path) (rules : ScanRules) : Run σ (List Visit) := do
  if FileTree.unaskable? directory = some .nullCharacter then
    fail (.file ⟨.nullCharacter, directory.text, none⟩)
  return (← tree).visits directory rules

/-- The files below a directory that a scan is after. -/
def scan (directory : Path) (suffixes patterns : Value) : Run σ (List Path) := do
  let rules ← scanRules suffixes patterns
  let visits ← visits directory rules
  logAll (visits.filterMap visitLine?)
  return visits.filterMap fun visit => visit.file?.map directory.below

end SourceMutation.Run
