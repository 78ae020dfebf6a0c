import SourceMutation.Command.Bar
import SourceMutation.Corpus
import SourceMutation.Failure
import SourceMutation.Files.Path
import SourceMutation.Harvest
import SourceMutation.Mutant
import SourceMutation.Report
import SourceMutation.Text.ControlSequence
import SourceMutation.Text.Markup
import SourceMutation.Text.Table

/-!
# What commands show

Spans, corpora, summaries and failures, each for people to read and as JSON.

Most of it is plain lines.  Tables, failures and the preamble of a run are laid out for a display
instead, which takes the title of a table for marked text and puts pictographs in the place of their
names.
-/

namespace SourceMutation.Display

/-- Lines, each with its end. -/
def unlines (lines : List String) : String := String.join (lines.map (· ++ "\n"))

/-- Plain lines, each with its end. -/
def plain (lines : List String) : String := unlines (lines.map ControlSequence.strip)

/-- The width of the display. -/
def width : Nat := 200

/-- A text laid out for the display. -/
def laidOut (text : String) : String := unlines (Paragraph.lines width .fold text)

/-- A table under a title that is marked text. -/
def tabled (table : Table) : Except Failure String :=
  match Markup.plain table.title with
  | .ok title => .ok (unlines ({ table with title }.lines width))
  | .error fault => .error (.markup fault)

/-! ## Failures -/

/-- A failure for people. -/
def failureText (failure : Failure) : String :=
  let message := failure.message
  laidOut ("Error: " ++ (Markup.plain (Markup.escape message)).toOption.getD message)

/-- A failure as JSON. -/
def failureJson (failure : Failure) : Value :=
  .dict [
    ("status", .text "error"),
    ("error", .text failure.category.name),
    ("message", .text failure.message)]

/-! ## Spans -/

/-- A point as JSON. -/
def pointJson (point : Point) : Value := .list [.int point.row, .int point.column]

/-- A span and its text as JSON. -/
def spanJson (span : Span) (text : String) : Value :=
  .dict [
    ("kind", .text span.kind),
    ("start_byte", .int span.startByte),
    ("end_byte", .int span.endByte),
    ("start_point", pointJson span.startPoint),
    ("end_point", pointJson span.endPoint),
    ("text", .text text)]

/-- The spans of a harvest with their texts, in order; a text that cannot be read is a failure. -/
def spanTexts (harvest : Harvest) : Except Failure (List (Span × String)) :=
  harvest.spans.mapM fun span => (span, ·) <$> harvest.textOf span

/-- A text on one line, cut short if it is long. -/
def brief (text : String) : String :=
  let cs := text.toList.flatMap fun c => if c = '\n' then ['\\', 'n'] else [c]
  if 60 < cs.length then String.ofList (cs.take 57 ++ ['.', '.', '.']) else String.ofList cs

/-- Rows of spans, numbered from `number`. -/
def spanRows : (number : Nat) → List (Span × String) → List (List String)
  | _, [] => []
  | number, (span, text) :: rest =>
    [toString number, span.location, span.kind, brief text] :: spanRows (number + 1) rest

/-- The spans of a file for people. -/
def spanTable (file : Path) (spans : List (Span × String)) : Table where
  title := s!"Spans of {file.name}"
  columns := [⟨"#", true⟩, ⟨"Location", false⟩, ⟨"Kind", false⟩, ⟨"Text", false⟩]
  rows := spanRows 1 spans

/-- The spans of a file, for people or as JSON. -/
def spans (file : Path) (json : Bool) (spans : List (Span × String)) : Except Failure String :=
  if json then .ok (plain [(Value.list (spans.map fun (span, text) => spanJson span text)).json])
  else (· ++ plain [s!"{spans.length} spans"]) <$> tabled (spanTable file spans)

/-! ## Corpora -/

/-- A corpus as JSON. -/
def corpusJson (corpus : Corpus) : Value :=
  .dict (corpus.toLedger.entries.map fun (kind, candidates) => (kind, .texts candidates))

/-- The kinds of a corpus, those with the most candidates first. -/
def kindsBySize (corpus : Corpus) : List String :=
  corpus.kinds.mergeSort fun a b =>
    decide ((corpus.candidates b).length ≤ (corpus.candidates a).length)

/-- A corpus for people. -/
def corpusTable (directory : Path) (corpus : Corpus) : Table where
  title := s!"Corpus of {directory.text}"
  columns := [⟨"Kind", false⟩, ⟨"Snippets", true⟩]
  rows := (kindsBySize corpus).map fun kind =>
    [kind, toString ((corpus.candidates kind).length - 1)]

/-- A corpus, for people or as JSON. -/
def corpus (directory : Path) (json : Bool) (corpus : Corpus) : Except Failure String :=
  if json then .ok (plain [(corpusJson corpus).json])
  else
    (· ++ plain [s!"{corpus.size} kinds, {corpus.snippetCount} snippets"])
      <$> tabled (corpusTable directory corpus)

/-! ## Runs -/

/-- What is shown before a run that writes into the working directory. -/
def preamble (directory : Path) : String :=
  let text := s!"No output directory provided, using current directory: {directory.text}"
  laidOut (String.ofList (Emoji.replace text.toList))

/-- What is shown during a run: each mutant that is accepted. -/
def progress (mutants : List Mutant) : String := plain (mutants.map Mutant.describe)

/-- What is shown of bars that a run left, with a time. -/
def bars (time : Value) (bars : List (Nat × Nat)) : String :=
  unlines (bars.map fun (done, total) => Bar.text time done total)

@[simp] theorem bars_nil (time : Value) : bars time [] = "" := rfl

/-- What became of a source, in one line. -/
def sourceLine (report : SourceReport) : String :=
  let name := (Path.ofText report.path).name
  let reason := (Value.ofText? report.skipReason).shown
  if report.skipped then s!"Skipped {name}: {reason}"
  else s!"Number of generated files of {name}: {report.mutantCount}"

/-- What became of a run, for people or as JSON with the time it took. -/
def summary (json : Bool) (duration : Value) (summary : Summary) : String :=
  if json then plain [(summary.toValue duration).json]
  else
    plain (summary.sources.map sourceLine
      ++ [s!"Total: {summary.totalMutants} mutants from {summary.processedSources} files"])

end SourceMutation.Display
