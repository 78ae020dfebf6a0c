import SourceMutation.Value.Json

/-!
# Reports

What a run tells about each source it met, and about all of them.
-/

namespace SourceMutation

/-- What became of one source. -/
structure SourceReport where
  /-- Where the source was read. -/
  path : String
  /-- How many spans it has. -/
  spanCount : Int := 0
  /-- How many mutants were made of it. -/
  mutantCount : Int := 0
  /-- Where they were written, in order. -/
  written : List String := []
  /-- Whether the source was passed over. -/
  skipped : Bool := false
  /-- Why it was passed over. -/
  skipReason : Option String := none
  deriving DecidableEq, Repr, Inhabited

/-- What became of a run. -/
structure Summary where
  /-- The number of the mode. -/
  mode : Int
  /-- The count that was asked for. -/
  count : Int
  language : String
  outputDirectory : String
  /-- A report of each source, in the order in which they were met. -/
  sources : List SourceReport := []
  /-- How many kinds the corpus of all sources has. -/
  corpusKinds : Int := 0
  /-- How many texts it has. -/
  corpusSnippets : Int := 0
  deriving DecidableEq, Repr, Inhabited

namespace Summary

/-- How many mutants were made of all sources. -/
def totalMutants (summary : Summary) : Int :=
  (summary.sources.map (·.mutantCount)).foldr (· + ·) 0

/-- How many sources were not passed over. -/
def processedSources (summary : Summary) : Nat :=
  summary.sources.countP fun report => !report.skipped

end Summary

/-! ## Export -/

/-- A text that may be absent. -/
def Value.ofText? (text? : Option String) : Value :=
  match text? with
  | .none => .none
  | .some s => .text s

/-- A report by field, in a fixed order. -/
def SourceReport.toValue (report : SourceReport) : Value :=
  .dict [
    ("path", .text report.path),
    ("span_count", .int report.spanCount),
    ("mutant_count", .int report.mutantCount),
    ("written", .texts report.written),
    ("skipped", .bool report.skipped),
    ("skip_reason", .ofText? report.skipReason)]

/-- A summary by field, in a fixed order, with the time that the run took. -/
def Summary.toValue (duration : Value) (summary : Summary) : Value :=
  .dict [
    ("mode", .int summary.mode),
    ("count", .int summary.count),
    ("language", .text summary.language),
    ("output_dir", .text summary.outputDirectory),
    ("files", .list (summary.sources.map SourceReport.toValue)),
    ("corpus_kinds", .int summary.corpusKinds),
    ("corpus_snippets", .int summary.corpusSnippets),
    ("duration", duration),
    ("total_mutants", .int summary.totalMutants),
    ("processed_files", .int summary.processedSources)]

end SourceMutation
