import SourceMutation.Failure
import SourceMutation.Tree.Cursor

/-!
# Harvests

A source buffer together with the spans that were cut out of it.  Offsets only make sense against
the buffer they were taken from, so reading a span's text and replacing it both go through the
pair.

A harvest of a parsed source records every node below the root, in pre-order, except

- comments and single structural tokens, which carry nothing worth mutating, and
- nodes that end past the number of characters of the source, which happens where characters of
  several bytes stand before them.

Nodes below such a node are still recorded.
-/

namespace SourceMutation

/-- A source buffer and the spans cut out of it. -/
structure Harvest where
  /-- The bytes of the source. -/
  bytes : Bytes
  /-- The spans, in order. -/
  spans : List Span
  /-- Where the source was read, if anywhere. -/
  path : Option String
  /-- The name of the source's language. -/
  language : String
  deriving Inhabited

namespace Harvest

/-! ## Reading and replacing spans -/

/-- A source's name in messages: its path, or a stand-in for a source that has none. -/
def labelOf : Option String → String
  | none => "<memory>"
  | some path => if path.isEmpty then "<memory>" else path

/-- The harvest's name in messages. -/
def label (harvest : Harvest) : String := labelOf harvest.path

/-- The source as a text. -/
def text (harvest : Harvest) : Except Failure String :=
  (Utf8.decode harvest.bytes).mapError .decoding

/-- Refuses a span that does not lie within the buffer. -/
def check (harvest : Harvest) (span : Span) : Except Failure Unit :=
  if span.Fits harvest.bytes.length then .ok ()
  else
    .error (.spanOwnership span.kind span.startByte span.endByte harvest.label
      harvest.bytes.length)

/-- The bytes before a span. -/
def before (harvest : Harvest) (span : Span) : Bytes :=
  harvest.bytes.take span.startByte.toNat

/-- The bytes of a span. -/
def covered (harvest : Harvest) (span : Span) : Bytes :=
  (harvest.bytes.take span.endByte.toNat).drop span.startByte.toNat

/-- The bytes after a span. -/
def after (harvest : Harvest) (span : Span) : Bytes :=
  harvest.bytes.drop span.endByte.toNat

/-- The text that a span covers. -/
def textOf (harvest : Harvest) (span : Span) : Except Failure String := do
  harvest.check span
  (Utf8.decode (harvest.covered span)).mapError .decoding

/-- The buffer with a span's bytes replaced by a text, and every other byte as it was. -/
def spliced (harvest : Harvest) (span : Span) (replacement : String) : Bytes :=
  harvest.before span ++ Utf8.encode replacement ++ harvest.after span

/-- The source with a span's text replaced, as a text. -/
def substitute (harvest : Harvest) (span : Span) (replacement : String) :
    Except Failure String := do
  harvest.check span
  (Utf8.decode (harvest.spliced span replacement)).mapError .decoding

/-! ## Harvesting a syntax tree -/

/-- The kinds of node that are walked through and never recorded. -/
def excludedKinds : List String :=
  ["block_comment", "line_comment", "comment", "\x7b", "\x7d", "(", ")", "<", ">", "[", "]", "=",
    "//", "/*", "*/"]

/-- A node's span, unless it is excluded or ends past the number of characters. -/
def record (characters : Nat) (span : Span) : Option Span :=
  if excludedKinds.contains span.kind then none
  else if (characters : Int) < span.endByte then none
  else some span

/--
The harvest of a source from what its parser answers.  A source without a tree is refused before
its text is looked at.
-/
def ofParse (bytes : Bytes) (language : String) (path : Option String) (parse : Parse) :
    Except Failure Harvest :=
  match parse with
  | .refused reason => .error (.parser (labelOf path) reason)
  | .nothing => .error (.parser (labelOf path) "parser returned no tree")
  | .tree root => do
    let text ← (Utf8.decode bytes).mapError .decoding
    return ⟨bytes, Cursor.visit (record text.length) root, path, language⟩

end Harvest

end SourceMutation
