/-!
# Spans

A span is one node of a syntax tree, cut out of its source: the node's kind, the bytes it covers,
and where it stands in rows and columns.  Offsets count bytes of the source; points are for people
to read.
-/

namespace SourceMutation

/-- A place in a source. -/
structure Point where
  row : Int
  column : Int
  deriving DecidableEq, Repr, Inhabited

/-- A point as it is shown. -/
def Point.text (p : Point) : String := s!"({p.row}, {p.column})"

/-- A node of a syntax tree, cut out of its source. -/
structure Span where
  /-- The node's kind. -/
  kind : String
  /-- The offset of the first byte. -/
  startByte : Int
  /-- The offset after the last byte. -/
  endByte : Int
  /-- Where the span starts. -/
  startPoint : Point
  /-- Where the span ends. -/
  endPoint : Point
  deriving DecidableEq, Repr, Inhabited

namespace Span

/-- How many bytes a span covers. -/
def length (span : Span) : Int := span.endByte - span.startByte

/-- Both points of a span, as they are shown. -/
def location (span : Span) : String := span.startPoint.text ++ "-" ++ span.endPoint.text

/-- Whether a span lies within a buffer of `size` bytes. -/
def Fits (span : Span) (size : Nat) : Prop :=
  0 ≤ span.startByte ∧ span.startByte ≤ span.endByte ∧ span.endByte ≤ size

instance (span : Span) (size : Nat) : Decidable (span.Fits size) :=
  inferInstanceAs (Decidable (_ ∧ _ ∧ _))

end Span

end SourceMutation
