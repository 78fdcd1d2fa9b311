import TextSearch.Posting.Basic

/-!
# Spans

A span is a stretch of token positions in a document, from its start up to and
without its end, together with the payloads of the occurrences it is made of.
Spans are ordered by start, then by end, then by payloads.
-/

namespace TextSearch

/-- A stretch of token positions. -/
structure Span where
  /-- The first position. -/
  start : UInt32
  /-- The position after the last one. -/
  stop : UInt32
  /-- The payloads, empty ones left out, of the occurrences that make up the span. -/
  payloads : List Payload
  deriving DecidableEq, Repr, Inhabited

namespace Span

/-- The span of a single occurrence. -/
def ofOccurrence (o : Occurrence) : Span :=
  { start := o.position
    stop := o.position + 1
    payloads := o.payload.toList.filter fun p => !p.isEmpty }

/-- The number of positions; zero when the end does not come after the start. -/
def length (s : Span) : UInt32 := if s.start < s.stop then s.stop - s.start else 0

/-- Whether two spans share a position. -/
def overlaps (s t : Span) : Bool := decide (s.start < t.stop) && decide (t.start < s.stop)

/-- Whether no occurrence of the span carries a payload. -/
def hasEmptyPayload (s : Span) : Bool := s.payloads.isEmpty

/-- The order of spans: by start, then by end, then by payloads. -/
def rank (s t : Span) : Ordering :=
  (compare s.start t.start).then ((compare s.stop t.stop).then (compare s.payloads t.payloads))

/-- Whether a span comes no later than another. -/
def le (s t : Span) : Bool := (s.rank t).isLE

/-- Spans in order, as many times each as they were given. -/
def sorted (ss : List Span) : List Span := ss.mergeSort Span.le

/-- Spans in order, each once. -/
def distinct (ss : List Span) : List Span :=
  (sorted ss).foldr (fun s rest => if rest.head? = some s then rest else s :: rest) []

end Span

end TextSearch
