import TextSearch.Query.Basic
import TextSearch.Span.Cursor

/-!
# Span weights

A span weight is a span query bound to a snapshot: its terms are looked up, and
it opens a cursor over its spans in any segment. Where a term is missing there
is nothing to open: a union leaves it out, and a proximity has no spans at all.
-/

namespace TextSearch

/-- A span query bound to a snapshot. Every node keeps the query that it comes from. -/
inductive SpanWeight where
  /-- The places of a term, where it occurs often enough. -/
  | term (query : Query) (term : Term) (lookup : TermLookup) (least : Option Threshold)
  /-- The places of any operand. -/
  | union (query : Query) (field : String) (subs : List SpanWeight)
  /-- The places where the operands come near each other. -/
  | near (query : Query) (field : String) (subs : List SpanWeight) (slop : UInt32)
    (inOrder : Bool)
  /-- The places that a filter keeps. -/
  | filtered (query : Query) (inner : SpanWeight) (filter : SpanFilter)

/-- The cursor behind a gate, if there is one. -/
def PostingCursor.gatedBy (c : PostingCursor) (least : Option Threshold) : PostingCursor :=
  least.elim c c.gated

namespace SpanWeight

/-- The query that a weight comes from. -/
def query : SpanWeight → Query
  | term q _ _ _ => q
  | union q _ _ => q
  | near q _ _ _ _ => q
  | filtered q _ _ => q

/-- The field of the spans. -/
def field : SpanWeight → String
  | term _ t _ _ => t.field
  | union _ field _ => field
  | near _ field _ _ _ => field
  | filtered _ inner _ => inner.field

mutual

/-- The terms of a weight with their lookups. -/
def lookups : SpanWeight → List (Term × TermLookup)
  | term _ t lookup _ => [(t, lookup)]
  | union _ _ subs => lookupsAll subs
  | near _ _ subs _ _ => lookupsAll subs
  | filtered _ inner _ => inner.lookups

/-- The terms of weights with their lookups. -/
def lookupsAll : List SpanWeight → List (Term × TermLookup)
  | [] => []
  | w :: rest => w.lookups ++ lookupsAll rest

end

/-- The distinct terms of a weight, in order. -/
def terms (w : SpanWeight) : List Term := Term.sorted (w.lookups.map (·.1))

/-- The totals of the distinct terms of a weight, in the order of the terms. -/
def statistics (w : SpanWeight) : List TermStatistics :=
  w.terms.filterMap fun t => (w.lookups.lookup t).bind (·.statistics?)

/-- Open the places of a term in a segment. Fields without positions have none. -/
def openTerm (t : Term) (lookup : TermLookup) (least : Option Threshold) (g : Segment)
    (detail : Detail) : Except Fault (Option SpanCursor) := do
  match ← lookup.get g with
  | none => pure none
  | some entry =>
    if (g.options? t.field).any (·.hasPositions) then
      let cursor ← g.postings t entry (detail.max .positions)
      pure (some (.ofPostings (cursor.gatedBy least)))
    else .error (.spansNotIndexed t)

mutual

/-- Open a cursor over the spans in a segment, if there can be any. The payload check needs to
see payloads; other nodes read as much as they are asked for. -/
def spans (g : Segment) (detail : Detail) : SpanWeight → Except Fault (Option SpanCursor)
  | term _ t lookup least => openTerm t lookup least g detail
  | union _ _ subs => do
    match ← spansAny g detail subs with
    | [] => pure none
    | [c] => pure (some c)
    | cs => pure (some (.anyOf cs))
  | near _ _ subs slop inOrder => do
    pure ((← spansAll g detail subs).map fun cs => SpanCursor.nearby cs slop inOrder)
  | filtered _ inner filter => do
    let detail := if filter = .emptyPayload then detail.max .payloads else detail
    pure ((← inner.spans g detail).map fun c => c.filtered filter)

/-- The cursors of those operands that may have spans in a segment. -/
def spansAny (g : Segment) (detail : Detail) : List SpanWeight → Except Fault (List SpanCursor)
  | [] => .ok []
  | w :: rest => do
    let c ← w.spans g detail
    let cs ← spansAny g detail rest
    pure (c.elim cs (· :: cs))

/-- The cursors of all operands, unless one of them has no spans in a segment. -/
def spansAll (g : Segment) (detail : Detail) :
    List SpanWeight → Except Fault (Option (List SpanCursor))
  | [] => .ok (some [])
  | w :: rest => do
    match ← w.spans g detail with
    | none => pure none
    | some c => pure ((← spansAll g detail rest).map (c :: ·))

end

end SpanWeight

end TextSearch
