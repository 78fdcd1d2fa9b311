import TextSearch.Span.Basic

/-!
# Proximity

A proximity match picks one span from every clause. In order, each span starts
at or after the end of the one before it; otherwise no two of them overlap. The
gap of a pick is the number of positions between its first and its last one that
no picked span covers, and a pick counts when its gap does not exceed the slop.
Positions are 32-bit words, and so are their sums and differences.
-/

namespace TextSearch.Span

/-- The positions covered by picked spans, counted once for every span. -/
def covered (picked : List Span) : UInt32 := (picked.map length).foldl (· + ·) 0

/-- The least start of a pick that begins with a span. -/
def leastStart (first : Span) (others : List Span) : UInt32 :=
  others.foldl (fun m s => if s.start < m then s.start else m) first.start

/-- The greatest end of a pick that begins with a span. -/
def greatestStop (first : Span) (others : List Span) : UInt32 :=
  others.foldl (fun m s => if m < s.stop then s.stop else m) first.stop

/-- The difference of two words, or zero where it would be negative. -/
def excess (width taken : UInt32) : UInt32 := if taken < width then width - taken else 0

/-- The span that a pick makes up, if its gap stays within the slop. -/
def combine (slop : UInt32) : List Span → Option Span
  | [] => none
  | first :: others =>
    let start := leastStart first others
    let stop := greatestStop first others
    if slop < excess (stop - start) (covered (first :: others)) then none
    else some { start, stop, payloads := (first :: others).flatMap (·.payloads) }

/-- Whether a span may be picked after the spans picked so far, the latest first. -/
def mayFollow (inOrder : Bool) (picked : List Span) (s : Span) : Bool :=
  if inOrder then picked.head?.all fun p => decide (p.stop ≤ s.start)
  else picked.all fun p => !p.overlaps s

/-- The spans of all picks that extend the spans picked so far, the latest first, by one span
from every clause left. -/
def picks (slop : UInt32) (inOrder : Bool) : List Span → List (List Span) → List Span
  | picked, [] => (combine slop picked.reverse).toList
  | picked, clause :: clauses =>
    clause.flatMap fun s =>
      if mayFollow inOrder picked s then picks slop inOrder (s :: picked) clauses else []

/-- The proximity matches of clauses, in order and each once. -/
def near (slop : UInt32) (inOrder : Bool) (clauses : List (List Span)) : List Span :=
  distinct (picks slop inOrder [] clauses)

end TextSearch.Span
