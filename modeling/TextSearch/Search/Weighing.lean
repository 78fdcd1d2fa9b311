import TextSearch.Search.LookupCache
import TextSearch.Search.Weight

/-!
# Weighing queries

Binding a grounded query to a snapshot makes a weight of it. Terms are looked
up through the cache, which keeps what was looked up even if the rest fails.
Scorers are set up only where scores are needed; prohibited clauses need none.
-/

namespace TextSearch

/-- An action that may look up terms and may fail. -/
abbrev Weighing := ExceptT Fault (StateM LookupCache)

namespace Weighing

/-- The lookup of a term, brought along or shared. -/
def resolve (s : Snapshot) (t : Term) (carried : Option TermLookup) (counted : Bool) :
    Weighing TermLookup := do
  let (_, l) ← modifyGet fun (c : LookupCache) => c.resolve s t carried counted
  pure l

mutual

/-- Bind a span query. -/
def spanWeight (s : Snapshot) (counted : Bool) : Query → Weighing SpanWeight
  | .spanTerm t => do pure (.term (.spanTerm t) t (← resolve s t none counted) none)
  | .frequentSpanTerm t least carried => do
    pure (.term (.frequentSpanTerm t least carried) t (← resolve s t carried counted) (some least))
  | .spanOr field clauses => do
    pure (.union (.spanOr field clauses) field (← spanWeights s counted clauses))
  | .spanNear field clauses slop inOrder => do
    pure (.near (.spanNear field clauses slop inOrder) field (← spanWeights s counted clauses)
      slop inOrder)
  | .withoutPayload q => do
    pure (.filtered (.withoutPayload q) (← spanWeight s counted q) .emptyPayload)
  | .frequentSpan q least => do
    pure (.filtered (.frequentSpan q least) (← spanWeight s counted q)
      (.minFrequency least.value))
  | .spanMultiTerm m => throw (.notGrounded (Query.spanMultiTerm m).display)
  | .deferred q plan => throw (.notGrounded (Query.deferred q plan).display)
  | q => throw (.notSpan q.display)

/-- Bind span queries in order. -/
def spanWeights (s : Snapshot) (counted : Bool) : List Query → Weighing (List SpanWeight)
  | [] => pure []
  | q :: rest => do
    let w ← spanWeight s counted q
    pure (w :: (← spanWeights s counted rest))

end

variable {R : Type} [ScoreNumber R]

/-- The average length of a field. -/
def averageLength (t : FieldStatistics) : R := ScoreNumber.mean t.tokenCount t.docCount

/-- The scorer of a term, if scores are needed. -/
def termScorer (s : Snapshot) (t : Term) (lookup : TermLookup) (scored : Bool) (boost : R) :
    Option (BM25 R) :=
  if scored then
    match s.fieldStatistics? t.field, lookup.statistics? with
    | some field, some term => some (.ofTerm term.docFreq (averageLength field) field.maxDoc boost)
    | _, _ => some (.absent boost)
  else none

/-- The scorer of spans, if scores are needed. It takes all terms together that occur. -/
def spanScorer (s : Snapshot) (w : SpanWeight) (scored : Bool) (boost : R) : Option (BM25 R) :=
  if scored then
    match s.fieldStatistics? w.field, w.statistics with
    | some field, t :: ts =>
      some (.ofTerms ((t :: ts).map (·.docFreq)) (averageLength field) field.maxDoc boost)
    | _, _ => some (.absent boost)
  else none

/-- Bind a query for the documents of a term. -/
def termWeight (s : Snapshot) (q : Query) (t : Term) (carried : Option TermLookup)
    (least : Option Threshold) (scored : Bool) (boost : R) : Weighing (Weight R) := do
  let lookup ← resolve s t carried scored
  pure (.term q t lookup (termScorer s t lookup scored boost) least)

/-- Bind a query for the documents that have spans. -/
def spansWeight (s : Snapshot) (q : Query) (scored : Bool) (boost : R) :
    Weighing (Weight R) := do
  let w ← spanWeight s scored q
  pure (.spans q w (spanScorer s w scored boost))

mutual

/-- Bind a query, with scores or without, under a boost. -/
def weight (s : Snapshot) (scored : Bool) (boost : R) : Query → Weighing (Weight R)
  | .term t => termWeight s (.term t) t none none scored boost
  | .markedTerm t mark => termWeight s (.markedTerm t mark) t none none scored boost
  | .frequentTerm t least carried =>
    termWeight s (.frequentTerm t least carried) t carried (some least) scored boost
  | .boost q factor => weight s scored (boost * ScoreNumber.ofBoost factor) q
  | .boolean clauses => do
    pure (.boolean (.boolean clauses) (← clauseWeights s scored boost clauses) scored)
  | .nothing => pure (.nothing .nothing)
  | .multiTerm m => throw (.notGrounded (Query.multiTerm m).display)
  | .spanMultiTerm m => throw (.notGrounded (Query.spanMultiTerm m).display)
  | .deferred q plan => throw (.notGrounded (Query.deferred q plan).display)
  | q => spansWeight s q scored boost

/-- Bind clauses in order. -/
def clauseWeights (s : Snapshot) (scored : Bool) (boost : R) :
    List (Occur × Query) → Weighing (List (Occur × Weight R))
  | [] => pure []
  | (o, q) :: rest => do
    let w ← weight s (if o = .mustNot then false else scored) boost q
    pure ((o, w) :: (← clauseWeights s scored boost rest))

end

end Weighing

end TextSearch
