import TextSearch.Match.Matcher
import TextSearch.Search.SpanWeight

/-!
# Weights

A weight is a query bound to a snapshot: its terms are looked up and its scorers
are set up. It opens a matcher over its documents in any segment, and it explains
the score of any document. Boosts have no weight of their own; they are factors
in the scorers below them.
-/

namespace TextSearch

/-- A query bound to a snapshot. Every node keeps the query that it comes from. -/
inductive Weight (R : Type) where
  /-- The documents of a term, where it occurs often enough. -/
  | term (query : Query) (term : Term) (lookup : TermLookup) (scorer : Option (BM25 R))
    (least : Option Threshold)
  /-- The documents that have spans. -/
  | spans (query : Query) (spans : SpanWeight) (scorer : Option (BM25 R))
  /-- A boolean combination, and whether scores are needed. -/
  | boolean (query : Query) (clauses : List (Occur × Weight R)) (scored : Bool)
  /-- No documents. -/
  | nothing (query : Query)

/-- The matchers of the clauses of a boolean combination, by the parts that they play. -/
structure MatcherParts (R : Type) where
  /-- What has to match. -/
  required : List (Matcher R)
  /-- What may match. -/
  optional : List (Matcher R)
  /-- What must not match. -/
  prohibited : List (Matcher R)

namespace MatcherParts

variable {R : Type}

/-- No clauses. -/
def empty : MatcherParts R := ⟨[], [], []⟩

/-- One more clause in front. -/
def add (p : MatcherParts R) (o : Occur) (m : Matcher R) : MatcherParts R :=
  match o with
  | .must => { p with required := m :: p.required }
  | .should => { p with optional := m :: p.optional }
  | .mustNot => { p with prohibited := m :: p.prohibited }

/-- Several matchers as one; a single one stands for itself. -/
def anyOf : List (Matcher R) → Option (Matcher R)
  | [] => none
  | [m] => some m
  | ms => some (.anyOf ms)

/-- All of several matchers as one; a single one stands for itself. -/
def allOf : List (Matcher R) → Except Fault (Option (Matcher R))
  | [] => .ok none
  | [m] => .ok (some m)
  | ms => some <$> Matcher.allOf ms

/-- What has to match together with what may match. The latter counts only for scores when
there is something that has to match. -/
def positive (scored : Bool) (p : MatcherParts R) : Except Fault (Option (Matcher R)) := do
  match ← allOf p.required with
  | none => pure (anyOf p.optional)
  | some required =>
    match anyOf p.optional with
    | some optional =>
      if scored then some <$> required.preferring optional else pure (some required)
    | none => pure (some required)

/-- The matcher of the whole combination, unless nothing can match. -/
def combine (scored : Bool) (p : MatcherParts R) : Except Fault (Option (Matcher R)) := do
  match ← p.positive scored with
  | none => pure none
  | some positive =>
    if p.prohibited.isEmpty then pure (some positive)
    else some <$> positive.excluding p.prohibited

end MatcherParts

/-- What the clauses of a boolean combination have explained so far. -/
structure ClauseTally (R : Type) where
  /-- The sum of the contributions. -/
  sum : R
  /-- The explanations of the clauses that match. -/
  details : List (Explanation R)
  /-- Whether something had to match. -/
  isRequired : Bool

namespace Weight

variable {R : Type}

/-- The query that a weight comes from. -/
def query : Weight R → Query
  | term q _ _ _ _ => q
  | spans q _ _ => q
  | boolean q _ _ => q
  | nothing q => q

/-- Open the documents of a term in a segment. -/
def openTerm (t : Term) (lookup : TermLookup) (scorer : Option (BM25 R))
    (least : Option Threshold) (g : Segment) : Except Fault (Option (Matcher R)) := do
  match ← lookup.get g with
  | none => pure none
  | some entry =>
    let cursor ← g.postings t entry .frequencies
    pure (some (.ofPostings (cursor.gatedBy least) scorer))

/-- Open the documents with spans in a segment. -/
def openSpans (w : SpanWeight) (scorer : Option (BM25 R)) (g : Segment) :
    Except Fault (Option (Matcher R)) := do
  match ← w.spans g .positions with
  | none => pure none
  | some cursor => some <$> Matcher.ofSpans cursor scorer

mutual

/-- Open a matcher over the documents in a segment, if there can be any. -/
def matcher (g : Segment) : Weight R → Except Fault (Option (Matcher R))
  | term _ t lookup scorer least => openTerm t lookup scorer least g
  | spans _ w scorer => openSpans w scorer g
  | boolean _ clauses scored => do
    match ← parts g clauses with
    | none => pure none
    | some p => p.combine scored
  | nothing _ => .ok none

/-- The matchers of clauses in a segment, unless one that has to match cannot. The clauses
after such a one are not looked at. -/
def parts (g : Segment) : List (Occur × Weight R) → Except Fault (Option (MatcherParts R))
  | [] => .ok (some .empty)
  | (o, w) :: rest => do
    match ← w.matcher g with
    | none => if o = .must then pure none else parts g rest
    | some m => pure ((← parts g rest).map fun p => p.add o m)

end

mutual

/-- The terms that a weight matches on; those of prohibited clauses are none of them. -/
def termList : Weight R → List Term
  | term _ t _ _ _ => [t]
  | spans _ w _ => w.lookups.map (·.1)
  | boolean _ clauses _ => termLists clauses
  | nothing _ => []

/-- The terms that clauses match on. -/
def termLists : List (Occur × Weight R) → List Term
  | [] => []
  | (o, w) :: rest => if o = .mustNot then termLists rest else w.termList ++ termLists rest

end

/-- The distinct terms that a weight matches on, in order. -/
def terms (w : Weight R) : List Term := Term.sorted w.termList

/-- Whether what a weight matches in a segment stays the same for as long as the snapshot. -/
def isCacheable (_ : Weight R) (_ : Segment) : Bool := true

variable [ScoreNumber R]

/-- Explain the score of a document that a matcher may match. -/
def explainMatch (q : Query) (scorer : Option (BM25 R)) (label missing : String)
    (freq : Matcher R → R) (doc : Nat) (m : Option (Matcher R)) :
    Except Fault (Explanation R) := do
  let miss := Explanation.noMatch missing []
  match m with
  | none => pure miss
  | some m =>
    let (found, m) ← m.skipTo doc
    if found && m.doc == doc then
      let f := freq m
      let scorer := scorer.getD (.absent ScoreNumber.one)
      let score := scorer.explain (.matched f (label ++ "=" ++ ScoreNumber.text f) [])
      pure (.matched score.value ("weight(" ++ q.display ++ s!" in {doc}) [BM25], result of:")
        [score])
    else pure miss

/-- The number that the scores of a matcher over spans are computed from. -/
def spanFrequency : Matcher R → R
  | .spans m => m.sloppyFreq
  | m => ScoreNumber.ofCount m.frequency

/-- The tally after a clause that matches. -/
def tallied (t : ClauseTally R) (e : Explanation R) : ClauseTally R :=
  { t with sum := t.sum + e.value, details := t.details ++ [e] }

/-- What a boolean combination comes to once every clause was looked at. -/
def summedUp (t : ClauseTally R) : Explanation R :=
  if !t.isRequired && t.details.isEmpty then .noMatch "no matching clause" []
  else .matched t.sum "sum of:" t.details

mutual

/-- Explain the score of a document of a segment. -/
def explain (g : Segment) (doc : Nat) : Weight R → Except Fault (Explanation R)
  | term q t lookup scorer least => do
    explainMatch q scorer "termFreq" "no matching term" (fun m => ScoreNumber.ofCount m.frequency)
      doc (← openTerm t lookup scorer least g)
  | spans q w scorer => do
    explainMatch q scorer "phraseFreq" "no matching spans" spanFrequency doc
      (← openSpans w scorer g)
  | boolean _ clauses _ => explainClauses g doc ⟨ScoreNumber.zero, [], false⟩ clauses
  | nothing q => .ok (.noMatch q.display [])

/-- Explain clauses in order, up to the first one that rules the document out. -/
def explainClauses (g : Segment) (doc : Nat) (t : ClauseTally R) :
    List (Occur × Weight R) → Except Fault (Explanation R)
  | [] => .ok (summedUp t)
  | (o, w) :: rest => do
    let e ← w.explain g doc
    match o with
    | .must =>
      if e.isMatch then explainClauses g doc (tallied { t with isRequired := true } e) rest
      else pure (.noMatch ("no match on required clause (" ++ w.query.display ++ ")") [e])
    | .should => explainClauses g doc (if e.isMatch then tallied t e else t) rest
    | .mustNot =>
      if e.isMatch then
        pure (.noMatch ("match on prohibited clause (" ++ w.query.display ++ ")") [e])
      else explainClauses g doc t rest

end

end Weight

end TextSearch
