import TextSearch.Index.Segment

/-!
# Snapshots

A snapshot is a fixed list of segments with an identity. A `TermLookup` keeps
what the dictionaries of all segments say about one term, so that a term is
looked up once and then read in every segment. A lookup belongs to its snapshot:
`TermLookup.get` refuses segments of any other.
-/

namespace TextSearch

/-- A fixed list of segments. -/
structure Snapshot where
  /-- The identity. -/
  id : Nat
  /-- The segments in order. -/
  segments : List Segment

/-- Totals of a field over a snapshot. -/
structure FieldStatistics where
  /-- The field. -/
  field : String
  /-- The number of documents of the snapshot. -/
  maxDoc : Nat
  /-- How many times a document with tokens in the field was added. -/
  docCount : Nat
  /-- The number of tokens in the field. -/
  tokenCount : Nat
  /-- The number of postings in the field. -/
  postingCount : Nat
  deriving DecidableEq, Repr

namespace Snapshot

/-- The number of documents. -/
def maxDoc (s : Snapshot) : Nat := total (s.segments.map (·.maxDoc))

/-- The totals of a field, if any segment has it. -/
def fieldStatistics? (s : Snapshot) (field : String) : Option FieldStatistics :=
  match s.segments.filterMap fun g => g.fields.get? field with
  | [] => none
  | fs => some
    { field, maxDoc := s.maxDoc
      docCount := total (fs.map (·.docCount))
      tokenCount := total (fs.map (·.tokenCount))
      postingCount := total (fs.map (·.postingCount)) }

/-- The segment that holds a document, and the number of the document there. -/
def locate? (s : Snapshot) (doc : Nat) : Option (Segment × Nat) :=
  (s.segments.find? fun g => decide (g.docBase ≤ doc) && decide (doc < g.docBase + g.maxDoc)).map
    fun g => (g, doc - g.docBase)

end Snapshot

/-- Totals of a term over a snapshot. -/
structure TermStatistics where
  /-- The term. -/
  term : Term
  /-- The number of documents that it occurs in. -/
  docFreq : Nat
  /-- How often it occurs in them. -/
  totalFreq : Nat
  deriving DecidableEq, Repr

/-- What the segments of a snapshot say about a term. -/
structure TermLookup where
  /-- The identity of the snapshot. -/
  snapshot : Nat
  /-- The term. -/
  term : Term
  /-- The entry of the term in every segment. -/
  entries : List (Option TermEntry)
  /-- The number of documents that the term occurs in; zero when it was not counted. -/
  docFreq : Nat
  /-- How often the term occurs; zero when it was not counted. -/
  totalFreq : Nat
  /-- Whether the two totals were counted. -/
  isCounted : Bool
  deriving DecidableEq, Repr

namespace TermLookup

/-- Look a term up in every segment, counting the totals on request. -/
def ofSnapshot (s : Snapshot) (term : Term) (counted : Bool) : TermLookup :=
  let entries := s.segments.map fun g => g.entry? term
  let sum (f : TermEntry → Nat) :=
    if counted then total (entries.filterMap fun e => e.map f) else 0
  { snapshot := s.id, term, entries
    docFreq := sum (·.docFreq)
    totalFreq := sum (·.totalFreq)
    isCounted := counted }

/-- The entry of the term in a segment of the snapshot. -/
def get (l : TermLookup) (g : Segment) : Except Fault (Option TermEntry) :=
  if l.snapshot = g.snapshot then .ok (l.entries[g.ord]?.join)
  else .error (.foreignEntries l.term)

/-- The totals of the term, if it was counted and occurs at all. -/
def statistics? (l : TermLookup) : Option TermStatistics :=
  if 0 < l.docFreq then some ⟨l.term, l.docFreq, l.totalFreq⟩ else none

end TermLookup

end TextSearch
