import TextSearch.Dictionary
import TextSearch.Posting.Cursor
import TextSearch.Total

/-!
# Segments

A segment holds the postings of a run of documents, numbered from zero within
the segment. Each field has a dictionary of its terms; looking a term up gives a
`TermEntry`, with which the postings of the term are opened. A field that no
document of the segment has tokens in is not in the segment.
-/

namespace TextSearch

/-- What a field stores of its terms; each level includes the one before it. -/
inductive IndexOptions where
  /-- Which documents a term occurs in. -/
  | documents
  /-- How often, too. -/
  | frequencies
  /-- Where, too. -/
  | positions
  /-- With which payloads, too. -/
  | payloads
  deriving DecidableEq, Repr, Inhabited

namespace IndexOptions

/-- Whether positions are stored. -/
def hasPositions : IndexOptions → Bool
  | positions => true
  | payloads => true
  | _ => false

/-- Whether payloads are stored. -/
def hasPayloads : IndexOptions → Bool
  | payloads => true
  | _ => false

/-- Whether postings can be read to a level of detail. A field that stores positions without
payloads can be read with payloads; they are missing from every occurrence. -/
def supports (o : IndexOptions) : Detail → Bool
  | .frequencies => true
  | _ => o.hasPositions

end IndexOptions

/-- What the dictionary of a field says about a term. -/
structure TermEntry where
  /-- The number of documents of the segment that the term occurs in. -/
  docFreq : Nat
  /-- How often it occurs in them. -/
  totalFreq : Nat
  /-- The place of the term in the dictionary. -/
  ordinal : Nat
  deriving DecidableEq, Repr, Inhabited

/-- The postings of a field in a segment. -/
structure FieldPostings where
  /-- What the field stores. -/
  options : IndexOptions
  /-- The postings by term. -/
  terms : Dictionary (List Posting)
  /-- How many times a document with tokens in the field was added. -/
  docCount : Nat
  /-- The number of tokens that were added. -/
  tokenCount : Nat

namespace FieldPostings

/-- The number of postings of all terms. -/
def postingCount (f : FieldPostings) : Nat := total (f.terms.entries.map (·.2.length))

/-- Look a term up. -/
def entry? (f : FieldPostings) (text : String) : Option TermEntry := do
  let ps ← f.terms.get? text
  let ordinal ← f.terms.indexOf? text
  some ⟨ps.length, total (ps.map (·.frequency)), ordinal⟩

/-- The postings at a place of the dictionary. -/
def postingsAt? (f : FieldPostings) (ordinal : Nat) : Option (List Posting) :=
  f.terms.entries[ordinal]?.map (·.2)

end FieldPostings

/-- The postings of a run of documents. -/
structure Segment where
  /-- The place of the segment in its snapshot. -/
  ord : Nat
  /-- The identity of the snapshot. -/
  snapshot : Nat
  /-- The number of documents in the segments before it. -/
  docBase : Nat
  /-- The number of documents in it. -/
  maxDoc : Nat
  /-- The fields that have postings. -/
  fields : Dictionary FieldPostings

namespace Segment

/-- What a field stores, if the segment has it. -/
def options? (s : Segment) (field : String) : Option IndexOptions :=
  (s.fields.get? field).map (·.options)

/-- Look a term up. -/
def entry? (s : Segment) (term : Term) : Option TermEntry :=
  (s.fields.get? term.field).bind fun f => f.entry? term.text

/-- The terms of a field, in order. -/
def terms (s : Segment) (field : String) : List String :=
  (s.fields.get? field).elim [] fun f => f.terms.keys

/-- Open the postings of a term that was found as `entry`. -/
def postings (s : Segment) (term : Term) (entry : TermEntry) (detail : Detail) :
    Except Fault PostingCursor :=
  match s.fields.get? term.field with
  | none => .error (.fieldNotIndexed term.field)
  | some f =>
    if f.options.supports detail then
      match f.postingsAt? entry.ordinal with
      | some ps => .ok (.ofList ps detail)
      | none => .error (.staleEntry term)
    else .error (.positionsNotIndexed term)

end Segment

end TextSearch
