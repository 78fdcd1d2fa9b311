import TextSearch.Posting.Basic

/-!
# Posting cursors

A cursor walks a posting list forward, one document at a time or by skipping to
a document. It starts in front of the list, and both there and behind the list
it reports `endOfDocs`. A `PostingCursor` may be gated by minimum frequencies,
one around the other: a gate hides the documents in which the term is too rare
and passes on unchanged what the list says about the others.
-/

namespace TextSearch

/-- A cursor over a posting list in ascending order of documents. -/
structure ListCursor where
  /-- Whether the cursor has moved at all. -/
  started : Bool
  /-- The postings not yet left behind; the current one comes first once the cursor has moved. -/
  rest : List Posting
  /-- The length of the whole list. -/
  size : Nat
  /-- How much of the postings is read. -/
  detail : Detail
  deriving DecidableEq, Repr

namespace ListCursor

/-- A cursor in front of a list. -/
def ofList (ps : List Posting) (detail : Detail) : ListCursor := ⟨false, ps, ps.length, detail⟩

/-- The current posting. -/
def current? (c : ListCursor) : Option Posting := if c.started then c.rest.head? else none

/-- The current document. -/
def doc (c : ListCursor) : Nat := c.current?.elim endOfDocs (·.doc)

/-- How often the term occurs in the current document. -/
def frequency (c : ListCursor) : Nat := c.current?.elim 0 (·.frequency)

/-- The occurrences in the current document, without payloads unless those were asked for. -/
def occurrences (c : ListCursor) : Except Fault (List Occurrence) :=
  if c.detail.hasPositions then
    let os := c.current?.elim [] fun p => p.occurrences.getD []
    .ok (if c.detail.hasPayloads then os else os.map (·.withoutPayload))
  else .error .positionsNotRequested

/-- The number of documents still ahead of the cursor. -/
def remaining (c : ListCursor) : Nat := if c.started then c.rest.length - 1 else c.rest.length

/-- Move to the next document, if there is one. -/
def next (c : ListCursor) : Bool × ListCursor :=
  let rest := if c.started then c.rest.tail else c.rest
  (!rest.isEmpty, { c with started := true, rest })

/-- Move to the first document, from the current one on, that is not before the target. -/
def skipTo (target : Nat) (c : ListCursor) : Bool × ListCursor :=
  let rest := c.rest.dropWhile (·.doc < target)
  (!rest.isEmpty, { c with started := true, rest })

end ListCursor

/-- A cursor over a posting list behind any number of gates. -/
structure PostingCursor where
  /-- The cursor over the whole list. -/
  base : ListCursor
  /-- The minimum frequencies of the gates, the outermost first. -/
  gates : List Threshold
  deriving DecidableEq, Repr

namespace PostingCursor

/-- An ungated cursor in front of a list. -/
def ofList (ps : List Posting) (detail : Detail) : PostingCursor := ⟨.ofList ps detail, []⟩

/-- The cursor behind one more gate. -/
def gated (c : PostingCursor) (t : Threshold) : PostingCursor := { c with gates := t :: c.gates }

/-- The current document. -/
def doc (c : PostingCursor) : Nat := c.base.doc

/-- How often the term occurs in the current document. -/
def frequency (c : PostingCursor) : Nat := c.base.frequency

/-- The occurrences in the current document. -/
def occurrences (c : PostingCursor) : Except Fault (List Occurrence) := c.base.occurrences

/-- An upper bound on the number of documents of the cursor. -/
def cost (c : PostingCursor) : Nat := c.base.size

/-- An upper bound on the number of documents still ahead of the cursor. -/
def remaining (c : PostingCursor) : Nat := c.base.remaining

/-- Walk on from a move until the frequency reaches a threshold. The steps to take are
counted down, and there are no more of them than documents ahead. -/
def settle (t : Threshold) (next : ListCursor → Bool × ListCursor) :
    Nat → Bool × ListCursor → Bool × ListCursor
  | 0, move => move
  | steps + 1, (found, c) =>
    if found && decide (c.frequency < t.value) then settle t next steps (next c) else (found, c)

/-- Move to the next document that passes every gate. -/
def nextThrough : List Threshold → ListCursor → Bool × ListCursor
  | [], c => c.next
  | t :: inner, c =>
    let move := nextThrough inner c
    settle t (nextThrough inner) (move.2.remaining + 1) move

/-- Skip to the first document, not before the target, that passes every gate. -/
def skipThrough (target : Nat) : List Threshold → ListCursor → Bool × ListCursor
  | [], c => c.skipTo target
  | t :: inner, c =>
    let move := skipThrough target inner c
    settle t (nextThrough inner) (move.2.remaining + 1) move

/-- Move to the next document, if there is one. -/
def next (c : PostingCursor) : Bool × PostingCursor :=
  let (found, base) := nextThrough c.gates c.base
  (found, { c with base })

/-- Move to the first document, from the current one on, that is not before the target. -/
def skipTo (target : Nat) (c : PostingCursor) : Bool × PostingCursor :=
  let (found, base) := skipThrough target c.gates c.base
  (found, { c with base })

/-- The posting that the cursor stands on, as far as it is read. -/
def current (c : PostingCursor) : Posting := ⟨c.doc, c.frequency, c.occurrences.toOption⟩

/-- The postings ahead of the cursor, in so many steps at most. -/
def toListWithin : Nat → PostingCursor → List Posting
  | 0, _ => []
  | steps + 1, c =>
    let (found, c) := c.next
    if found then c.current :: toListWithin steps c else []

/-- The postings ahead of the cursor, as far as they are read. -/
def toList (c : PostingCursor) : List Posting := toListWithin c.remaining c

end PostingCursor

end TextSearch
