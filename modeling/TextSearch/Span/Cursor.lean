import TextSearch.Posting.Cursor
import TextSearch.Span.Stepper
import TextSearch.Score.Number

/-!
# Span cursors

A span cursor is a tree: the spans of a single term at the leaves, and sieves,
unions and proximity cursors above them. A move of a tree moves its operands,
possibly many times, so the operations of a tree are built up by height: the
stepper of one height drives the operands of a tree of the next.
-/

namespace TextSearch

/-- A tree of span cursors. -/
inductive SpanCursor where
  /-- The occurrences of a term, with the spans of the current document. -/
  | term (cursor : PostingCursor) (spans : List Span)
  /-- A filtered cursor. -/
  | sieve (c : SpanSieve SpanCursor)
  /-- The union of cursors. -/
  | union (c : SpanUnion SpanCursor)
  /-- Cursors near each other. -/
  | proximity (c : SpanProximity SpanCursor)

namespace SpanCursor

/-- A cursor in front of the occurrences of a term. -/
def ofPostings (cursor : PostingCursor) : SpanCursor := term cursor []

/-- A cursor behind a filter. -/
def filtered (inner : SpanCursor) (filter : SpanFilter) : SpanCursor :=
  sieve (.ofInner inner filter)

/-- The union of cursors. -/
def anyOf (subs : List SpanCursor) : SpanCursor := union (.ofSubs subs)

/-- Cursors near each other. -/
def nearby (subs : List SpanCursor) (slop : UInt32) (inOrder : Bool) : SpanCursor :=
  proximity (.ofSubs subs slop inOrder)

/-- The current document. -/
def doc : SpanCursor → Nat
  | term c _ => c.doc
  | sieve ⟨inner, _, _⟩ => inner.doc
  | union u => u.current
  | proximity p => p.current

/-- The spans of the current document. -/
def spans : SpanCursor → List Span
  | term _ ss => ss
  | sieve s => s.spans
  | union u => u.spans
  | proximity p => p.spans

mutual

/-- An upper bound on the number of documents of a cursor. -/
def cost : SpanCursor → Nat
  | term c _ => c.cost
  | sieve ⟨inner, _, _⟩ => inner.cost
  | union ⟨subs, _, _, _⟩ => costSum subs
  | proximity ⟨subs, _, _, _, _, _⟩ => (costLeast subs).getD 0

/-- The sum of the costs of marked cursors. -/
def costSum : List (Bool × SpanCursor) → Nat
  | [] => 0
  | (_, c) :: rest => c.cost + costSum rest

/-- The least cost of cursors. -/
def costLeast : List SpanCursor → Option Nat
  | [] => none
  | c :: rest => some ((costLeast rest).elim c.cost (min c.cost))

end

mutual

/-- An upper bound on the number of documents still ahead of a cursor. In a union, cursors may
stand ahead of the current document. -/
def remaining : SpanCursor → Nat
  | term c _ => c.remaining
  | sieve ⟨inner, _, _⟩ => inner.remaining
  | union ⟨subs, _, _, _⟩ => remainingMarked subs
  | proximity ⟨subs, _, _, _, _, _⟩ => remainingAll subs

/-- The number of documents that cursors stand on, if marked, or have ahead. -/
def remainingMarked : List (Bool × SpanCursor) → Nat
  | [] => 0
  | (marked, c) :: rest => (if marked then 1 else 0) + c.remaining + remainingMarked rest

/-- The number of documents ahead of cursors. -/
def remainingAll : List SpanCursor → Nat
  | [] => 0
  | c :: rest => c.remaining + remainingAll rest

end

mutual

/-- The number of levels of a tree. -/
def height : SpanCursor → Nat
  | term _ _ => 1
  | sieve ⟨inner, _, _⟩ => inner.height + 1
  | union ⟨subs, _, _, _⟩ => heightMarked subs + 1
  | proximity ⟨subs, _, _, _, _, _⟩ => heightAll subs + 1

/-- The greatest height of marked cursors. -/
def heightMarked : List (Bool × SpanCursor) → Nat
  | [] => 0
  | (_, c) :: rest => max c.height (heightMarked rest)

/-- The greatest height of cursors. -/
def heightAll : List SpanCursor → Nat
  | [] => 0
  | c :: rest => max c.height (heightAll rest)

end

/-- The spans of a term after its postings have moved. -/
def loaded (move : Bool × PostingCursor) : Except Fault (Bool × SpanCursor) := do
  let (found, cursor) := move
  if found then
    .ok (true, term cursor (Span.sorted ((← cursor.occurrences).map Span.ofOccurrence)))
  else .ok (false, term cursor [])

/-- A moved operand as a tree of its own. -/
def wrapped {α : Type} (wrap : α → SpanCursor) (move : Except Fault (Bool × α)) :
    Except Fault (Bool × SpanCursor) :=
  move.map fun (found, c) => (found, wrap c)

/-- What can be done with the trees of a height, given what can be done with lower ones. -/
def stepper : Nat → SpanStepper SpanCursor
  | 0 =>
    { doc, spans, remaining
      next := fun _ => .error .outOfSteps
      skipTo := fun _ _ => .error .outOfSteps }
  | height + 1 =>
    { doc, spans, remaining
      next := fun
        | term c _ => loaded c.next
        | sieve c => wrapped sieve (c.next (stepper height))
        | union c => wrapped union (c.next (stepper height))
        | proximity c => wrapped proximity (c.next (stepper height))
      skipTo := fun target => fun
        | term c _ => loaded (c.skipTo target)
        | sieve c => wrapped sieve (c.skipTo (stepper height) target)
        | union c => wrapped union (c.skipTo (stepper height) target)
        | proximity c => wrapped proximity (c.skipTo (stepper height) target) }

/-- Move to the next document with spans. -/
def next (c : SpanCursor) : Except Fault (Bool × SpanCursor) := (stepper c.height).next c

/-- Move to the first document with spans that is not before the target. -/
def skipTo (target : Nat) (c : SpanCursor) : Except Fault (Bool × SpanCursor) :=
  (stepper c.height).skipTo target c

/-- How many positions of every span go without a gap. -/
def compactLength : SpanCursor → UInt32
  | proximity p => p.subs.length.toUInt32
  | _ => 1

/-- The frequency of the current document: every span counts less the wider its gap is. -/
def sloppyFreq {R : Type} [ScoreNumber R] (c : SpanCursor) : R :=
  ScoreNumber.sum (c.spans.map fun s =>
    ScoreNumber.one /
      (ScoreNumber.one + ScoreNumber.ofCount (Span.excess s.length c.compactLength).toNat))

end SpanCursor

end TextSearch
