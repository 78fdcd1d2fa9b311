import TextSearch.Match.Stepper
import TextSearch.Score.BM25
import TextSearch.Span.Cursor

/-!
# Matchers

A matcher is a tree: postings and span cursors with their scorers at the leaves,
and unions, intersections, exclusions and preferences above them. As with span
cursors, the operations of a tree are built up by height.
-/

namespace TextSearch

/-- The documents of a posting cursor. -/
structure PostingMatcher (R : Type) where
  /-- The cursor, standing on the current document. -/
  cursor : PostingCursor
  /-- The scorer, if scores were asked for. -/
  scorer : Option (BM25 R)
  /-- Whether the cursor has found nothing more. -/
  exhausted : Bool

/-- The documents of a span cursor. -/
structure SpanMatcher (R : Type) where
  /-- The cursor, standing on the current document. -/
  cursor : SpanCursor
  /-- The scorer, if scores were asked for. -/
  scorer : Option (BM25 R)
  /-- Whether the cursor has found nothing more. -/
  exhausted : Bool

/-- A tree of matchers. -/
inductive Matcher (R : Type) where
  /-- No documents. -/
  | empty
  /-- The documents of a posting cursor. -/
  | postings (m : PostingMatcher R)
  /-- The documents of a span cursor. -/
  | spans (m : SpanMatcher R)
  /-- The documents of any matcher. -/
  | union (m : MatchUnion (Matcher R))
  /-- The documents of all matchers. -/
  | intersection (m : MatchIntersection (Matcher R))
  /-- The documents of one matcher without those of others. -/
  | exclusion (m : MatchExclusion (Matcher R))
  /-- The documents of a required matcher. -/
  | preference (m : MatchPreference (Matcher R))

namespace PostingMatcher

variable {R : Type}

/-- A matcher on the first document of a cursor. -/
def ofCursor (cursor : PostingCursor) (scorer : Option (BM25 R)) : PostingMatcher R :=
  let (found, cursor) := cursor.next
  ⟨cursor, scorer, !found⟩

/-- The current document. -/
def doc (m : PostingMatcher R) : Nat := if m.exhausted then endOfDocs else m.cursor.doc

/-- How often the term occurs in the current document. -/
def frequency (m : PostingMatcher R) : Nat := if m.exhausted then 0 else m.cursor.frequency

/-- The score of the current document. -/
def score [ScoreNumber R] (m : PostingMatcher R) : R :=
  match m.scorer with
  | some s =>
    if m.exhausted then ScoreNumber.zero else s.score (ScoreNumber.ofCount m.cursor.frequency)
  | none => ScoreNumber.zero

/-- The matcher after a move of its cursor. -/
def moved (m : PostingMatcher R) (move : Bool × PostingCursor) : Bool × PostingMatcher R :=
  (move.1, { m with cursor := move.2, exhausted := !move.1 })

/-- Move to the next document. -/
def next (m : PostingMatcher R) : Bool × PostingMatcher R :=
  if m.exhausted then (false, m) else m.moved m.cursor.next

/-- Move to the first document that is not before the target. -/
def skipTo (target : Nat) (m : PostingMatcher R) : Bool × PostingMatcher R :=
  if m.exhausted then (false, m) else m.moved (m.cursor.skipTo target)

end PostingMatcher

namespace SpanMatcher

variable {R : Type}

/-- A matcher on the first document of a cursor. -/
def ofCursor (cursor : SpanCursor) (scorer : Option (BM25 R)) : Except Fault (SpanMatcher R) := do
  let (found, cursor) ← cursor.next
  .ok ⟨cursor, scorer, !found⟩

/-- The current document. -/
def doc (m : SpanMatcher R) : Nat := if m.exhausted then endOfDocs else m.cursor.doc

/-- The number of spans in the current document. -/
def frequency (m : SpanMatcher R) : Nat := if m.exhausted then 0 else m.cursor.spans.length

/-- The frequency of the current document that scores are computed from. -/
def sloppyFreq [ScoreNumber R] (m : SpanMatcher R) : R :=
  if m.exhausted then ScoreNumber.zero else m.cursor.sloppyFreq

/-- The score of the current document. -/
def score [ScoreNumber R] (m : SpanMatcher R) : R :=
  match m.scorer with
  | some s => if m.exhausted then ScoreNumber.zero else s.score m.cursor.sloppyFreq
  | none => ScoreNumber.zero

/-- The matcher after a move of its cursor. -/
def moved (m : SpanMatcher R) (move : Bool × SpanCursor) : Bool × SpanMatcher R :=
  (move.1, { m with cursor := move.2, exhausted := !move.1 })

/-- Move to the next document. -/
def next (m : SpanMatcher R) : Except Fault (Bool × SpanMatcher R) := do
  if m.exhausted then .ok (false, m) else .ok (m.moved (← m.cursor.next))

/-- Move to the first document that is not before the target, unless the cursor is there. -/
def skipTo (target : Nat) (m : SpanMatcher R) : Except Fault (Bool × SpanMatcher R) := do
  if m.exhausted || decide (target ≤ m.cursor.doc) then .ok (!m.exhausted, m)
  else .ok (m.moved (← m.cursor.skipTo target))

end SpanMatcher

namespace Matcher

variable {R : Type}

/-- The current document. -/
def doc : Matcher R → Nat
  | empty => endOfDocs
  | postings m => m.doc
  | spans m => m.doc
  | union m => m.current
  | intersection m => m.current
  | exclusion m => m.current
  | preference ⟨required, _⟩ => required.doc

/-- Whether there is no current document. -/
def exhausted : Matcher R → Bool
  | empty => true
  | postings m => m.exhausted
  | spans m => m.exhausted
  | union m => m.exhausted
  | intersection m => m.exhausted
  | exclusion m => m.exhausted
  | preference ⟨required, _⟩ => required.exhausted

/-- An upper bound on the number of documents. -/
def cost : Matcher R → Nat
  | empty => 0
  | postings m => m.cursor.cost
  | spans m => m.cursor.cost
  | union m => m.cost
  | intersection m => m.cost
  | exclusion ⟨positive, _, _, _⟩ => positive.cost
  | preference ⟨required, _⟩ => required.cost

mutual

/-- An upper bound on the number of documents still ahead. In a union, matchers may stand ahead
of the current document. -/
def remaining : Matcher R → Nat
  | empty => 0
  | postings m => m.cursor.remaining
  | spans m => m.cursor.remaining
  | union ⟨subs, _, _, _⟩ => remainingAll subs + subs.length
  | intersection ⟨subs, _, _, _⟩ => remainingAll subs
  | exclusion ⟨positive, _, _, _⟩ => positive.remaining
  | preference ⟨required, _⟩ => required.remaining

/-- The number of documents ahead of matchers. -/
def remainingAll : List (Matcher R) → Nat
  | [] => 0
  | m :: rest => m.remaining + remainingAll rest

end

mutual

/-- The number of levels of a tree. -/
def height : Matcher R → Nat
  | empty => 1
  | postings _ => 1
  | spans _ => 1
  | union ⟨subs, _, _, _⟩ => heightAll subs + 1
  | intersection ⟨subs, _, _, _⟩ => heightAll subs + 1
  | exclusion ⟨positive, negatives, _, _⟩ => max positive.height (heightAll negatives) + 1
  | preference ⟨required, optional⟩ => max required.height optional.height + 1

/-- The greatest height of matchers. -/
def heightAll : List (Matcher R) → Nat
  | [] => 0
  | m :: rest => max m.height (heightAll rest)

end

mutual

/-- How often the current document matches. -/
def frequency : Matcher R → Nat
  | empty => 1
  | postings m => m.frequency
  | spans m => m.frequency
  | union ⟨subs, current, _, _⟩ => total (frequenciesAt current subs)
  | intersection ⟨subs, _, _, _⟩ => total (frequencies subs)
  | exclusion ⟨positive, _, _, _⟩ => positive.frequency
  | preference ⟨required, _⟩ => required.frequency

/-- The frequencies of matchers. -/
def frequencies : List (Matcher R) → List Nat
  | [] => []
  | m :: rest => m.frequency :: frequencies rest

/-- The frequencies of those matchers that stand on a document. -/
def frequenciesAt (doc : Nat) : List (Matcher R) → List Nat
  | [] => []
  | m :: rest =>
    if m.doc = doc then m.frequency :: frequenciesAt doc rest else frequenciesAt doc rest

end

mutual

/-- The score of the current document; zero where scores were not asked for. -/
def score [ScoreNumber R] : Matcher R → R
  | empty => ScoreNumber.zero
  | postings m => m.score
  | spans m => m.score
  | union ⟨subs, current, _, _⟩ => ScoreNumber.sum (scoresAt current subs)
  | intersection ⟨subs, _, _, _⟩ => ScoreNumber.sum (scores subs)
  | exclusion ⟨positive, _, _, _⟩ => positive.score
  | preference ⟨required, optional⟩ =>
    required.score + (if optional.doc = required.doc then optional.score else ScoreNumber.zero)

/-- The scores of matchers. -/
def scores [ScoreNumber R] : List (Matcher R) → List R
  | [] => []
  | m :: rest => m.score :: scores rest

/-- The scores of those matchers that stand on a document. -/
def scoresAt [ScoreNumber R] (doc : Nat) : List (Matcher R) → List R
  | [] => []
  | m :: rest => if m.doc = doc then m.score :: scoresAt doc rest else scoresAt doc rest

end

/-- A moved operand as a tree of its own. -/
def wrapped {α : Type} (wrap : α → Matcher R) (move : Except Fault (Bool × α)) :
    Except Fault (Bool × Matcher R) :=
  move.map fun (found, m) => (found, wrap m)

/-- What can be done with the trees of a height, given what can be done with lower ones. -/
def stepper : Nat → MatchStepper (Matcher R)
  | 0 =>
    { doc, exhausted, cost, remaining
      next := fun _ => .error .outOfSteps
      skipTo := fun _ _ => .error .outOfSteps }
  | height + 1 =>
    { doc, exhausted, cost, remaining
      next := fun
        | empty => .ok (false, empty)
        | postings m => wrapped postings (.ok m.next)
        | spans m => wrapped spans m.next
        | union m => wrapped union (m.next (stepper height))
        | intersection m => wrapped intersection (m.next (stepper height))
        | exclusion m => wrapped exclusion (m.next (stepper height))
        | preference m => wrapped preference (m.next (stepper height))
      skipTo := fun target => fun
        | empty => .ok (false, empty)
        | postings m => wrapped postings (.ok (m.skipTo target))
        | spans m => wrapped spans (m.skipTo target)
        | union m => wrapped union (m.skipTo (stepper height) target)
        | intersection m => wrapped intersection (m.skipTo (stepper height) target)
        | exclusion m => wrapped exclusion (m.skipTo (stepper height) target)
        | preference m => wrapped preference (m.skipTo (stepper height) target) }

/-- Move to the next document. -/
def next (m : Matcher R) : Except Fault (Bool × Matcher R) := (stepper m.height).next m

/-- Move to the first document that is not before the target. -/
def skipTo (target : Nat) (m : Matcher R) : Except Fault (Bool × Matcher R) :=
  (stepper m.height).skipTo target m

/-- The documents of a posting cursor. -/
def ofPostings (cursor : PostingCursor) (scorer : Option (BM25 R)) : Matcher R :=
  postings (.ofCursor cursor scorer)

/-- The documents of a span cursor. -/
def ofSpans (cursor : SpanCursor) (scorer : Option (BM25 R)) : Except Fault (Matcher R) :=
  spans <$> SpanMatcher.ofCursor cursor scorer

/-- The documents of any of several matchers. -/
def anyOf (subs : List (Matcher R)) : Matcher R :=
  union (.ofSubs (stepper (heightAll subs)) subs)

/-- The documents of all of several matchers. -/
def allOf (subs : List (Matcher R)) : Except Fault (Matcher R) :=
  intersection <$> MatchIntersection.ofSubs (stepper (heightAll subs)) subs

/-- The documents of a matcher without those of others. -/
def excluding (positive : Matcher R) (negatives : List (Matcher R)) : Except Fault (Matcher R) :=
  exclusion <$>
    MatchExclusion.ofSides (stepper (max positive.height (heightAll negatives))) positive negatives

/-- The documents of a required matcher, with the scores of an optional one. -/
def preferring (required optional : Matcher R) : Except Fault (Matcher R) :=
  preference <$>
    MatchPreference.synced (stepper (max required.height optional.height)) required optional

end Matcher

end TextSearch
