import TextSearch.Search.Grounding
import TextSearch.Search.Weighing
import TextSearch.TopHits

/-!
# Searching

A query is grounded, weighed, and run on every segment. The documents of a segment
are collected under their global ids, and the collectors of all segments are
merged. Counting does the same without scores, and an explanation is made for a
single document.
-/

namespace TextSearch

namespace Matcher

variable {R : Type} [ScoreNumber R]

/-- The matching documents from the current one on, in so many steps at most. -/
def hitsWithin : Nat → Matcher R → Except Fault (List (Hit R))
  | 0, _ => .error .outOfSteps
  | steps + 1, m => do
    if m.exhausted then pure []
    else
      let hit : Hit R := ⟨m.doc, m.score⟩
      pure (hit :: (← hitsWithin steps (← m.next).2))

/-- The matching documents from the current one on. -/
def hits (m : Matcher R) : Except Fault (List (Hit R)) := hitsWithin (m.remaining + 2) m

end Matcher

namespace Weight

variable {R : Type} [ScoreNumber R]

/-- The matching documents of a segment under their global ids. -/
def hits (w : Weight R) (g : Segment) : Except Fault (List (Hit R)) := do
  match ← w.matcher g with
  | none => pure []
  | some m => pure ((← m.hits).map fun h => { h with doc := g.docBase + h.doc })

end Weight

namespace Searcher

variable {R : Type} [ScoreNumber R]

/-- Ground and weigh a query. -/
def prepare (s : Searcher) (scored : Bool) (q : Query) : Weighing (Weight R) := do
  let q ← s.grounded q
  Weighing.weight s.snapshot scored ScoreNumber.one q

/-- Run a query for the best hits of a number. -/
def search (s : Searcher) (size : Nat) (q : Query) : Weighing (TopDocs R) := do
  let w ← s.prepare (R := R) true q
  let found ← s.snapshot.segments.mapM fun g => (w.hits g : Except Fault (List (Hit R)))
  let collectors := found.map fun hs => hs.foldl TopHits.collect (.empty size)
  pure (collectors.foldl TopHits.merge (.empty size)).topDocs

/-- Count the documents of a query. -/
def count (s : Searcher) (q : Query) : Weighing Nat := do
  let w ← s.prepare (R := Single) false q
  let found ← s.snapshot.segments.mapM fun g => (w.hits g : Except Fault (List (Hit Single)))
  pure (total (found.map List.length))

/-- Explain the score of a document. -/
def explain (s : Searcher) (doc : Nat) (q : Query) : Weighing (Explanation R) := do
  match s.snapshot.locate? doc with
  | none => throw (.missingDocument doc)
  | some (g, number) =>
    let w ← s.prepare (R := R) true q
    (w.explain g number : Except Fault (Explanation R))

end Searcher

end TextSearch
