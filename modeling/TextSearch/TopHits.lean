import TextSearch.Score.Number

/-!
# The best hits

A collector keeps the best hits of those it was offered, up to its size, and
counts all of them. The better hit has the higher score in the order of the
scores, and among equal scores the lower document id. Collectors that saw
different documents can be merged into one.
-/

namespace TextSearch

/-- A matching document and its score. -/
structure Hit (R : Type) where
  /-- The global id of the document. -/
  doc : Nat
  /-- The score of the document. -/
  score : R
  deriving Repr, DecidableEq

namespace Hit

variable {R : Type} [ScoreNumber R]

/-- How two hits rank: the lesser one is the better one. -/
def rank (a b : Hit R) : Ordering :=
  (ScoreNumber.order b.score a.score).then (compare a.doc b.doc)

/-- Whether a hit is at least as good as another. -/
def noWorse (a b : Hit R) : Bool := (a.rank b).isLE

/-- Put a hit in its place among hits in order. -/
def insert (a : Hit R) : List (Hit R) → List (Hit R)
  | [] => [a]
  | b :: rest => if a.noWorse b then a :: b :: rest else b :: insert a rest

end Hit

/-- The answer to a search for the best hits. -/
structure TopDocs (R : Type) where
  /-- The number of matching documents, those not listed included. -/
  totalHits : Nat
  /-- The best score, unless nothing is listed. -/
  maxScore : Option R
  /-- The best hits, best first. -/
  hits : List (Hit R)

/-- A collector of the best hits. -/
structure TopHits (R : Type) where
  /-- The number of hits to keep. -/
  size : Nat
  /-- The hits kept so far, best first. -/
  kept : List (Hit R)
  /-- The number of hits seen so far. -/
  seen : Nat

namespace TopHits

variable {R : Type}

/-- A collector that has seen nothing. -/
def empty (size : Nat) : TopHits R := ⟨size, [], 0⟩

/-- Forget every hit. -/
def reset (c : TopHits R) : TopHits R := empty c.size

variable [ScoreNumber R]

/-- Keep a hit if it is among the best. -/
def offer (c : TopHits R) (h : Hit R) : TopHits R :=
  { c with kept := (h.insert c.kept).take c.size }

/-- See a hit. -/
def collect (c : TopHits R) (h : Hit R) : TopHits R :=
  { c.offer h with seen := c.seen + 1 }

/-- See what another collector saw. -/
def merge (c other : TopHits R) : TopHits R :=
  { other.kept.foldl offer c with seen := c.seen + other.seen }

omit [ScoreNumber R] in
/-- The answer, once everything was seen. -/
def topDocs (c : TopHits R) : TopDocs R :=
  { totalHits := c.seen
    maxScore := c.kept.head?.map (·.score)
    hits := c.kept }

end TopHits

end TextSearch
