import TextSearch.Score.Explanation

/-!
# BM25

The score of a document for a term, or for a group of terms matched together,
is a boost times the weight of the terms in the index times a term frequency
that saturates. The lengths of fields are not stored: every document is scored
as if its field had the average length.
-/

namespace TextSearch

/-- What is known of the scored terms before any document is seen. -/
structure BM25 (R : Type) where
  /-- The weight of the terms in the index, summed over the terms. -/
  idf : R
  /-- The number of documents that each term occurs in. -/
  docFreqs : List Nat
  /-- The average length of the field. -/
  averageLength : R
  /-- The number of documents in the index. -/
  totalDocs : Nat
  /-- The factor on every score. -/
  boost : R

namespace BM25

variable {R : Type} [ScoreNumber R]

open ScoreNumber

/-- The scorer of a single term. -/
def ofTerm (docFreq : Nat) (averageLength : R) (totalDocs : Nat) (boost : R) : BM25 R :=
  { idf := ScoreNumber.idf docFreq totalDocs
    docFreqs := [docFreq]
    averageLength, totalDocs, boost }

/-- The scorer of terms matched together. -/
def ofTerms (docFreqs : List Nat) (averageLength : R) (totalDocs : Nat) (boost : R) : BM25 R :=
  { idf := sum (docFreqs.map fun df => ScoreNumber.idf df totalDocs)
    docFreqs, averageLength, totalDocs, boost }

/-- The scorer of a term that occurs nowhere. -/
def absent (boost : R) : BM25 R := ofTerm 0 zero 0 boost

/-- The same terms under another boost. -/
def withBoost (s : BM25 R) (boost : R) : BM25 R := { s with boost }

/-- How much a field length slows the growth of the term frequency. -/
def lengthNorm (s : BM25 R) (fieldLength : R) : R :=
  if isPositive s.averageLength then
    one - lengthWeight + lengthWeight * (fieldLength / s.averageLength)
  else one

/-- The saturated term frequency. -/
def saturated (s : BM25 R) (freq fieldLength : R) : R :=
  if isZero freq then zero
  else (freq * (saturation + one)) / (freq + saturation * s.lengthNorm fieldLength)

/-- The score of a document with a, possibly fractional, frequency. -/
def score (s : BM25 R) (freq : R) : R :=
  if isZero s.idf then zero else s.boost * s.idf * s.saturated freq s.averageLength

/-- The score that no frequency exceeds. -/
def maxScore (s : BM25 R) : R := s.boost * s.idf * (saturation + one)

/-- The name of the formula. -/
def name : String := "BM25"

/-- The tree behind the weight of the terms. -/
def explainIdf (s : BM25 R) : Explanation R :=
  .matched s.idf "idf, computed as log(1 + (N - n + 0.5) / (n + 0.5)) from:"
    ((s.docFreqs.map fun df =>
        .matched (ofCount df) "n, number of documents containing term" []) ++
      [.matched (ofCount s.totalDocs) "N, total number of documents with field" []])

/-- The tree behind the saturated term frequency. -/
def explainSaturated (s : BM25 R) (freq : Explanation R) : Explanation R :=
  .matched (s.saturated freq.value s.averageLength)
    "tf, computed as freq * (k1 + 1) / (freq + k1 * (1 - b + b * dl / avgdl)) from:"
    [freq,
      .matched saturation "k1, term saturation parameter" [],
      .matched lengthWeight "b, length normalization parameter" [],
      .matched s.averageLength "dl, length of field (approximated)" [],
      .matched s.averageLength "avgdl, average length of field" []]

/-- The tree behind the score of a document whose frequency is explained by `freq`. -/
def explain (s : BM25 R) (freq : Explanation R) : Explanation R :=
  .matched (s.boost * s.idf * s.saturated freq.value s.averageLength)
    "score, computed as boost * idf * tf from:"
    [.matched s.boost "boost" [], s.explainIdf, s.explainSaturated freq]

@[simp] theorem value_explain (s : BM25 R) (freq : Explanation R) :
    (s.explain freq).value = s.boost * s.idf * s.saturated freq.value s.averageLength := rfl

end BM25

end TextSearch
