import TextSearch.Single

/-!
# Numbers that scores are made of

Matching, weighting and ranking do not depend on how scores are computed, so
they are written over any type with the operations of `ScoreNumber`. A search
runs on numbers of 32 bits; statements that hold up to rounding are made
about number types whose arithmetic is exact.
-/

namespace TextSearch

/-- The arithmetic, the constants and the order that scoring needs of a number type. -/
class ScoreNumber (R : Type) extends Add R, Sub R, Mul R, Div R where
  /-- The score of what does not count. -/
  zero : R
  /-- The factor that changes nothing. -/
  one : R
  /-- The sum of no scores. -/
  emptySum : R
  /-- A count as a score. -/
  ofCount : Nat → R
  /-- A boost factor as a score. -/
  ofBoost : Single → R
  /-- The weight of a term found in so many documents out of so many. -/
  idf : Nat → Nat → R
  /-- A total divided by a number of parts; zero when there are no parts. -/
  mean : Nat → Nat → R
  /-- How slowly the score grows with the frequency of a term. -/
  saturation : R
  /-- How much the length of a field counts. -/
  lengthWeight : R
  /-- Whether a number is zero. -/
  isZero : R → Bool
  /-- Whether a number is greater than zero. -/
  isPositive : R → Bool
  /-- The order in which scores rank. -/
  order : R → R → Ordering
  /-- The written form of a number. -/
  text : R → String

namespace ScoreNumber

/-- The sum of a list of scores, added from the left. -/
def sum {R : Type} [ScoreNumber R] (xs : List R) : R := xs.foldl (· + ·) emptySum

/-- The logarithm of one plus the odds that a document lacks the term, each count moved by a
half; terms that occur nowhere weigh nothing. -/
def singleIdf (docFreq total : Nat) : Single :=
  if docFreq = 0 ∨ total = 0 then .ofCount 0
  else
    let n := total.toUInt64.toFloat32
    let df := docFreq.toUInt64.toFloat32
    .ofValue (1 + (n - df + 0.5) / (df + 0.5)).log

/-- The quotient of two counts, taken at 64 bits and then narrowed. -/
def singleMean (total parts : Nat) : Float :=
  if parts = 0 then 0 else total.toUInt64.toFloat / parts.toUInt64.toFloat

instance : ScoreNumber Single where
  zero := .ofValue 0
  one := .ofValue 1
  emptySum := .ofValue (-0.0)
  ofCount := .ofCount
  ofBoost b := b
  idf := singleIdf
  mean total parts := .ofDouble (singleMean total parts)
  saturation := .ofValue 1.2
  lengthWeight := .ofValue 0.75
  isZero := Single.isZero
  isPositive := Single.isPositive
  order x y := compare x.rank y.rank
  text := Single.text

end ScoreNumber

end TextSearch
