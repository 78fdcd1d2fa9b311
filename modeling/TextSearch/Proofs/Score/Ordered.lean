import Mathlib.Tactic.Linarith
import Mathlib.Tactic.NormNum
import Mathlib.Tactic.Positivity
import TextSearch.Proofs.Score.Exact
import TextSearch.Score.BM25

/-!
# Scores in order

Where adding to a score what is not negative does not lower it, and nothing that scores are
computed from is negative, no score is negative and sums grow with their parts. How much terms
weigh is left open: any weight will do that is not negative for a term that occurs in no more
documents than there are. Main statement: `BM25.NonNegative.score`.
-/

namespace TextSearch

namespace ScoreNumber

variable {R : Type} [ScoreNumber R]

/-- A score does not rank above another. -/
def Le (x y : R) : Prop := (order x y).isLE = true

end ScoreNumber

open ScoreNumber (Le)

/-- Sums, products and quotients of scores that are not negative are in order, and no constant or
count is negative. -/
class OrderedScore (R : Type) [ScoreNumber R] : Prop extends ExactSum R where
  /-- Sums grow with their parts. -/
  add_le_add : ∀ {x x' y y' : R}, Le x x' → Le y y' → Le (x + y) (x' + y')
  /-- Products of what is not negative are not negative. -/
  mul_nonneg : ∀ {x y : R}, Le ScoreNumber.zero x → Le ScoreNumber.zero y →
    Le ScoreNumber.zero (x * y)
  /-- Quotients of what is not negative are not negative. -/
  div_nonneg : ∀ {x y : R}, Le ScoreNumber.zero x → Le ScoreNumber.zero y →
    Le ScoreNumber.zero (x / y)
  /-- The factor that changes nothing is not negative. -/
  one_nonneg : Le ScoreNumber.zero (ScoreNumber.one : R)
  /-- Counts are not negative. -/
  ofCount_nonneg : ∀ n, Le ScoreNumber.zero (ScoreNumber.ofCount n : R)
  /-- Means are not negative. -/
  mean_nonneg : ∀ total parts, Le ScoreNumber.zero (ScoreNumber.mean total parts : R)
  /-- Scores do not fall with the frequency. -/
  saturation_nonneg : Le ScoreNumber.zero (ScoreNumber.saturation : R)
  /-- The length of a field counts in part at least not negatively. -/
  lengthWeight_nonneg : Le ScoreNumber.zero (ScoreNumber.lengthWeight : R)
  /-- The length of a field counts in part only. -/
  lengthWeight_le_one : Le ScoreNumber.zero (ScoreNumber.one - ScoreNumber.lengthWeight : R)
  /-- Terms do not weigh negatively. -/
  idf_nonneg : ∀ docFreq total, docFreq ≤ total →
    Le ScoreNumber.zero (ScoreNumber.idf docFreq total : R)

namespace ScoreNumber

variable {R : Type} [ScoreNumber R]

theorem le_refl [ExactScore R] (x : R) : Le x x := by
  have horder : Std.TransCmp (order : R → R → Ordering) := ExactScore.order
  have heq : order x x = .eq := Std.ReflCmp.compare_self
  rw [Le, heq]
  rfl

variable [OrderedScore R]

theorem add_nonneg {x y : R} (hx : Le zero x) (hy : Le zero y) : Le zero (x + y) := by
  have hsum := OrderedScore.add_le_add hx hy
  rwa [ExactScore.add_zero] at hsum

theorem le_add_right {x y : R} (hy : Le zero y) : Le x (x + y) := by
  have hsum := OrderedScore.add_le_add (le_refl x) hy
  rwa [ExactScore.add_zero] at hsum

/-- A sum grows with its parts. -/
theorem sum_le_sum {xs ys : List R} (h : List.Forall₂ Le xs ys) : Le (sum xs) (sum ys) := by
  induction h with
  | nil => exact le_refl _
  | cons hxy _ ih =>
    rw [sum_cons, sum_cons]
    exact OrderedScore.add_le_add hxy ih

theorem sum_nonneg {xs : List R} (h : ∀ x ∈ xs, Le zero x) : Le zero (sum xs) := by
  induction xs with
  | nil =>
    rw [sum_nil, emptySum_eq_zero]
    exact le_refl _
  | cons x xs ih =>
    obtain ⟨hx, hxs⟩ := List.forall_mem_cons.1 h
    rw [sum_cons]
    exact add_nonneg hx (ih hxs)

end ScoreNumber

/-! ### Scores of terms -/

namespace BM25

open ScoreNumber

variable {R : Type} [ScoreNumber R]

/-- A scorer that nothing negative goes into. -/
structure NonNegative (s : BM25 R) : Prop where
  /-- The weight of the terms. -/
  idf : Le zero s.idf
  /-- The average length of the field. -/
  averageLength : Le zero s.averageLength
  /-- The factor on every score. -/
  boost : Le zero s.boost

variable [OrderedScore R]

theorem nonNegative_ofTerm {docFreq totalDocs : Nat} (hle : docFreq ≤ totalDocs)
    {averageLength boost : R} (hlength : Le zero averageLength) (hboost : Le zero boost) :
    (ofTerm docFreq averageLength totalDocs boost).NonNegative :=
  ⟨OrderedScore.idf_nonneg _ _ hle, hlength, hboost⟩

namespace NonNegative

variable {s : BM25 R}

theorem lengthNorm (h : s.NonNegative) {length : R} (hlength : Le zero length) :
    Le zero (s.lengthNorm length) := by
  rw [BM25.lengthNorm]
  split
  · exact add_nonneg OrderedScore.lengthWeight_le_one (OrderedScore.mul_nonneg
      OrderedScore.lengthWeight_nonneg (OrderedScore.div_nonneg hlength h.averageLength))
  · exact OrderedScore.one_nonneg

theorem saturated (h : s.NonNegative) {freq length : R} (hfreq : Le zero freq)
    (hlength : Le zero length) : Le zero (s.saturated freq length) := by
  rw [BM25.saturated]
  split
  · exact le_refl _
  · have hgrows : Le zero (saturation + one : R) :=
      add_nonneg OrderedScore.saturation_nonneg OrderedScore.one_nonneg
    have hslows : Le zero (saturation * s.lengthNorm length) :=
      OrderedScore.mul_nonneg OrderedScore.saturation_nonneg (h.lengthNorm hlength)
    exact OrderedScore.div_nonneg (OrderedScore.mul_nonneg hfreq hgrows) (add_nonneg hfreq hslows)

/-- Nothing scores negatively. -/
theorem score (h : s.NonNegative) {freq : R} (hfreq : Le zero freq) : Le zero (s.score freq) := by
  rw [BM25.score]
  split
  · exact le_refl _
  · exact OrderedScore.mul_nonneg (OrderedScore.mul_nonneg h.boost h.idf)
      (h.saturated hfreq h.averageLength)

end NonNegative

end BM25

/-! ### Fractions -/

theorem le_fraction_iff {x y : ℚ} : Le x y ↔ x ≤ y := by
  change (compare x y).isLE = true ↔ x ≤ y
  rw [Ordering.isLE_iff_ne_gt, compare_gt_iff_gt, not_lt]

instance : OrderedScore ℚ where
  add_le_add h h' := le_fraction_iff.2 (add_le_add (le_fraction_iff.1 h) (le_fraction_iff.1 h'))
  mul_nonneg h h' := le_fraction_iff.2 (mul_nonneg (le_fraction_iff.1 h) (le_fraction_iff.1 h'))
  div_nonneg h h' := le_fraction_iff.2 (div_nonneg (le_fraction_iff.1 h) (le_fraction_iff.1 h'))
  one_nonneg := le_fraction_iff.2 zero_le_one
  ofCount_nonneg n := le_fraction_iff.2 (Nat.cast_nonneg n)
  mean_nonneg total parts :=
    le_fraction_iff.2 (div_nonneg (Nat.cast_nonneg total) (Nat.cast_nonneg parts))
  saturation_nonneg := le_fraction_iff.2 (by norm_num : (0 : ℚ) ≤ 6 / 5)
  lengthWeight_nonneg := le_fraction_iff.2 (by norm_num : (0 : ℚ) ≤ 3 / 4)
  lengthWeight_le_one := le_fraction_iff.2 (by norm_num : (0 : ℚ) ≤ 1 - 3 / 4)
  idf_nonneg docFreq total hle := by
    have hcast : (docFreq : ℚ) ≤ total := Nat.cast_le.2 hle
    refine le_fraction_iff.2 (?_ : (0 : ℚ) ≤ if docFreq = 0 ∨ total = 0 then 0 else _)
    split
    · exact le_refl 0
    · exact div_nonneg (by linarith) (by positivity)

end TextSearch
