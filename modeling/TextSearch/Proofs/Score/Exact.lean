import Mathlib.Algebra.Order.Field.Rat
import TextSearch.Score.Number

/-!
# Exact scores

Scores are exact where adding no scores changes nothing, and where they are in a
linear order. Where scores may also be added in any order, and terms without weight
score nothing, sums do not depend on the way in which they are computed, and where
counts are sums of ones it makes no difference whether something is counted or added up. Where
products are exact as well, a factor on scores is a factor on their sum.
Fractions make such scores once a weight of terms is chosen that is a fraction itself: the
odds that a document lacks the term, without their logarithm.
-/

namespace TextSearch

/-- Adding no scores changes nothing, and the order of scores is linear. -/
class ExactScore (R : Type) [ScoreNumber R] : Prop where
  /-- The sum of no scores may be left out in front. -/
  emptySum_add : ∀ x : R, ScoreNumber.emptySum + x = x
  /-- The score of what does not count may be left out at the end. -/
  add_zero : ∀ x : R, x + ScoreNumber.zero = x
  /-- Scores are in a linear order. -/
  order : Std.TransCmp (ScoreNumber.order : R → R → Ordering)

/-- Scores may be added in any order, and what weighs nothing scores nothing. -/
class ExactSum (R : Type) [ScoreNumber R] : Prop extends ExactScore R where
  /-- Scores may change places. -/
  add_comm : ∀ x y : R, x + y = y + x
  /-- Scores may be grouped in any way. -/
  add_assoc : ∀ x y z : R, x + y + z = x + (y + z)
  /-- A product with a factor that is zero does not count. -/
  mul_isZero : ∀ x y z : R, ScoreNumber.isZero y = true → x * y * z = ScoreNumber.zero

/-- Counts are sums of ones, and one is left as it is when it is divided by itself. -/
class ExactCount (R : Type) [ScoreNumber R] : Prop extends ExactSum R where
  /-- Nothing counted does not count. -/
  ofCount_zero : (ScoreNumber.ofCount 0 : R) = ScoreNumber.zero
  /-- One more counts as one more. -/
  ofCount_succ : ∀ n, (ScoreNumber.ofCount (n + 1) : R) = ScoreNumber.one + ScoreNumber.ofCount n
  /-- One goes into itself once. -/
  one_div_one : (ScoreNumber.one / ScoreNumber.one : R) = ScoreNumber.one

/-- Products may be taken in any order and grouped in any way, and they distribute over sums. -/
class ExactProduct (R : Type) [ScoreNumber R] : Prop extends ExactSum R where
  /-- Factors may change places. -/
  mul_comm : ∀ x y : R, x * y = y * x
  /-- Factors may be grouped in any way. -/
  mul_assoc : ∀ x y z : R, x * y * z = x * (y * z)
  /-- A factor on a sum is a factor on its parts. -/
  mul_add : ∀ x y z : R, x * (y + z) = x * y + x * z
  /-- The factor that changes nothing changes nothing. -/
  one_mul : ∀ x : R, ScoreNumber.one * x = x
  /-- What does not count does not count under any factor. -/
  mul_zero : ∀ x : R, x * ScoreNumber.zero = ScoreNumber.zero

/-- The factor that changes nothing changes nothing. -/
class ExactUnit (R : Type) [ScoreNumber R] : Prop where
  /-- One may be left out in front. -/
  one_mul : ∀ x : R, ScoreNumber.one * x = x

instance {R : Type} [ScoreNumber R] [ExactProduct R] : ExactUnit R where
  one_mul := ExactProduct.one_mul

namespace ScoreNumber

variable {R : Type} [ScoreNumber R]

/-- The sum of no scores is the score of what does not count. -/
theorem emptySum_eq_zero [ExactScore R] : (emptySum : R) = zero := by
  rw [← ExactScore.add_zero emptySum, ExactScore.emptySum_add]

@[simp] theorem sum_nil : sum ([] : List R) = emptySum := rfl

@[simp] theorem sum_singleton [ExactScore R] (x : R) : sum [x] = x := ExactScore.emptySum_add x

variable [ExactSum R]

theorem foldl_add (x y : R) (xs : List R) : xs.foldl (· + ·) (x + y) = x + xs.foldl (· + ·) y := by
  induction xs generalizing y with
  | nil => rfl
  | cons z xs ih => rw [List.foldl_cons, List.foldl_cons, ExactSum.add_assoc, ih]

theorem sum_cons (x : R) (xs : List R) : sum (x :: xs) = x + sum xs := by
  rw [sum, List.foldl_cons, ExactSum.add_comm emptySum x, foldl_add]
  rfl

/-- The order of scores does not matter for their sum. -/
theorem sum_perm {xs ys : List R} (h : xs.Perm ys) : sum xs = sum ys := by
  induction h with
  | nil => rfl
  | cons x _ ih => rw [sum_cons, sum_cons, ih]
  | swap x y xs =>
    rw [sum_cons, sum_cons, sum_cons, sum_cons, ← ExactSum.add_assoc, ExactSum.add_comm y x,
      ExactSum.add_assoc]
  | trans _ _ ih ih' => exact ih.trans ih'

/-- A factor on every score is a factor on the sum. -/
theorem sum_map_mul {R : Type} [ScoreNumber R] [ExactProduct R] (b : R) (xs : List R) :
    sum (xs.map (b * ·)) = b * sum xs := by
  induction xs with
  | nil => rw [List.map_nil, sum_nil, emptySum_eq_zero, ExactProduct.mul_zero]
  | cons x xs ih => rw [List.map_cons, sum_cons, sum_cons, ih, ExactProduct.mul_add]

/-- The product of a list of scores, multiplied from the left. -/
def product {R : Type} [ScoreNumber R] (xs : List R) : R := xs.foldl (· * ·) one

theorem product_concat {R : Type} [ScoreNumber R] (xs : List R) (x : R) :
    product (xs ++ [x]) = product xs * x := List.foldl_append ..

@[simp] theorem product_singleton {R : Type} [ScoreNumber R] [ExactUnit R] (x : R) :
    product [x] = x := ExactUnit.one_mul x

/-- The order of factors does not matter for their product. -/
theorem product_perm {R : Type} [ScoreNumber R] [ExactProduct R] {xs ys : List R}
    (h : xs.Perm ys) : product xs = product ys := by
  refine h.foldl_eq' (fun x _ y _ z => ?_) one
  rw [ExactProduct.mul_assoc, ExactProduct.mul_comm x y, ← ExactProduct.mul_assoc]

/-- Ones add up to their count. -/
theorem sum_replicate_one {R : Type} [ScoreNumber R] [ExactCount R] (n : Nat) :
    sum (List.replicate n (one : R)) = ofCount n := by
  induction n with
  | zero => rw [List.replicate_zero, sum_nil, emptySum_eq_zero, ExactCount.ofCount_zero]
  | succ n ih => rw [List.replicate_succ, sum_cons, ih, ExactCount.ofCount_succ]

end ScoreNumber

/-- A number times a power of two. -/
def scaled (significand : Nat) (exponent : Int) : ℚ :=
  ((significand * 2 ^ exponent.toNat : Nat) : ℚ) / ((2 ^ (-exponent).toNat : Nat) : ℚ)

/-- The value of a number of 32 bits; zero if it is none or has no end. -/
def Single.fraction (x : Single) : ℚ :=
  match Decimal.BinaryFormat.single.decode x.bits.toNat with
  | .finite true significand exponent => -scaled significand exponent
  | .finite false significand exponent => scaled significand exponent
  | _ => 0

instance : ScoreNumber ℚ where
  zero := 0
  one := 1
  emptySum := 0
  ofCount n := n
  ofBoost := Single.fraction
  idf docFreq total :=
    if docFreq = 0 ∨ total = 0 then 0 else (total - docFreq + 1 / 2) / (docFreq + 1 / 2)
  mean total parts := total / parts
  saturation := 6 / 5
  lengthWeight := 3 / 4
  isZero x := decide (x = 0)
  isPositive x := decide (0 < x)
  order := compare
  text := toString

instance : ExactScore ℚ where
  emptySum_add := zero_add
  add_zero := add_zero
  order := inferInstanceAs (Std.TransCmp (compare : ℚ → ℚ → Ordering))

instance : ExactSum ℚ where
  add_comm := add_comm
  add_assoc := add_assoc
  mul_isZero x y z hy := by
    have hzero : y = 0 := of_decide_eq_true hy
    rw [hzero, mul_zero, zero_mul]
    rfl

instance : ExactProduct ℚ where
  mul_comm := mul_comm
  mul_assoc := mul_assoc
  mul_add := mul_add
  one_mul := one_mul
  mul_zero := mul_zero

instance : ExactCount ℚ where
  ofCount_zero := Nat.cast_zero
  ofCount_succ n := by
    show ((n + 1 : Nat) : ℚ) = 1 + (n : ℚ)
    rw [Nat.cast_succ, add_comm]
  one_div_one := div_one 1

end TextSearch
