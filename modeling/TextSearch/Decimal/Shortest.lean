import TextSearch.Decimal.Binary

/-!
# Shortest decimal text

A finite number is written with the fewest decimal digits that still read back
as the same number, and among those with the digits nearest to it. The search
goes over the decimal grids of one, two, three, … digits and looks on each at
the two neighbours of the number; on the first grid with a neighbour in the
interval of reals that round to the number, the nearer neighbour wins and a tie
goes up. The text is positional: no exponent, and no point after an integer.
-/

namespace TextSearch.Decimal

/-- A decimal number `coefficient * 10 ^ exponent`. -/
structure Numeral where
  /-- The digits, read as an integer. -/
  coefficient : Nat
  /-- The power of ten of the last digit. -/
  exponent : Int
  deriving DecidableEq, Repr, Inhabited

/-- The number of decimal digits of a number; zero has one. -/
def digitCount (n : Nat) : Nat := (Nat.toDigits 10 n).length

/-- The reals that round to a number, as numerators over one denominator. -/
structure RoundingInterval where
  /-- The least real that rounds to the number, or the limit of those. -/
  low : Nat
  /-- The number itself. -/
  mid : Nat
  /-- The greatest real that rounds to the number, or the limit of those. -/
  high : Nat
  /-- The common denominator. -/
  den : Nat
  /-- Whether the ends round to the number as well. -/
  closed : Bool

namespace RoundingInterval

/-- The interval of a number of a format. Below a power of two the next number is only half
as far away. The ends tie, so they belong to the even significand. -/
def ofFinite (f : BinaryFormat) (significand : Nat) (exponent : Int) : RoundingInterval :=
  let below := if significand = Nat.pow 2 f.fractionBits ∧ f.leastExponent < exponent then 1 else 2
  let up := Nat.pow 2 (exponent - 2).toNat
  { low := (4 * significand - below) * up
    mid := 4 * significand * up
    high := (4 * significand + 2) * up
    den := Nat.pow 2 (2 - exponent).toNat
    closed := significand % 2 = 0 }

/-- Whether a point lies in the interval. -/
def contains (i : RoundingInterval) (point : Nat) : Bool :=
  if i.closed then decide (i.low ≤ point ∧ point ≤ i.high)
  else decide (i.low < point ∧ point < i.high)

/-- The interval measured in units of `10 ^ exponent`. -/
def inUnits (i : RoundingInterval) (exponent : Int) : RoundingInterval :=
  let up := Nat.pow 10 (-exponent).toNat
  { low := i.low * up
    mid := i.mid * up
    high := i.high * up
    den := i.den * Nat.pow 10 exponent.toNat
    closed := i.closed }

/-- The nearer integer neighbour of the middle that lies in the interval; a tie goes up. -/
def neighbour? (i : RoundingInterval) : Option Nat :=
  let c := i.mid / i.den
  let down := i.contains (c * i.den)
  let up := i.contains ((c + 1) * i.den)
  if up && (!down || decide ((c + 1) * i.den - i.mid ≤ i.mid - c * i.den)) then some (c + 1)
  else if down then some c
  else none

/-- The number of digits before the decimal point of the middle; zero or negative when the
first digits after the point are zeros. -/
def magnitude (i : RoundingInterval) : Int :=
  if i.den ≤ i.mid then digitCount (i.mid / i.den)
  else 1 - digitCount ((i.den + i.mid - 1) / i.mid - 1)

/-- The first hit on the grids of `digits`, `digits + 1`, … digits. -/
def search (i : RoundingInterval) : Nat → Nat → Numeral
  | 0, digits =>
    let exponent := i.magnitude - digits
    let j := i.inUnits exponent
    ⟨j.mid / j.den, exponent⟩
  | more + 1, digits =>
    let exponent := i.magnitude - digits
    match (i.inUnits exponent).neighbour? with
    | some c => ⟨c, exponent⟩
    | none => i.search more (digits + 1)

/-- Seventeen digits are always enough for a number of 64 bits. -/
def shortest (i : RoundingInterval) : Numeral := i.search 17 1

end RoundingInterval

/-- Drop the zeros at the end of a list of digits, last digit first. -/
def dropZeros : List Char → Int → List Char × Int
  | '0' :: r, e => dropZeros r (e + 1)
  | ds, e => (ds, e)

/-- A positive decimal number in positional form. -/
def Numeral.positional (n : Numeral) : String :=
  let (reversed, exponent) := dropZeros (Nat.toDigits 10 n.coefficient).reverse n.exponent
  let digits := reversed.reverse
  match exponent with
  | .ofNat zeros => String.ofList (digits ++ List.replicate zeros '0')
  | .negSucc e =>
    let places := e + 1
    let whole := digits.length - places
    if digits.length ≤ places then
      String.ofList ('0' :: '.' :: List.replicate (places - digits.length) '0' ++ digits)
    else String.ofList (digits.take whole ++ '.' :: digits.drop whole)

/-- The text of the number that stored bits stand for. -/
def BinaryFormat.text (f : BinaryFormat) (bits : Nat) : String :=
  match f.decode bits with
  | .nan => "NaN"
  | .infinite negative => if negative then "-inf" else "inf"
  | .finite negative significand exponent =>
    let body :=
      if significand = 0 then "0"
      else (RoundingInterval.ofFinite f significand exponent).shortest.positional
    if negative then "-" ++ body else body

/-- The text of a number of 64 bits. -/
def doubleText (x : Float) : String := BinaryFormat.double.text x.toBits.toNat

end TextSearch.Decimal
