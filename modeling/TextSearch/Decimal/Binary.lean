/-!
# Binary formats and exact rounding

A binary format stores a number as a sign, an exponent field and a fraction
field. `BinaryFormat.decode` reads the stored bits as an integer multiple of a
power of two; `BinaryFormat.roundRatio` goes the other way and gives the stored
magnitude nearest to an exact quotient, a tie going to the even significand.
All arithmetic is on natural numbers, so there is exactly one rounding.
-/

namespace TextSearch.Decimal

/-- A binary interchange format, given by the widths of its fields. -/
structure BinaryFormat where
  /-- Width of the fraction field. -/
  fractionBits : Nat
  /-- Width of the exponent field. -/
  exponentBits : Nat
  deriving DecidableEq, Repr

/-- A stored number: a magnitude is `significand * 2 ^ exponent`. -/
inductive BinaryValue where
  | nan
  | infinite (negative : Bool)
  | finite (negative : Bool) (significand : Nat) (exponent : Int)
  deriving DecidableEq, Repr

namespace BinaryFormat

/-- The format of 32 bits. -/
def single : BinaryFormat := ⟨23, 8⟩

/-- The format of 64 bits. -/
def double : BinaryFormat := ⟨52, 11⟩

/-- The place value of the last bit of the smallest numbers, as a power of two. -/
def leastExponent (f : BinaryFormat) : Int :=
  2 - (Nat.pow 2 (f.exponentBits - 1) : Int) - f.fractionBits

/-- The stored magnitude of infinity; every greater magnitude is no number. -/
def infinity (f : BinaryFormat) : Nat := (Nat.pow 2 f.exponentBits - 1) * Nat.pow 2 f.fractionBits

/-- The stored magnitude of the canonical value that is no number. -/
def nan (f : BinaryFormat) : Nat := f.infinity + Nat.pow 2 (f.fractionBits - 1)

/-- The bit that marks a negative number. -/
def signBit (f : BinaryFormat) : Nat := Nat.pow 2 (f.fractionBits + f.exponentBits)

/-- Put a sign on a stored magnitude. -/
def withSign (f : BinaryFormat) (negative : Bool) (magnitude : Nat) : Nat :=
  if negative then f.signBit + magnitude else magnitude

/-- The number that stored bits stand for. -/
def decode (f : BinaryFormat) (bits : Nat) : BinaryValue :=
  let negative := f.signBit ≤ bits
  let magnitude := bits % f.signBit
  if f.infinity < magnitude then .nan
  else if magnitude = f.infinity then .infinite negative
  else
    let fraction := magnitude % Nat.pow 2 f.fractionBits
    match magnitude / Nat.pow 2 f.fractionBits with
    | 0 => .finite negative fraction f.leastExponent
    | e + 1 => .finite negative (Nat.pow 2 f.fractionBits + fraction) (f.leastExponent + e)

/-- The quotient of two numbers and a power of two, as numerator and denominator. -/
def scaled (num den : Nat) (exponent : Int) : Nat × Nat :=
  match exponent with
  | .ofNat e => (num, den * Nat.pow 2 e)
  | .negSucc e => (num * Nat.pow 2 (e + 1), den)

/-- The integer nearest to a quotient, a tie going to the even one. -/
def nearestEven (num den : Nat) : Nat :=
  let q := num / den
  let r := num % den
  if den < 2 * r ∨ (den = 2 * r ∧ q % 2 = 1) then q + 1 else q

/-- The place value at which a positive quotient has as many bits as the format keeps. -/
def placeOf (f : BinaryFormat) (num den : Nat) : Int :=
  let low : Int := (num.log2 : Int) - den.log2 - 1 - f.fractionBits
  let place := max low f.leastExponent
  let s := scaled num den place
  if Nat.pow 2 (f.fractionBits + 1) ≤ s.1 / s.2 then place + 1 else place

/-- The stored magnitude nearest to `num / den`, which becomes infinity past the greatest
finite number. -/
def roundRatio (f : BinaryFormat) (num den : Nat) : Nat :=
  if num = 0 then 0
  else
    let place := f.placeOf num den
    let s := scaled num den place
    let steps := (place - f.leastExponent).toNat
    min (steps * Nat.pow 2 f.fractionBits + nearestEven s.1 s.2) f.infinity

end BinaryFormat

end TextSearch.Decimal
