import TextSearch.Decimal.Shortest

/-!
# Reading decimal text

A number is written as an optional sign, digits with at most one point among
them, and an optional exponent; `inf`, `infinity` and `nan` are numbers too,
whatever the case of their letters. Nothing else may surround or separate the
digits. The value is rounded once, to the nearest number of the format.
-/

namespace TextSearch.Decimal

/-- The value of a decimal digit. -/
def digitValue (c : Char) : Nat := c.toNat - '0'.toNat

/-- The integer that a list of digits writes. -/
def digitsValue (cs : List Char) : Nat := cs.foldl (fun n c => 10 * n + digitValue c) 0

/-- The digits at the front of a text, and what follows them. -/
def spanDigits (cs : List Char) : List Char × List Char :=
  (cs.takeWhile Char.isDigit, cs.dropWhile Char.isDigit)

/-- A sign at the front of a text, and what follows it. -/
def spanSign : List Char → Bool × List Char
  | '-' :: r => (true, r)
  | '+' :: r => (false, r)
  | r => (false, r)

/-- The signed integer that a whole text writes. -/
def readExponent? (cs : List Char) : Option Int :=
  let (negative, rest) := spanSign cs
  let (digits, after) := spanDigits rest
  if digits.isEmpty || !after.isEmpty then none
  else some (if negative then -(digitsValue digits : Int) else digitsValue digits)

/-- The number that a whole text without a sign writes in digits. -/
def readDigits? (cs : List Char) : Option Numeral :=
  let (whole, rest) := spanDigits cs
  let (places, rest) := match rest with
    | '.' :: r => spanDigits r
    | r => ([], r)
  let coefficient := digitsValue (whole ++ places)
  let shift : Int := places.length
  if whole.isEmpty && places.isEmpty then none
  else match rest with
    | [] => some ⟨coefficient, -shift⟩
    | c :: r =>
      if c = 'e' ∨ c = 'E' then (readExponent? r).map fun e => ⟨coefficient, e - shift⟩
      else none

/-- Past this many places before the point every number is infinite, and past as many zeros
after the point every number is zero, in a format of at most 64 bits. -/
def farPlaces : Int := 400

/-- The stored magnitude nearest to a decimal number. -/
def Numeral.round (n : Numeral) (f : BinaryFormat) : Nat :=
  let places := n.exponent + digitCount n.coefficient
  if n.coefficient = 0 then 0
  else if farPlaces < places then f.infinity
  else if places < -farPlaces then 0
  else f.roundRatio (n.coefficient * Nat.pow 10 n.exponent.toNat) (Nat.pow 10 (-n.exponent).toNat)

/-- The stored bits of the number that a whole text writes. -/
def BinaryFormat.read? (f : BinaryFormat) (text : String) : Option Nat :=
  let (negative, body) := spanSign text.toList
  let word := String.ofList (body.map Char.toLower)
  let magnitude :=
    if word = "inf" ∨ word = "infinity" then some f.infinity
    else if word = "nan" then some f.nan
    else (readDigits? body).map fun n => n.round f
  magnitude.map (f.withSign negative)

/-- The number of 64 bits that a whole text writes. -/
def readDouble? (text : String) : Option Float :=
  (BinaryFormat.double.read? text).map fun bits => Float.ofBits bits.toUInt64

end TextSearch.Decimal
