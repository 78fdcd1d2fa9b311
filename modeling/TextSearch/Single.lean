import TextSearch.Decimal.Reading

/-!
# Numbers of 32 bits

A number of 32 bits is what is stored of it: a sign, an exponent and a fraction. So
the two zeros differ, and so do the two signs of a value that is no number.
Arithmetic is that of binary numbers, rounded once. A value that is no number
passes through every operation as it is, the left one first; an operation on
numbers that has no result gives the negative value that is no number.
-/

namespace TextSearch

/-- A number of 32 bits. -/
structure Single where
  /-- What is stored. -/
  bits : UInt32
  deriving DecidableEq, Hashable, Repr, Inhabited

namespace Single

/-- Whether what is stored is no number. -/
def isNaN (x : Single) : Bool := 0x7f800000 < (x.bits &&& 0x7fffffff)

/-- The value of a number. Here the values that are no number are all one. -/
def value (x : Single) : Float32 := Float32.ofBits x.bits

/-- What an operation without a result gives. -/
def undefined : Single := ⟨0xffc00000⟩

/-- Store the result of an operation. -/
def ofValue (v : Float32) : Single := if v.isNaN then undefined else ⟨v.toBits⟩

/-- Narrow a number of 64 bits. -/
def ofDouble (x : Float) : Single := ofValue x.toFloat32

/-- The number nearest to a count of at most 64 bits. -/
def ofCount (n : Nat) : Single := ofValue n.toUInt64.toFloat32

/-- An operation on values as one on what is stored. -/
@[inline] def combine (op : Float32 → Float32 → Float32) (x y : Single) : Single :=
  if x.isNaN then x else if y.isNaN then y else ofValue (op x.value y.value)

instance : Add Single := ⟨combine (· + ·)⟩
instance : Sub Single := ⟨combine (· - ·)⟩
instance : Mul Single := ⟨combine (· * ·)⟩
instance : Div Single := ⟨combine (· / ·)⟩

/-- Whether a number is one of the two zeros. -/
def isZero (x : Single) : Bool := x.value == 0

/-- Whether a number is greater than zero. -/
def isPositive (x : Single) : Bool := decide (0 < x.value)

/-- The rank of a number among all that can be stored: those with a minus sign by falling
magnitude, then the others by rising magnitude. -/
def rank (x : Single) : Nat :=
  let bits := x.bits.toNat
  if bits < 0x80000000 then bits + 0x80000000 else 0xffffffff - bits

/-- No two numbers have the same rank. -/
theorem rank_inj {x y : Single} : x.rank = y.rank ↔ x = y := by
  refine ⟨fun h => ?_, fun h => h ▸ rfl⟩
  have hx := x.bits.toNat_lt
  have hy := y.bits.toNat_lt
  have hbits : x.bits.toNat = y.bits.toNat := by
    simp only [rank] at h
    split at h <;> split at h <;> omega
  cases x
  cases y
  exact congrArg Single.mk (UInt32.toNat_inj.1 hbits)

/-- The text of a number. -/
def text (x : Single) : String := Decimal.BinaryFormat.single.text x.bits.toNat

/-- The number that a whole text writes. -/
def ofText? (text : String) : Option Single :=
  (Decimal.BinaryFormat.single.read? text).map fun bits => ⟨bits.toUInt32⟩

end Single

end TextSearch
