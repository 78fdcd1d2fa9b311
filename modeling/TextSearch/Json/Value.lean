import TextSearch.Single

/-!
# JSON values

A value keeps everything that a reader of configurations may still object to:
numbers as they were written, members in their order with repeated keys, and
texts that hold half of a surrogate pair. Whether such a value is acceptable
depends on where it stands, because parts of a text that nothing asks for only
have to be well formed.
-/

namespace TextSearch.Json

/-- A decoded text; none when it holds half of a surrogate pair. -/
abbrev Text := Option String

/-- A number as it was written. -/
structure Number where
  /-- Whether it has a minus sign. -/
  negative : Bool
  /-- The digits before the point. -/
  whole : List Char
  /-- The digits after the point, if it has one. -/
  places : Option (List Char)
  /-- The exponent, if it has one. -/
  exponent : Option Int
  deriving DecidableEq, Repr

/-- A value. -/
inductive Value where
  | null
  | bool (b : Bool)
  | number (n : Number)
  | text (t : Text)
  | list (items : List Value)
  | record (members : List (Text × Value))

namespace Number

/-- Whether a number has neither a point nor an exponent. -/
def isInteger (n : Number) : Bool := n.places.isNone && n.exponent.isNone

/-- The integer that the digits before the point write. -/
def magnitude (n : Number) : Nat := Decimal.digitsValue n.whole

/-- A natural number below a limit. A number with a sign is none, not even zero. -/
def toNat? (limit : Nat) (n : Number) : Option Nat :=
  if n.isInteger && !n.negative && decide (n.magnitude < limit) then some n.magnitude else none

/-- Take in digits as long as 64 bits hold the integer they write. What is given is the integer
and the digits that are left. -/
def takeDigits (m : Nat) : List Char → Nat × List Char
  | [] => (m, [])
  | c :: rest =>
    let next := 10 * m + Decimal.digitValue c
    if next < 0x10000000000000000 then takeDigits next rest else (m, c :: rest)

/-- The significand of 64 bits and the exponent that a number is computed from. Digits that are
left of those before the point still move it; those that are left behind it do not count. -/
def scientific (n : Number) : Nat × Int :=
  let places := n.places.getD []
  let (m, before) := takeDigits 0 n.whole
  let (m, behind) := takeDigits m places
  (m, n.exponent.getD 0 + before.length - places.length + behind.length)

/-- The greatest exponent of a power of ten that 64 bits hold. -/
def greatestPower : Nat := 308

/-- The number of 64 bits nearest to a power of ten. -/
def powerOfTen (e : Nat) : Float :=
  Float.ofBits (Decimal.Numeral.round ⟨1, e⟩ .double).toUInt64

/-- Divide by a power of ten, in steps of the greatest one that 64 bits hold. -/
def divideByPower (x : Float) (e : Nat) : Float :=
  if e ≤ greatestPower then x / powerOfTen e
  else if x == 0 then x
  else divideByPower (x / powerOfTen greatestPower) (e - greatestPower)
termination_by e
decreasing_by simp only [greatestPower] at *; omega

/-- Multiply by a power of ten; none when the result is not finite. -/
def multiplyByPower? (x : Float) (e : Nat) : Option Float :=
  if x == 0 then some x
  else if e ≤ greatestPower then
    let y := x * powerOfTen e
    if y.isInf then none else some y
  else none

/-- The number at 64 bits; none when it is not finite. The significand is rounded first and
scaled by a power of ten then, so that the result need not be the nearest number. -/
def toDouble? (n : Number) : Option Float :=
  let (m, e) := n.scientific
  let x := m.toUInt64.toFloat
  let scaled := match e with
    | .ofNat e => multiplyByPower? x e
    | .negSucc e => some (divideByPower x (e + 1))
  scaled.map fun y => if n.negative then -y else y

/-- Whether the number is an integer that 64 bits hold exactly; zero with a sign is none. -/
def fitsWord (n : Number) : Bool :=
  n.isInteger &&
    (if n.negative then decide (0 < n.magnitude ∧ n.magnitude ≤ 0x8000000000000000)
    else decide (n.magnitude < 0x10000000000000000))

/-- The number at 32 bits, none when it is not finite at 64 bits. Integers of 64 bits are rounded
once, and all others are rounded to 64 bits first. -/
def toSingle? (n : Number) : Option Single :=
  if n.fitsWord then
    some ⟨(Decimal.BinaryFormat.single.withSign n.negative
      (Decimal.Numeral.round ⟨n.magnitude, 0⟩ .single)).toUInt32⟩
  else n.toDouble?.map .ofDouble

end Number

namespace Value

mutual

/-- The number of lists and records around the innermost value. -/
def depth : Value → Nat
  | list items => depthAll items + 1
  | record members => depthMembers members + 1
  | _ => 0

/-- The greatest depth of values. -/
def depthAll : List Value → Nat
  | [] => 0
  | v :: rest => max v.depth (depthAll rest)

/-- The greatest depth of members. -/
def depthMembers : List (Text × Value) → Nat
  | [] => 0
  | (_, v) :: rest => max v.depth (depthMembers rest)

end

mutual

/-- Whether all texts are whole and all numbers are finite. -/
def isSound : Value → Bool
  | number n => n.toDouble?.isSome
  | text t => t.isSome
  | list items => areSound items
  | record members => membersSound members
  | _ => true

/-- Whether values are sound. -/
def areSound : List Value → Bool
  | [] => true
  | v :: rest => v.isSound && areSound rest

/-- Whether members and their keys are sound. -/
def membersSound : List (Text × Value) → Bool
  | [] => true
  | (k, v) :: rest => k.isSome && v.isSound && membersSound rest

end

/-- The text of a value. -/
def toText? : Value → Option String
  | text t => t
  | _ => none

/-- The truth value of a value. -/
def toBool? : Value → Option Bool
  | bool b => some b
  | _ => none

/-- The natural number of a value, below a limit. -/
def toNat? (limit : Nat) : Value → Option Nat
  | number n => n.toNat? limit
  | _ => none

/-- The finite number of a value, at 32 bits. -/
def toSingle? : Value → Option Single
  | number n => n.toSingle?
  | _ => none

/-- The items of a list. -/
def toList? : Value → Option (List Value)
  | list items => some items
  | _ => none

/-- The members of a record whose keys are whole texts. -/
def toMembers? : Value → Option (List (String × Value))
  | record members => members.mapM fun (k, v) => k.map fun k => (k, v)
  | _ => none

/-- The values of named fields, none where one is missing. A value has its fields either as
members, no field twice and other members ignored, or as the items of a list in the order of the
names, with missing fields at the end only. -/
def toFields? (names : List String) : Value → Option (List (Option Value))
  | list items =>
    if items.length ≤ names.length then
      some ((items.map some) ++ List.replicate (names.length - items.length) none)
    else none
  | v => do
    let members ← v.toMembers?
    if names.all fun name => decide ((members.filter (·.1 == name)).length ≤ 1) then
      some (names.map fun name => members.lookup name)
    else none

end Value

/-- Read a field, or take its default where it is missing. -/
def fieldOr {α : Type} (default : α) (read : Value → Option α) : Option Value → Option α
  | none => some default
  | some v => read v

end TextSearch.Json
