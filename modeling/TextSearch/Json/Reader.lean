import TextSearch.Json.Value

/-!
# Reading JSON

The grammar is the strict one: no comments, no trailing commas, no leading zeros,
no control characters inside texts, and nothing but blanks after the value. The
recursion counts down a number of steps that is twice the length of the text,
which is enough because no two steps in a row leave the text as it is.
-/

namespace TextSearch.Json

/-- Skip blanks: space, tab, line feed and carriage return. -/
def skipBlanks (cs : List Char) : List Char :=
  cs.dropWhile fun c => c == ' ' || c == '\t' || c == '\n' || c == '\r'

/-- The value of a hexadecimal digit. -/
def hexDigit? (c : Char) : Option Nat :=
  if c.isDigit then some (c.toNat - '0'.toNat)
  else if 'a' ≤ c ∧ c ≤ 'f' then some (c.toNat - 'a'.toNat + 10)
  else if 'A' ≤ c ∧ c ≤ 'F' then some (c.toNat - 'A'.toNat + 10)
  else none

/-- A code unit of four hexadecimal digits. -/
def readUnit? : List Char → Option (Nat × List Char)
  | a :: b :: c :: d :: rest => do
    let a ← hexDigit? a
    let b ← hexDigit? b
    let c ← hexDigit? c
    let d ← hexDigit? d
    some (((a * 16 + b) * 16 + c) * 16 + d, rest)
  | _ => none

/-- A code unit right after its escape mark. -/
def readEscapedUnit? : List Char → Option (Nat × List Char)
  | '\\' :: 'u' :: rest => readUnit? rest
  | _ => none

/-- The character of a short escape. -/
def shortEscape? (c : Char) : Option Char :=
  if c = '"' ∨ c = '\\' ∨ c = '/' then some c
  else if c = 'b' then some (Char.ofNat 8)
  else if c = 'f' then some (Char.ofNat 12)
  else if c = 'n' then some '\n'
  else if c = 'r' then some '\r'
  else if c = 't' then some '\t'
  else none

/-- The character that two halves of a surrogate pair stand for. -/
def pairChar (high low : Nat) : Char :=
  Char.ofNat (0x10000 + (high - 0xD800) * 0x400 + (low - 0xDC00))

/-- A text after its opening quote, characters collected in reverse; none in place of the
characters once half of a surrogate pair has stood alone. -/
def readText? : Nat → Option (List Char) → List Char → Option (Text × List Char)
  | 0, _, _ => none
  | _ + 1, _, [] => none
  | _ + 1, acc, '"' :: rest => some (acc.map fun cs => String.ofList cs.reverse, rest)
  | steps + 1, acc, '\\' :: 'u' :: rest => do
    let (unit, rest) ← readUnit? rest
    if 0xD800 ≤ unit ∧ unit < 0xDC00 then
      match readEscapedUnit? rest with
      | some (low, after) =>
        if 0xDC00 ≤ low ∧ low < 0xE000 then
          readText? steps (acc.map (pairChar unit low :: ·)) after
        else readText? steps none rest
      | none => readText? steps none rest
    else if 0xDC00 ≤ unit ∧ unit < 0xE000 then readText? steps none rest
    else readText? steps (acc.map (Char.ofNat unit :: ·)) rest
  | steps + 1, acc, '\\' :: c :: rest => do
    let c ← shortEscape? c
    readText? steps (acc.map (c :: ·)) rest
  | steps + 1, acc, c :: rest =>
    if c.toNat < 0x20 ∨ c = '\\' then none else readText? steps (acc.map (c :: ·)) rest

/-- An exponent, if the text goes on with one. -/
def readNumberExponent? : List Char → Option (Option Int × List Char)
  | c :: rest =>
    if c = 'e' ∨ c = 'E' then
      let (negative, rest) := Decimal.spanSign rest
      let (digits, rest) := Decimal.spanDigits rest
      if digits.isEmpty then none
      else
        let e : Int := Decimal.digitsValue digits
        some (some (if negative then -e else e), rest)
    else some (none, c :: rest)
  | [] => some (none, [])

/-- The places after a point, if the text goes on with one. -/
def readPlaces? : List Char → Option (Option (List Char) × List Char)
  | '.' :: rest =>
    let (digits, rest) := Decimal.spanDigits rest
    if digits.isEmpty then none else some (some digits, rest)
  | rest => some (none, rest)

/-- A number at the front of a text. -/
def readNumber? (cs : List Char) : Option (Number × List Char) := do
  let (negative, cs) := match cs with
    | '-' :: rest => (true, rest)
    | rest => (false, rest)
  let (whole, rest) := Decimal.spanDigits cs
  if whole.isEmpty || (whole.head? == some '0' && decide (1 < whole.length)) then none
  else
    let (places, rest) ← readPlaces? rest
    let (exponent, rest) ← readNumberExponent? rest
    some (⟨negative, whole, places, exponent⟩, rest)

mutual

/-- A value at the front of a text. -/
def readValue? : Nat → List Char → Option (Value × List Char)
  | 0, _ => none
  | steps + 1, cs =>
    match skipBlanks cs with
    | 'n' :: 'u' :: 'l' :: 'l' :: rest => some (.null, rest)
    | 't' :: 'r' :: 'u' :: 'e' :: rest => some (.bool true, rest)
    | 'f' :: 'a' :: 'l' :: 's' :: 'e' :: rest => some (.bool false, rest)
    | '"' :: rest => (readText? steps (some []) rest).map fun (t, r) => (.text t, r)
    | '[' :: rest =>
      match skipBlanks rest with
      | ']' :: rest => some (.list [], rest)
      | rest => (readItems? steps rest).map fun (items, r) => (.list items, r)
    | '\x7b' :: rest =>
      match skipBlanks rest with
      | '\x7d' :: rest => some (.record [], rest)
      | rest => (readMembers? steps rest).map fun (members, r) => (.record members, r)
    | rest => (readNumber? rest).map fun (n, r) => (.number n, r)

/-- The items of a list from the next one on, and its closing bracket. -/
def readItems? : Nat → List Char → Option (List Value × List Char)
  | 0, _ => none
  | steps + 1, cs => do
    let (item, rest) ← readValue? steps cs
    match skipBlanks rest with
    | ']' :: rest => some ([item], rest)
    | ',' :: rest =>
      let (items, rest) ← readItems? steps rest
      some (item :: items, rest)
    | _ => none

/-- The members of a record from the next one on, and its closing brace. -/
def readMembers? : Nat → List Char → Option (List (Text × Value) × List Char)
  | 0, _ => none
  | steps + 1, cs => do
    let (key, rest) ← match skipBlanks cs with
      | '"' :: rest => readText? steps (some []) rest
      | _ => none
    let rest ← match skipBlanks rest with
      | ':' :: rest => some rest
      | _ => none
    let (v, rest) ← readValue? steps rest
    match skipBlanks rest with
    | '\x7d' :: rest => some ([(key, v)], rest)
    | ',' :: rest =>
      let (members, rest) ← readMembers? steps rest
      some ((key, v) :: members, rest)
    | _ => none

end

/-- The value that a whole text writes. -/
def read? (text : String) : Option Value := do
  let cs := text.toList
  let (v, rest) ← readValue? (2 * cs.length + 2) cs
  if (skipBlanks rest).isEmpty then some v else none

end TextSearch.Json
