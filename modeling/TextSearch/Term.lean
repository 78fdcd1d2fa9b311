/-!
# Terms

An index is keyed by terms: a text within a field. The text is expected in its
indexed form, so nothing here lowercases or splits it. Terms are ordered by
field and then by text, both by code point.
-/

namespace TextSearch

/-- A text within a field. -/
structure Term where
  /-- The field the text belongs to. -/
  field : String
  /-- The text, in its indexed form. -/
  text : String
  deriving DecidableEq, Repr, Hashable, Inhabited

namespace Term

/-- A term is written as its field and its text around a colon. -/
def display (t : Term) : String := t.field ++ ":" ++ t.text

/-- Terms come in the order of their fields, and of their texts within a field. -/
def le (s t : Term) : Bool :=
  decide (s.field < t.field) || (s.field == t.field && decide (s.text ≤ t.text))

/-- The members of a list in order, each once. -/
def sorted (ts : List Term) : List Term :=
  ((ts.mergeSort fun s t => s.le t).foldr
    (fun t rest => if rest.head? = some t then rest else t :: rest) [])

end Term

end TextSearch
