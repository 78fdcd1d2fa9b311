import TextSearch.Text.Glob
import TextSearch.Threshold

/-!
# Multi-term queries

A multi-term query stands for all terms of a field that it selects: those with a
given beginning, those that match a wildcard pattern, or those between two
bounds. It may ask for a minimum frequency of every selected term.
-/

namespace TextSearch

/-- How the terms of a multi-term query are selected. -/
inductive TermSelection where
  /-- Texts that begin with another. -/
  | beginning (start : String)
  /-- Texts that match a wildcard pattern. -/
  | wildcard (pattern : String)
  /-- Texts between two bounds by code point; a missing bound is open. -/
  | range (lower upper : Option String) (withLower withUpper : Bool)
  deriving DecidableEq, Repr, Hashable

namespace TermSelection

/-- Whether a text is not before a lower bound, or lies after it when the bound itself is out. -/
def isAbove (lower : Option String) (inclusive : Bool) (text : String) : Bool :=
  lower.all fun l => if inclusive then decide (l ≤ text) else decide (l < text)

/-- Whether a text is not after an upper bound, or lies before it when the bound itself is out. -/
def isBelow (upper : Option String) (inclusive : Bool) (text : String) : Bool :=
  upper.all fun u => if inclusive then decide (text ≤ u) else decide (text < u)

/-- Whether a text is selected. -/
def selects : TermSelection → String → Bool
  | beginning start, text => start.toList.isPrefixOf text.toList
  | wildcard pattern, text => (Glob.ofWildcard pattern.toList).accepts text.toList
  | range lower upper withLower withUpper, text =>
    isAbove lower withLower text && isBelow upper withUpper text

/-- The written form of a selection. -/
def display : TermSelection → String
  | beginning start => start ++ "*"
  | wildcard pattern => pattern
  | range lower upper withLower withUpper =>
    (if withLower then "[" else "\x7b") ++ lower.getD "*" ++ " TO " ++ upper.getD "*" ++
      (if withUpper then "]" else "\x7d")

end TermSelection

/-- A query for all terms of a field that are selected. -/
structure MultiTerm where
  /-- The field of the terms. -/
  field : String
  /-- How the terms are selected. -/
  selection : TermSelection
  /-- How often a selected term has to occur in a document. -/
  least : Option Threshold
  deriving DecidableEq, Repr, Hashable

namespace MultiTerm

/-- Whether a text of the field is selected. -/
def selects (m : MultiTerm) (text : String) : Bool := m.selection.selects text

/-- Whether the terms lie between bounds. -/
def isRange (m : MultiTerm) : Bool :=
  match m.selection with
  | .range .. => true
  | _ => false

/-- The same selection without a minimum frequency. -/
def withoutMinimum (m : MultiTerm) : MultiTerm := { m with least := none }

/-- The same selection with a minimum frequency. -/
def withMinimum (m : MultiTerm) (least : Threshold) : MultiTerm := { m with least := some least }

/-- The written form of a query. -/
def display (m : MultiTerm) : String :=
  m.field ++ ":" ++ m.selection.display ++ m.least.elim "" fun t => s!"/a{t.value}"

end MultiTerm

end TextSearch
