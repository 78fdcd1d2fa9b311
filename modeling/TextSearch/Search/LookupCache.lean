import TextSearch.Index.Snapshot

/-!
# Shared lookups

A searcher looks every term up at most once and shares the result, except that a
lookup which was made without totals is made again when they are needed. A query
may bring its own lookup, which is used if it belongs to the snapshot and has
the totals that are needed.
-/

namespace TextSearch

/-- A lookup with the number of lookups that were made before it, which tells it apart. -/
structure SharedLookup where
  /-- The number of lookups made before. -/
  serial : Nat
  /-- The lookup. -/
  lookup : TermLookup
  deriving DecidableEq, Repr

/-- The lookups that a searcher shares. -/
structure LookupCache where
  /-- The latest lookup of every term, the latest term first. -/
  shared : List (Term × SharedLookup)
  /-- The number of lookups made so far. -/
  made : Nat
  deriving DecidableEq, Repr

namespace LookupCache

/-- A cache without lookups. -/
def empty : LookupCache := ⟨[], 0⟩

instance : Inhabited LookupCache := ⟨empty⟩

/-- Whether a lookup has the totals that are needed. -/
def hasTotals (l : TermLookup) (counted : Bool) : Bool := l.isCounted || !counted

/-- The shared lookup of a term, if it has the totals that are needed. -/
def find? (c : LookupCache) (t : Term) (counted : Bool) : Option SharedLookup :=
  (c.shared.lookup t).filter fun l => hasTotals l.lookup counted

/-- Look a term up and share the result. -/
def make (s : Snapshot) (t : Term) (counted : Bool) (c : LookupCache) :
    SharedLookup × LookupCache :=
  let l : SharedLookup := ⟨c.made, .ofSnapshot s t counted⟩
  (l, ⟨(t, l) :: c.shared, c.made + 1⟩)

/-- The lookup of a term, shared or new. -/
def get (s : Snapshot) (t : Term) (counted : Bool) (c : LookupCache) :
    SharedLookup × LookupCache :=
  match c.find? t counted with
  | some l => (l, c)
  | none => c.make s t counted

/-- Whether a lookup that a query brings can be used. -/
def fits (s : Snapshot) (counted : Bool) (l : TermLookup) : Bool :=
  l.snapshot == s.id && hasTotals l counted

/-- The lookup that a query brings if it can be used, and the shared one otherwise. The first
part of the answer says whether it was the former. -/
def resolve (s : Snapshot) (t : Term) (carried : Option TermLookup) (counted : Bool)
    (c : LookupCache) : (Bool × TermLookup) × LookupCache :=
  match carried.filter (fits s counted) with
  | some l => ((true, l), c)
  | none =>
    let (l, c) := c.get s t counted
    ((false, l.lookup), c)

end LookupCache

end TextSearch
