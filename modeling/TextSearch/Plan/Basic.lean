import TextSearch.Mapping.Basic
import TextSearch.Plan.Rule

/-!
# Plans

A plan is all that a traversal depends on besides the query: its rules, what it
is asked to do beyond them, and the mapping and limits that it runs under. A
query may carry a plan along, to be carried out when it is bound to an index.
-/

namespace TextSearch

/-- What a traversal depends on besides the query. -/
structure Plan where
  /-- The rules, in the order in which they are tried. -/
  chain : Chain
  /-- What the traversal is asked to do beyond its rules. -/
  options : TraversalOptions
  /-- The mapping and the limits. -/
  context : SearchContext

end TextSearch
