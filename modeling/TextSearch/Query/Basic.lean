import TextSearch.Index.Snapshot
import TextSearch.Query.MultiTerm
import TextSearch.Plan.Basic

/-!
# Queries

A query is a tree. Its leaves ask for terms: plain or marked ones, those that
occur often enough in a document, and selections of terms. Boosts and boolean
combinations stand for documents. Span queries stand for places in documents:
their leaves ask for terms again, and are joined by union, by proximity and by
filters. A deferred query carries a plan to be carried out when the query is
bound to an index; it is shown as deferred and otherwise stands for the query
that it wraps.
-/

namespace TextSearch

/-- The part a clause plays in a boolean query. -/
inductive Occur where
  | must
  | should
  | mustNot
  deriving DecidableEq, Repr, Hashable, Inhabited

namespace Occur

/-- The sign in front of a clause. -/
def sign : Occur → String
  | must => "+"
  | should => ""
  | mustNot => "-"

end Occur

/-- A query. -/
inductive Query where
  /-- Documents with a term. -/
  | term (term : Term)
  /-- Documents with a term that carries a mark. -/
  | markedTerm (term : Term) (mark : Mark)
  /-- Documents in which a term occurs often enough. A lookup of the term may be carried along;
  it is no part of what the query means. -/
  | frequentTerm (term : Term) (least : Threshold) (carried : Option TermLookup)
  /-- Documents with some selected term. -/
  | multiTerm (terms : MultiTerm)
  /-- The documents of a query, with their scores multiplied. -/
  | boost (query : Query) (factor : Single)
  /-- A boolean combination. -/
  | boolean (clauses : List (Occur × Query))
  /-- The places of a term. -/
  | spanTerm (term : Term)
  /-- The places of a term in documents in which it occurs often enough. -/
  | frequentSpanTerm (term : Term) (least : Threshold) (carried : Option TermLookup)
  /-- The places of the selected terms. -/
  | spanMultiTerm (terms : MultiTerm)
  /-- The places of all clauses. -/
  | spanOr (field : String) (clauses : List Query)
  /-- The places where all clauses come within a distance of each other. -/
  | spanNear (field : String) (clauses : List Query) (slop : UInt32) (inOrder : Bool)
  /-- The places without payloads. -/
  | withoutPayload (query : Query)
  /-- The places in documents that have enough of them. -/
  | frequentSpan (query : Query) (least : Threshold)
  /-- A query with a plan to be carried out later. -/
  | deferred (query : Query) (plan : Plan)
  /-- No documents. -/
  | nothing

namespace Query

instance : Inhabited Query := ⟨nothing⟩

/-- Whether a query stands for places in documents. -/
def isSpan : Query → Bool
  | spanTerm _ => true
  | frequentSpanTerm .. => true
  | spanMultiTerm _ => true
  | spanOr .. => true
  | spanNear .. => true
  | withoutPayload _ => true
  | frequentSpan .. => true
  | deferred q _ => q.isSpan
  | _ => false

/-- The field that a span query is on. -/
def spanField? : Query → Option String
  | spanTerm t => some t.field
  | frequentSpanTerm t _ _ => some t.field
  | spanMultiTerm m => some m.field
  | spanOr field _ => some field
  | spanNear field _ _ _ => some field
  | withoutPayload q => q.spanField?
  | frequentSpan q _ => q.spanField?
  | deferred q _ => q.spanField?
  | _ => none

/-- Whether a query is a boolean combination. -/
def isBoolean : Query → Bool
  | boolean _ => true
  | _ => false

mutual

/-- The written form of a query. -/
def display : Query → String
  | term t => t.display
  | markedTerm t mark => t.display ++ "#" ++ mark.label
  | frequentTerm t least _ => t.display ++ s!"/a{least.value}"
  | multiTerm m => m.display
  | boost q factor => "(" ++ q.display ++ ")^" ++ factor.text
  | boolean clauses => String.intercalate " " (displayClauses clauses)
  | spanTerm t => t.display
  | frequentSpanTerm t least _ => t.display ++ s!"/a{least.value}"
  | spanMultiTerm m => "SpanMultiTermQueryWrapper(" ++ m.display ++ ")"
  | spanOr _ clauses => "spanOr([" ++ String.intercalate ", " (displayAll clauses) ++ "])"
  | spanNear _ clauses slop inOrder =>
    "spanNear([" ++ String.intercalate ", " (displayAll clauses) ++ s!"], {slop}, {inOrder})"
  | withoutPayload q => "SpanEmptyPayloadCheck(" ++ q.display ++ ")"
  | frequentSpan q least => "SpanMinFrequencyFilter(" ++ q.display ++ s!", {least.value})"
  | deferred q _ => "LazyTraverserQuery(" ++ q.display ++ ")"
  | nothing => "MatchNoDocsQuery"

/-- The written forms of clauses with their signs. A boolean combination is put in
parentheses. -/
def displayClauses : List (Occur × Query) → List String
  | [] => []
  | (o, q) :: rest =>
    (o.sign ++ if q.isBoolean then "(" ++ q.display ++ ")" else q.display) ::
      displayClauses rest

/-- The written forms of queries. -/
def displayAll : List Query → List String
  | [] => []
  | q :: rest => q.display :: displayAll rest

end

theorem displayClauses_eq_map (clauses : List (Occur × Query)) :
    displayClauses clauses = clauses.map fun c =>
      c.1.sign ++ if c.2.isBoolean then "(" ++ c.2.display ++ ")" else c.2.display := by
  induction clauses with
  | nil => rfl
  | cons c rest ih => rw [List.map_cons, ← ih]; rfl

theorem displayAll_eq_map (qs : List Query) : displayAll qs = qs.map display := by
  induction qs with
  | nil => rfl
  | cons q rest ih => rw [List.map_cons, ← ih]; rfl

/-- The clauses of a boolean combination that play a part. -/
def clausesOf (o : Occur) (clauses : List (Occur × Query)) : List Query :=
  (clauses.filter fun c => c.1 == o).map (·.2)

end Query

end TextSearch
