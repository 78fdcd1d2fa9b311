import TextSearch.Query.Basic

/-!
# Equality of queries

Two queries are the same if they ask for the same thing: deferral is looked
through at every depth, and lookups that are carried along do not count. Marks
are told apart by identity, and boost factors by their bits, so that every query
is the same as itself. Queries that are the same have the same hash.
-/

namespace TextSearch

namespace Query

/-- The query inside all deferrals around it. -/
def peel : Query → Query
  | deferred q _ => q.peel
  | q => q

mutual

/-- Whether two queries ask for the same thing. -/
def same : Query → Query → Bool
  | term t, other =>
    match other.peel with
    | term u => t == u
    | _ => false
  | markedTerm t mark, other =>
    match other.peel with
    | markedTerm u mark' => t == u && mark.same mark'
    | _ => false
  | frequentTerm t least _, other =>
    match other.peel with
    | frequentTerm u least' _ => t == u && least == least'
    | _ => false
  | multiTerm m, other =>
    match other.peel with
    | multiTerm n => m == n
    | _ => false
  | boost q factor, other =>
    match other.peel with
    | boost r factor' => factor == factor' && q.same r
    | _ => false
  | boolean clauses, other =>
    match other.peel with
    | boolean clauses' => sameClauses clauses clauses'
    | _ => false
  | spanTerm t, other =>
    match other.peel with
    | spanTerm u => t == u
    | _ => false
  | frequentSpanTerm t least _, other =>
    match other.peel with
    | frequentSpanTerm u least' _ => t == u && least == least'
    | _ => false
  | spanMultiTerm m, other =>
    match other.peel with
    | spanMultiTerm n => m == n
    | _ => false
  | spanOr field clauses, other =>
    match other.peel with
    | spanOr field' clauses' => field == field' && sameAll clauses clauses'
    | _ => false
  | spanNear field clauses slop inOrder, other =>
    match other.peel with
    | spanNear field' clauses' slop' inOrder' =>
      field == field' && sameAll clauses clauses' && slop == slop' && inOrder == inOrder'
    | _ => false
  | withoutPayload q, other =>
    match other.peel with
    | withoutPayload r => q.same r
    | _ => false
  | frequentSpan q least, other =>
    match other.peel with
    | frequentSpan r least' => q.same r && least == least'
    | _ => false
  | deferred q _, other => q.same other
  | nothing, other =>
    match other.peel with
    | nothing => true
    | _ => false

/-- Whether clauses are the same, one by one. -/
def sameClauses : List (Occur × Query) → List (Occur × Query) → Bool
  | [], others => others.isEmpty
  | (o, q) :: rest, others =>
    match others with
    | (o', r) :: rest' => q.same r && o == o' && sameClauses rest rest'
    | [] => false

/-- Whether queries are the same, one by one. -/
def sameAll : List Query → List Query → Bool
  | [], others => others.isEmpty
  | q :: rest, others =>
    match others with
    | r :: rest' => q.same r && sameAll rest rest'
    | [] => false

end

instance : BEq Query := ⟨same⟩

mutual

/-- The hash of what a query asks for. -/
def code : Query → UInt64
  | term t => mixHash 1 (hash t)
  | markedTerm t mark => mixHash 2 (mixHash (hash t) (hash mark.id))
  | frequentTerm t least _ => mixHash 3 (mixHash (hash t) (hash least))
  | multiTerm m => mixHash 4 (hash m)
  | boost q factor => mixHash 5 (mixHash (hash factor) q.code)
  | boolean clauses => mixHash 6 (codeClauses clauses)
  | spanTerm t => mixHash 7 (hash t)
  | frequentSpanTerm t least _ => mixHash 8 (mixHash (hash t) (hash least))
  | spanMultiTerm m => mixHash 9 (hash m)
  | spanOr field clauses => mixHash 10 (mixHash (hash field) (codeAll clauses))
  | spanNear field clauses slop inOrder =>
    mixHash 11 (mixHash (mixHash (hash field) (codeAll clauses))
      (mixHash (hash slop) (hash inOrder)))
  | withoutPayload q => mixHash 12 q.code
  | frequentSpan q least => mixHash 13 (mixHash q.code (hash least))
  | deferred q _ => q.code
  | nothing => 14

/-- The hash of what clauses ask for. -/
def codeClauses : List (Occur × Query) → UInt64
  | [] => 15
  | (o, q) :: rest => mixHash (mixHash (hash o) q.code) (codeClauses rest)

/-- The hash of what queries ask for. -/
def codeAll : List Query → UInt64
  | [] => 16
  | q :: rest => mixHash q.code (codeAll rest)

end

instance : Hashable Query := ⟨code⟩

end Query

end TextSearch
