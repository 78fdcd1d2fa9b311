import TextSearch.Query.Build
import TextSearch.Query.Equality
import TextSearch.Plan.Traversal

/-!
# Grounding

Before a query is run it is grounded: it is changed against a snapshot until
nothing changes any more.
Selections of terms are expanded to the terms that the snapshot has, and
deferred queries are bound: a deferred query takes one step of its own, and if
that changes it its plan is carried out on the result.
-/

namespace TextSearch

/-- The distinct texts of the terms that a multi-term query selects from a snapshot. -/
def Snapshot.select (s : Snapshot) (m : MultiTerm) : Dictionary Unit :=
  .ofList ((s.segments.flatMap fun g => (g.terms m.field).filter m.selects).map (·, ()))

/-- What queries are run against, and within which limits. -/
structure Searcher where
  /-- The index. -/
  snapshot : Snapshot
  /-- The limits. -/
  settings : Settings

namespace Searcher

/-- The terms that a multi-term query selects, in order; too many of them are a fault. -/
def expand (s : Snapshot) (limit : Nat) (m : MultiTerm) : Except Fault (List Term) :=
  let texts := (s.select m).keys
  if limit < texts.length then .error (.tooManyTerms m.display texts.length limit)
  else .ok (texts.map fun x => ⟨m.field, x⟩)

/-- The query for a selected term. -/
def selectedTerm (m : MultiTerm) (t : Term) : Query :=
  match m.least with
  | some least => .frequentTerm t least none
  | none => .term t

/-- The query for the places of a selected term. -/
def selectedSpanTerm (m : MultiTerm) (t : Term) : Query :=
  match m.least with
  | some least => .frequentSpanTerm t least none
  | none => .spanTerm t

/-- The documents with some selected term. -/
def expandTerms (s : Searcher) (m : MultiTerm) : Except Fault Query := do
  let ts ← expand s.snapshot s.settings.maxClauseCount m
  pure (if ts.isEmpty then .nothing else .boolean (ts.map fun t => (.should, selectedTerm m t)))

/-- The places of the selected terms. -/
def expandSpanTerms (s : Searcher) (m : MultiTerm) : Except Fault Query := do
  let ts ← expand s.snapshot s.settings.maxClauseCount m
  Query.spanUnion m.field (ts.map (selectedSpanTerm m))

/-- Carry out a plan on what a deferred query has become, unless that is what it was. -/
def settle (q : Query) (plan : Plan) : Option Query → Except Fault Query
  | none => .ok q
  | some next => if next.same q then .ok q else plan.traversed next

mutual

/-- One step of grounding, over the whole query. -/
def groundStep (s : Searcher) : Query → Except Fault (Option Query)
  | .multiTerm m => some <$> s.expandTerms m
  | .spanMultiTerm m => some <$> s.expandSpanTerms m
  | .deferred q plan => do some <$> settle q plan (← s.groundStep q)
  | .boost q factor => do pure ((← s.groundStep q).map (Query.boost · factor))
  | .boolean clauses => do pure ((← s.groundClauses clauses).map Query.boolean)
  | .spanOr field clauses => do
    match ← s.groundAll clauses with
    | none => pure none
    | some clauses => some <$> Query.spanUnion field clauses
  | .spanNear _ clauses slop inOrder => do
    match ← s.groundAll clauses with
    | none => pure none
    | some clauses => some <$> Query.spanProximity clauses slop inOrder
  | .withoutPayload q => do
    match ← s.groundStep q with
    | none => pure none
    | some q => some <$> q.exactSpan
  | .frequentSpan q least => do
    match ← s.groundStep q with
    | none => pure none
    | some q => some <$> q.spanAtLeast least.value
  | _ => .ok none

/-- One step of grounding over clauses. -/
def groundClauses (s : Searcher) :
    List (Occur × Query) → Except Fault (Option (List (Occur × Query)))
  | [] => .ok none
  | (o, q) :: rest => do
    let q' ← s.groundStep q
    let rest' ← s.groundClauses rest
    pure (if q'.isNone && rest'.isNone then none else some ((o, q'.getD q) :: rest'.getD rest))

/-- One step of grounding over queries. -/
def groundAll (s : Searcher) : List Query → Except Fault (Option (List Query))
  | [] => .ok none
  | q :: rest => do
    let q' ← s.groundStep q
    let rest' ← s.groundAll rest
    pure (if q'.isNone && rest'.isNone then none else some (q'.getD q :: rest'.getD rest))

end

theorem groundClauses_eq_changeAll (s : Searcher) (clauses : List (Occur × Query)) :
    s.groundClauses clauses = changeAll (changeClause s.groundStep) clauses := by
  induction clauses with
  | nil => rfl
  | cons c clauses ih =>
    obtain ⟨o, q⟩ := c
    rw [groundClauses, changeAll, ih, changeClause]
    cases s.groundStep q with
    | error => rfl
    | ok q' => cases q' <;> rfl

theorem groundAll_eq_changeAll (s : Searcher) (qs : List Query) :
    s.groundAll qs = changeAll s.groundStep qs := by
  induction qs with
  | nil => rfl
  | cons q qs ih => rw [groundAll, changeAll, ih]

/-! A step on a list of parts changes the whole if it changes some part. -/

theorem groundStep_boolean (s : Searcher) (clauses : List (Occur × Query)) :
    s.groundStep (.boolean clauses) =
      (do pure ((← changeAll (changeClause s.groundStep) clauses).map Query.boolean)) := by
  rw [groundStep, groundClauses_eq_changeAll]

theorem groundStep_spanOr (s : Searcher) (field : String) (qs : List Query) :
    s.groundStep (.spanOr field qs) = (do
      match ← changeAll s.groundStep qs with
      | none => pure none
      | some qs => some <$> Query.spanUnion field qs) := by
  rw [groundStep, groundAll_eq_changeAll]

theorem groundStep_spanNear (s : Searcher) (field : String) (qs : List Query) (slop : UInt32)
    (inOrder : Bool) : s.groundStep (.spanNear field qs slop inOrder) = (do
      match ← changeAll s.groundStep qs with
      | none => pure none
      | some qs => some <$> Query.spanProximity qs slop inOrder) := by
  rw [groundStep, groundAll_eq_changeAll]

/-- Take steps until one changes nothing. The passes are counted down; `given` is the query
before the first one. -/
def groundWithin (s : Searcher) (given : Query) : Nat → Query → Except Fault (Option Query)
  | 0, _ => .error (.groundingDiverged given.display s.settings.maxPasses)
  | passes + 1, q => do
    match ← s.groundStep q with
    | none => pure none
    | some next => pure (some ((← s.groundWithin given passes next).getD next))

/-- Ground a query. The answer is nothing when the query is left as it is. -/
def ground (s : Searcher) (q : Query) : Except Fault (Option Query) :=
  s.groundWithin q s.settings.maxPasses q

/-- The query that grounding ends with. -/
def grounded (s : Searcher) (q : Query) : Except Fault Query := (·.getD q) <$> s.ground q

end Searcher

end TextSearch
