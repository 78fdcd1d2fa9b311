import TextSearch.Query.Basic

/-!
# Changes

A step on queries answers nothing when it leaves a query as it is, and the new
query otherwise. A query is rebuilt only when a step changed a part of it, so
that no answer means that the whole is untouched.
-/

namespace TextSearch

/-- A step applied to every member of a list in order: nothing when no member changed, and the
list with the changes otherwise. -/
def changeAll {α : Type} (step : α → Except Fault (Option α)) :
    List α → Except Fault (Option (List α))
  | [] => .ok none
  | a :: rest => do
    let a' ← step a
    let rest' ← changeAll step rest
    pure (if a'.isNone && rest'.isNone then none else some (a'.getD a :: rest'.getD rest))

/-- A step on the query of a clause. -/
def changeClause (step : Query → Except Fault (Option Query)) (c : Occur × Query) :
    Except Fault (Option (Occur × Query)) :=
  Option.map (c.1, ·) <$> step c.2

namespace Query

mutual

/-- The number of boosts and boolean combinations on the longest path into a query that leads
through nothing else. -/
def height : Query → Nat
  | boost q _ => q.height + 1
  | boolean clauses => heightClauses clauses + 1
  | _ => 0

/-- The greatest height of a clause. -/
def heightClauses : List (Occur × Query) → Nat
  | [] => 0
  | (_, q) :: rest => max q.height (heightClauses rest)

end

theorem height_le_heightClauses {o : Occur} {q : Query} :
    ∀ {clauses : List (Occur × Query)}, (o, q) ∈ clauses → q.height ≤ heightClauses clauses
  | (_, r) :: rest, h => by
    rw [heightClauses]
    rcases List.mem_cons.1 h with he | h
    · cases he
      exact Nat.le_max_left ..
    · exact Nat.le_trans (height_le_heightClauses h) (Nat.le_max_right ..)

end Query

end TextSearch
