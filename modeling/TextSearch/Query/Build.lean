import TextSearch.Query.Basic

/-!
# Building span queries

The operands of a span query have to be span queries, all on one field, and a
proximity query needs at least one. The functions here check that; a query that
is built with them reports the field of its operands as its own.
-/

namespace TextSearch

namespace Query

/-- The field of an operand of a span query. -/
def operandField (q : Query) : Except Fault String :=
  match q.spanField? with
  | some field => .ok field
  | none => .error (.operandNotSpan q.display)

/-- Check that an operand is a span query on a field. -/
def checkOperand (field : String) (q : Query) : Except Fault Unit := do
  if (← q.operandField) ≠ field then .error (.operandOffField field q.display)

/-- The union of span queries on a field. -/
def spanUnion (field : String) (clauses : List Query) : Except Fault Query := do
  clauses.forM (checkOperand field)
  pure (.spanOr field clauses)

/-- Span queries on one field within a distance of each other. -/
def spanProximity (clauses : List Query) (slop : UInt32) (inOrder : Bool) :
    Except Fault Query :=
  match clauses with
  | [] => .error .emptyProximity
  | first :: rest => do
    let field ← first.operandField
    rest.forM (checkOperand field)
    pure (.spanNear field clauses slop inOrder)

/-- The places of a span query without payloads. -/
def exactSpan (q : Query) : Except Fault Query := do
  discard q.operandField
  pure (.withoutPayload q)

/-- The places of a span query in documents that have at least a number of them. -/
def spanAtLeast (q : Query) (least : Nat) : Except Fault Query := do
  discard q.operandField
  pure (.frequentSpan q (← Threshold.ofNat least))

end Query

end TextSearch
