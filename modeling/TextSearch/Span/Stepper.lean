import TextSearch.Span.Near
import TextSearch.Total

/-!
# Combinations of span cursors

A span cursor walks the documents that have spans and shows all spans of the
current one. Three cursors are made out of others: a sieve filters the spans of
one cursor, a union merges the spans of several, and a proximity cursor looks for
picks of one span from each. They are written for operands of any type that can
be stepped, a `SpanStepper`, so that each can be understood on its own.

Every loop counts down a number of steps taken from `remaining`, the number of
documents that the operands can still visit. A loop that ran out of them would be
the fault `outOfSteps`, which no cursor made for a segment comes to.
-/

namespace TextSearch

/-- What can be done with a span cursor of some type. -/
structure SpanStepper (α : Type) where
  /-- The current document. -/
  doc : α → Nat
  /-- The spans of the current document. -/
  spans : α → List Span
  /-- An upper bound on the number of documents still ahead. -/
  remaining : α → Nat
  /-- Move to the next document with spans. -/
  next : α → Except Fault (Bool × α)
  /-- Move to the first document with spans that is not before the target. -/
  skipTo : Nat → α → Except Fault (Bool × α)

/-- What a sieve lets through. -/
inductive SpanFilter where
  /-- Spans without payloads. -/
  | emptyPayload
  /-- Documents with at least so many spans. -/
  | minFrequency (least : Nat)
  deriving DecidableEq, Repr

/-- The spans of a document that a filter keeps. -/
def SpanFilter.keep : SpanFilter → List Span → List Span
  | emptyPayload, ss => ss.filter (·.hasEmptyPayload)
  | minFrequency least, ss => if least ≤ ss.length then ss else []

/-- A cursor whose spans are filtered. -/
structure SpanSieve (α : Type) where
  /-- The filtered cursor. -/
  inner : α
  /-- The filter. -/
  filter : SpanFilter
  /-- The spans kept in the current document. -/
  spans : List Span

namespace SpanSieve

variable {α : Type}

/-- A sieve in front of its documents. -/
def ofInner (inner : α) (filter : SpanFilter) : SpanSieve α := ⟨inner, filter, []⟩

/-- Walk on from a move of the inner cursor until a document has spans left. -/
def settle (ops : SpanStepper α) (filter : SpanFilter) :
    Nat → Bool × α → Except Fault (Bool × SpanSieve α)
  | 0, _ => .error .outOfSteps
  | steps + 1, (found, inner) =>
    if found then
      match filter.keep (ops.spans inner) with
      | [] => do settle ops filter steps (← ops.next inner)
      | kept => .ok (true, ⟨inner, filter, kept⟩)
    else .ok (false, ⟨inner, filter, []⟩)

/-- Settle a move with enough steps. -/
def settled (ops : SpanStepper α) (filter : SpanFilter) (move : Bool × α) :
    Except Fault (Bool × SpanSieve α) :=
  settle ops filter (ops.remaining move.2 + 2) move

/-- Move to the next document with spans left. -/
def next (ops : SpanStepper α) (c : SpanSieve α) : Except Fault (Bool × SpanSieve α) := do
  settled ops c.filter (← ops.next c.inner)

/-- Move to the first document with spans left that is not before the target. -/
def skipTo (ops : SpanStepper α) (target : Nat) (c : SpanSieve α) :
    Except Fault (Bool × SpanSieve α) := do
  settled ops c.filter (← ops.skipTo target c.inner)

end SpanSieve

/-- A cursor over the documents of several cursors. -/
structure SpanUnion (α : Type) where
  /-- The merged cursors, each with a mark that it stands on a document. -/
  subs : List (Bool × α)
  /-- Whether the cursor has moved at all. -/
  started : Bool
  /-- The current document. -/
  current : Nat
  /-- The spans of the current document. -/
  spans : List Span

namespace SpanUnion

variable {α : Type}

/-- A union in front of its documents. -/
def ofSubs (subs : List α) : SpanUnion α := ⟨subs.map fun c => (false, c), false, endOfDocs, []⟩

/-- The least document that a marked cursor stands on. -/
def leastDoc (ops : SpanStepper α) (subs : List (Bool × α)) : Nat :=
  ((subs.filter (·.1)).map fun c => ops.doc c.2).min?.getD endOfDocs

/-- The spans that the marked cursors have in a document. -/
def spansAt (ops : SpanStepper α) (doc : Nat) (subs : List (Bool × α)) : List Span :=
  Span.sorted ((subs.filter fun c => c.1 && ops.doc c.2 == doc).flatMap fun c => ops.spans c.2)

/-- Stand on the least document of the cursors. -/
def collected (ops : SpanStepper α) (subs : List (Bool × α)) : Bool × SpanUnion α :=
  let current := leastDoc ops subs
  if current = endOfDocs then (false, ⟨subs, true, current, []⟩)
  else (true, ⟨subs, true, current, spansAt ops current subs⟩)

/-- Move those cursors that a test selects. -/
def moveWhere (test : Bool × α → Bool) (move : α → Except Fault (Bool × α)) :
    List (Bool × α) → Except Fault (List (Bool × α))
  | [] => .ok []
  | c :: rest => do
    let moved ← if test c then move c.2 else .ok c
    .ok (moved :: (← moveWhere test move rest))

/-- Move to the next document of any cursor. -/
def next (ops : SpanStepper α) (u : SpanUnion α) : Except Fault (Bool × SpanUnion α) := do
  let due := fun (c : Bool × α) => !u.started || (c.1 && ops.doc c.2 == u.current)
  .ok (collected ops (← moveWhere due ops.next u.subs))

/-- Move to the first document of any cursor that is not before the target. -/
def skipTo (ops : SpanStepper α) (target : Nat) (u : SpanUnion α) :
    Except Fault (Bool × SpanUnion α) := do
  let due := fun (c : Bool × α) => !u.started || (c.1 && decide (ops.doc c.2 < target))
  .ok (collected ops (← moveWhere due (ops.skipTo target) u.subs))

end SpanUnion

/-- A cursor over the documents in which several cursors have spans near each other. -/
structure SpanProximity (α : Type) where
  /-- The cursors of the clauses; the first one leads. -/
  subs : List α
  /-- The greatest gap allowed. -/
  slop : UInt32
  /-- Whether the spans have to follow each other in the order of the clauses. -/
  inOrder : Bool
  /-- Whether the cursor has moved at all. -/
  started : Bool
  /-- The current document. -/
  current : Nat
  /-- The matches in the current document. -/
  spans : List Span

/-- Where one pass over the clauses of a proximity cursor ended. -/
structure AlignmentPass (α : Type) where
  /-- Whether no clause ran out of documents. -/
  alive : Bool
  /-- Whether every clause stands on the target. -/
  aligned : Bool
  /-- The furthest document that a clause stands on. -/
  target : Nat
  /-- The clauses. -/
  subs : List α

namespace SpanProximity

variable {α : Type}

/-- A proximity cursor in front of its documents. -/
def ofSubs (subs : List α) (slop : UInt32) (inOrder : Bool) : SpanProximity α :=
  ⟨subs, slop, inOrder, false, endOfDocs, []⟩

/-- The cursor standing on nothing, with its clauses where they are. -/
def stopped (c : SpanProximity α) (subs : List α) : SpanProximity α :=
  { c with subs, started := true, current := endOfDocs, spans := [] }

/-- The cursor standing on a document. -/
def standing (ops : SpanStepper α) (c : SpanProximity α) (doc : Nat) (subs : List α) :
    SpanProximity α :=
  { c with
    subs, started := true, current := doc
    spans := Span.near c.slop c.inOrder (subs.map ops.spans) }

/-- Move every clause for the first time, up to the first one that finds nothing. -/
def start (move : α → Except Fault (Bool × α)) : List α → Except Fault (Bool × List α)
  | [] => .ok (true, [])
  | c :: rest => do
    let (found, c) ← move c
    if found then
      let (all, rest) ← start move rest
      .ok (all, c :: rest)
    else .ok (false, c :: rest)

/-- Move the leading clause alone. -/
def lead (move : α → Except Fault (Bool × α)) : List α → Except Fault (Bool × List α)
  | [] => .ok (false, [])
  | c :: rest => do
    let (found, c) ← move c
    .ok (found, c :: rest)

/-- Bring every clause up to the target, which moves on to each clause that is beyond it. -/
def pass (ops : SpanStepper α) : Nat → List α → Except Fault (AlignmentPass α)
  | target, [] => .ok ⟨true, true, target, []⟩
  | target, c :: rest => do
    let (found, c) ← if ops.doc c < target then ops.skipTo target c else .ok (true, c)
    if found then
      let p ← pass ops (max target (ops.doc c)) rest
      .ok { p with aligned := p.aligned && decide (ops.doc c ≤ target), subs := c :: p.subs }
    else .ok ⟨false, false, target, c :: rest⟩

/-- Pass over the clauses until they stand on one document or one of them runs out. -/
def align (ops : SpanStepper α) : Nat → Nat → List α → Except Fault (AlignmentPass α)
  | 0, _, _ => .error .outOfSteps
  | steps + 1, target, subs => do
    let p ← pass ops target subs
    if p.alive && !p.aligned then align ops steps p.target p.subs else .ok p

/-- The number of documents that the clauses can still visit. -/
def remaining (ops : SpanStepper α) (subs : List α) : Nat := total (subs.map ops.remaining)

/-- The document of the leading clause. -/
def leadDoc (ops : SpanStepper α) (subs : List α) : Nat := subs.head?.elim endOfDocs ops.doc

/-- Walk on from a move of the leading clause until a document has a match. -/
def settle (ops : SpanStepper α) (c : SpanProximity α) :
    Nat → Bool × List α → Except Fault (Bool × SpanProximity α)
  | 0, _ => .error .outOfSteps
  | steps + 1, (found, subs) =>
    if found then do
      let p ← align ops (remaining ops subs + 3) (leadDoc ops subs) subs
      if p.alive then
        let here := c.standing ops p.target p.subs
        if here.spans.isEmpty then settle ops c steps (← lead ops.next p.subs)
        else .ok (true, here)
      else .ok (false, c.stopped p.subs)
    else .ok (false, c.stopped subs)

/-- Settle a move with enough steps. -/
def settled (ops : SpanStepper α) (c : SpanProximity α) (move : Bool × List α) :
    Except Fault (Bool × SpanProximity α) :=
  settle ops c (remaining ops move.2 + 2) move

/-- Move to the next document with a match. -/
def next (ops : SpanStepper α) (c : SpanProximity α) :
    Except Fault (Bool × SpanProximity α) := do
  if c.subs.isEmpty then .ok (false, c)
  else settled ops c (← if c.started then lead ops.next c.subs else start ops.next c.subs)

/-- Move to the first document with a match that is not before the target. -/
def skipTo (ops : SpanStepper α) (target : Nat) (c : SpanProximity α) :
    Except Fault (Bool × SpanProximity α) := do
  if c.subs.isEmpty then .ok (false, c)
  else
    settled ops c
      (← if c.started then lead (ops.skipTo target) c.subs else start (ops.skipTo target) c.subs)

end SpanProximity

end TextSearch
