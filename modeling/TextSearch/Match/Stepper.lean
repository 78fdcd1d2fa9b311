import TextSearch.Posting.Basic
import TextSearch.Total

/-!
# Combinations of matchers

A matcher walks the matching documents of one segment. It stands on its first
document from the start, and on `endOfDocs` once it is exhausted. Four matchers
are made out of others: a union, an intersection, an exclusion and a preference,
which matches what its required side matches. They are written for operands of
any type that can be stepped, a `MatchStepper`, so that each can be understood
on its own.

Every loop counts down a number of steps taken from `remaining`, the number of
documents that the operands can still visit. A loop that ran out of them would be
the fault `outOfSteps`, which no cursor made for a segment comes to.
-/

namespace TextSearch

/-- What can be done with a matcher of some type. -/
structure MatchStepper (α : Type) where
  /-- The current document. -/
  doc : α → Nat
  /-- Whether there is no current document. -/
  exhausted : α → Bool
  /-- An upper bound on the number of documents. -/
  cost : α → Nat
  /-- An upper bound on the number of documents still ahead. -/
  remaining : α → Nat
  /-- Move to the next document. -/
  next : α → Except Fault (Bool × α)
  /-- Move to the first document that is not before the target. -/
  skipTo : Nat → α → Except Fault (Bool × α)

/-- The documents of any of several matchers. -/
structure MatchUnion (α : Type) where
  /-- The matchers that are not exhausted. -/
  subs : List α
  /-- The current document. -/
  current : Nat
  /-- Whether every matcher is exhausted. -/
  exhausted : Bool
  /-- An upper bound on the number of documents. -/
  cost : Nat

namespace MatchUnion

variable {α : Type}

/-- The least document that a matcher stands on. -/
def leastDoc (ops : MatchStepper α) (subs : List α) : Nat := (subs.map ops.doc).min?.getD endOfDocs

/-- The union standing on the least document of its matchers. -/
def standing (ops : MatchStepper α) (cost : Nat) (subs : List α) : MatchUnion α :=
  { subs, current := leastDoc ops subs, exhausted := subs.isEmpty, cost }

/-- The union of positioned matchers. -/
def ofSubs (ops : MatchStepper α) (subs : List α) : MatchUnion α :=
  let alive := subs.filter fun m => !ops.exhausted m
  standing ops (total (alive.map ops.cost)) alive

/-- Move those matchers that a test selects, and drop the ones that find nothing. -/
def moveWhere (test : α → Bool) (move : α → Except Fault (Bool × α)) :
    List α → Except Fault (List α)
  | [] => .ok []
  | m :: rest => do
    let (found, m) ← if test m then move m else .ok (true, m)
    let rest ← moveWhere test move rest
    .ok (if found then m :: rest else rest)

/-- The union after its matchers have moved. -/
def moved (ops : MatchStepper α) (u : MatchUnion α) (subs : List α) : Bool × MatchUnion α :=
  (!subs.isEmpty, standing ops u.cost subs)

/-- Move to the next document. -/
def next (ops : MatchStepper α) (u : MatchUnion α) : Except Fault (Bool × MatchUnion α) := do
  if u.exhausted then .ok (false, u)
  else .ok (moved ops u (← moveWhere (fun m => ops.doc m == u.current) ops.next u.subs))

/-- Move to the first document that is not before the target. -/
def skipTo (ops : MatchStepper α) (target : Nat) (u : MatchUnion α) :
    Except Fault (Bool × MatchUnion α) := do
  if u.exhausted || decide (target ≤ u.current) then .ok (!u.exhausted, u)
  else
    let behind := fun m => decide (ops.doc m < target)
    .ok (moved ops u (← moveWhere behind (ops.skipTo target) u.subs))

end MatchUnion

/-- The documents of all of several matchers. -/
structure MatchIntersection (α : Type) where
  /-- The matchers; the first one leads. -/
  subs : List α
  /-- The current document. -/
  current : Nat
  /-- Whether no document is left. -/
  exhausted : Bool
  /-- An upper bound on the number of documents. -/
  cost : Nat

namespace MatchIntersection

variable {α : Type}

/-- The intersection without a current document. -/
def stopped (i : MatchIntersection α) (subs : List α) : Bool × MatchIntersection α :=
  (false, { i with subs, current := endOfDocs, exhausted := true })

/-- Skip every matcher that is behind the target. The answer says whether all of them found a
document, and whether that is the target. -/
def pass (ops : MatchStepper α) (target : Nat) : List α → Except Fault (Bool × Bool × List α)
  | [] => .ok (true, true, [])
  | m :: rest => do
    let (found, m) ← if ops.doc m < target then ops.skipTo target m else .ok (true, m)
    if found then
      let (alive, aligned, rest) ← pass ops target rest
      .ok (alive, aligned && ops.doc m == target, m :: rest)
    else .ok (false, false, m :: rest)

/-- The furthest document that a matcher stands on. -/
def furthestDoc (ops : MatchStepper α) (subs : List α) : Nat := (subs.map ops.doc).foldl max 0

/-- Pass over the matchers until they stand on one document or one of them is exhausted. -/
def align (ops : MatchStepper α) (i : MatchIntersection α) :
    Nat → List α → Except Fault (Bool × MatchIntersection α)
  | 0, _ => .error .outOfSteps
  | steps + 1, subs => do
    if subs.any fun m => ops.doc m == endOfDocs then .ok (i.stopped subs)
    else
      let target := furthestDoc ops subs
      let (alive, aligned, subs) ← pass ops target subs
      if !alive then .ok (i.stopped subs)
      else if aligned then .ok (true, { i with subs, current := target, exhausted := false })
      else align ops i steps subs

/-- Align the matchers with enough steps. -/
def aligned (ops : MatchStepper α) (i : MatchIntersection α) (subs : List α) :
    Except Fault (Bool × MatchIntersection α) :=
  align ops i (total (subs.map ops.remaining) + 2) subs

/-- The intersection of positioned matchers; of none of them it is empty. -/
def ofSubs (ops : MatchStepper α) (subs : List α) : Except Fault (MatchIntersection α) := do
  let i : MatchIntersection α := ⟨subs, endOfDocs, true, (subs.map ops.cost).min?.getD 0⟩
  if subs.isEmpty then .ok i else .ok (← aligned ops i subs).2

/-- Move the leading matcher and align the others with it. -/
def lead (ops : MatchStepper α) (i : MatchIntersection α) (move : α → Except Fault (Bool × α)) :
    Except Fault (Bool × MatchIntersection α) := do
  match i.subs with
  | [] => .ok (i.stopped [])
  | m :: rest =>
    let (found, m) ← move m
    if found then aligned ops i (m :: rest) else .ok (i.stopped (m :: rest))

/-- Move to the next document. -/
def next (ops : MatchStepper α) (i : MatchIntersection α) :
    Except Fault (Bool × MatchIntersection α) :=
  if i.exhausted then .ok (false, i) else lead ops i ops.next

/-- Move to the first document that is not before the target. -/
def skipTo (ops : MatchStepper α) (target : Nat) (i : MatchIntersection α) :
    Except Fault (Bool × MatchIntersection α) :=
  if i.exhausted || decide (target ≤ i.current) then .ok (!i.exhausted, i)
  else lead ops i (ops.skipTo target)

end MatchIntersection

/-- The documents of one matcher that no other one matches. -/
structure MatchExclusion (α : Type) where
  /-- The matcher whose documents count. -/
  positive : α
  /-- The matchers whose documents do not. -/
  negatives : List α
  /-- The current document. -/
  current : Nat
  /-- Whether no document is left. -/
  exhausted : Bool

namespace MatchExclusion

variable {α : Type}

/-- Whether a matcher stands on a document, once those behind it have skipped to it. The
matchers after the first hit stay where they are. -/
def excludes (ops : MatchStepper α) (doc : Nat) : List α → Except Fault (Bool × List α)
  | [] => .ok (false, [])
  | m :: rest => do
    let m ← if ops.doc m < doc then (·.2) <$> ops.skipTo doc m else .ok m
    if ops.doc m == doc then .ok (true, m :: rest)
    else
      let (hit, rest) ← excludes ops doc rest
      .ok (hit, m :: rest)

/-- Walk on until the document of the positive side is not excluded. -/
def settle (ops : MatchStepper α) :
    Nat → α → List α → Except Fault (Bool × MatchExclusion α)
  | 0, _, _ => .error .outOfSteps
  | steps + 1, positive, negatives => do
    if ops.exhausted positive then .ok (false, ⟨positive, negatives, endOfDocs, true⟩)
    else
      let doc := ops.doc positive
      let (hit, negatives) ← excludes ops doc negatives
      if hit then settle ops steps (← ops.next positive).2 negatives
      else .ok (true, ⟨positive, negatives, doc, false⟩)

/-- Settle with enough steps. -/
def settled (ops : MatchStepper α) (positive : α) (negatives : List α) :
    Except Fault (Bool × MatchExclusion α) :=
  settle ops (ops.remaining positive + 2) positive negatives

/-- A positioned matcher without the documents of others. -/
def ofSides (ops : MatchStepper α) (positive : α) (negatives : List α) :
    Except Fault (MatchExclusion α) :=
  (·.2) <$> settled ops positive negatives

/-- Move to the next document. -/
def next (ops : MatchStepper α) (e : MatchExclusion α) :
    Except Fault (Bool × MatchExclusion α) := do
  if e.exhausted then .ok (false, e)
  else settled ops (← ops.next e.positive).2 e.negatives

/-- Move to the first document that is not before the target. -/
def skipTo (ops : MatchStepper α) (target : Nat) (e : MatchExclusion α) :
    Except Fault (Bool × MatchExclusion α) := do
  if e.exhausted || decide (target ≤ e.current) then .ok (!e.exhausted, e)
  else settled ops (← ops.skipTo target e.positive).2 e.negatives

end MatchExclusion

/-- The documents of a required matcher; an optional one goes along for its scores. -/
structure MatchPreference (α : Type) where
  /-- The matcher whose documents count. -/
  required : α
  /-- The matcher that may stand on the same document. -/
  optional : α

namespace MatchPreference

variable {α : Type}

/-- Skip the optional side to the document of the required side, unless it is there or beyond. -/
def synced (ops : MatchStepper α) (required optional : α) : Except Fault (MatchPreference α) := do
  let doc := ops.doc required
  let behind :=
    !ops.exhausted required && !ops.exhausted optional && decide (ops.doc optional < doc)
  .ok ⟨required, ← if behind then (·.2) <$> ops.skipTo doc optional else .ok optional⟩

/-- Move the required side and let the other one follow. -/
def lead (ops : MatchStepper α) (p : MatchPreference α) (move : α → Except Fault (Bool × α)) :
    Except Fault (Bool × MatchPreference α) := do
  let (found, required) ← move p.required
  .ok (found, ← synced ops required p.optional)

/-- Move to the next document. -/
def next (ops : MatchStepper α) (p : MatchPreference α) : Except Fault (Bool × MatchPreference α) :=
  lead ops p ops.next

/-- Move to the first document that is not before the target. -/
def skipTo (ops : MatchStepper α) (target : Nat) (p : MatchPreference α) :
    Except Fault (Bool × MatchPreference α) :=
  lead ops p (ops.skipTo target)

end MatchPreference

end TextSearch
