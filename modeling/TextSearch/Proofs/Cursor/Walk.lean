import TextSearch.Proofs.Cursor.Trail
import TextSearch.Span.Stepper

/-!
# Walking a trail

A cursor stands in front of its trail or on one of its visits. `Arrives` says
where a move has to end when a certain trail lies ahead, and
`SpanStepper.Follows` that the operations on cursors of some type walk trails:
the next document is the next visit, and a skip leaves out what lies before its
target. Nothing is said of cursors that have found nothing more; they are not
moved again.
-/

namespace TextSearch

variable {α β : Type}

/-- Where a cursor is in its trail. -/
inductive Place (β : Type) where
  /-- In front of all visits. -/
  | before (ahead : Trail β)
  /-- On a visit, with others ahead. -/
  | on (here : Visit β) (ahead : Trail β)

namespace Place

/-- The visits that are still to be made. -/
def ahead : Place β → Trail β
  | before t => t
  | on _ t => t

/-- The visits that a skip may end on: those ahead, and the one that the cursor stands on. -/
def pending : Place β → Trail β
  | before t => t
  | on v t => v :: t

@[simp] theorem ahead_before (t : Trail β) : (before t).ahead = t := rfl

@[simp] theorem ahead_on (v : Visit β) (t : Trail β) : (on v t).ahead = t := rfl

@[simp] theorem pending_before (t : Trail β) : (before t).pending = t := rfl

@[simp] theorem pending_on (v : Visit β) (t : Trail β) : (on v t).pending = v :: t := rfl

end Place

/-- A move ended on the first visit of a trail, or found nothing if there is none. -/
def Arrived (R : α → Place β → Prop) (move : Bool × α) : Trail β → Prop
  | [] => move.1 = false
  | v :: rest => move.1 = true ∧ R move.2 (.on v rest)

/-- A move does not fail, and ends on the first visit of a trail. -/
def Arrives (R : α → Place β → Prop) (outcome : Except Fault (Bool × α)) (t : Trail β) : Prop :=
  ∃ move, outcome = .ok move ∧ Arrived R move t

theorem Arrived.found {R : α → Place β → Prop} {move : Bool × α} {t : Trail β}
    (h : Arrived R move t) : move.1 = !t.isEmpty := by
  cases t with
  | nil => exact h
  | cons v t => exact h.1

theorem Arrived.mono {R S : α → Place β → Prop} {move : Bool × α} {t : Trail β}
    (hRS : ∀ p, R move.2 p → S move.2 p) (h : Arrived R move t) : Arrived S move t := by
  cases t with
  | nil => exact h
  | cons v t => exact ⟨h.1, hRS _ h.2⟩

theorem Arrives.mono {R S : α → Place β → Prop} {outcome : Except Fault (Bool × α)} {t : Trail β}
    (h : Arrives R outcome t) (hRS : ∀ c p, R c p → S c p) : Arrives S outcome t := by
  obtain ⟨move, rfl, harrived⟩ := h
  exact ⟨move, rfl, harrived.mono (hRS move.2)⟩

/-- The operations on span cursors walk the trails that a relation assigns to them. -/
structure SpanStepper.Follows (ops : SpanStepper α) (R : α → Place (List Span) → Prop) :
    Prop where
  /-- A cursor on a visit reports its document. -/
  doc : ∀ {c v t}, R c (.on v t) → ops.doc c = v.doc
  /-- A cursor on a visit shows its spans. -/
  spans : ∀ {c v t}, R c (.on v t) → ops.spans c = v.shown
  /-- All trails are sound. -/
  sound : ∀ {c p}, R c p → p.pending.Sound
  /-- The visits ahead are bounded. -/
  remaining : ∀ {c p}, R c p → p.ahead.length ≤ ops.remaining c
  /-- The next document is that of the next visit. -/
  next : ∀ {c p}, R c p → Arrives R (ops.next c) p.ahead
  /-- A skip leaves out the visits before its target. -/
  skipTo : ∀ {c p} (target), R c p → Arrives R (ops.skipTo target c) (p.pending.since target)

namespace SpanStepper.Follows

variable {ops : SpanStepper α} {R : α → Place (List Span) → Prop}

theorem sound_of_arrived (h : ops.Follows R) {move : Bool × α} {t : Trail (List Span)}
    (ht : Arrived R move t) : t.Sound := by
  cases t with
  | nil => exact .nil
  | cons v t => exact h.sound ht.2

/-- As many steps as a move may have left are one more than it needs. -/
theorem length_lt_of_arrived (h : ops.Follows R) {move : Bool × α} {t : Trail (List Span)}
    (ht : Arrived R move t) : t.length < ops.remaining move.2 + 2 := by
  cases t with
  | nil => exact Nat.zero_lt_succ _
  | cons v t =>
    have := h.remaining ht.2
    simp only [Place.ahead_on] at this
    rw [List.length_cons]
    omega

end SpanStepper.Follows

end TextSearch
