import TextSearch.Match.Stepper
import TextSearch.Proofs.Cursor.Trail

/-!
# Matchers and their trails

A matcher stands on the first visit of its trail, and a move takes it to what
the move leaves. `MatchStepper.Follows` says so of the operations on matchers of
some type. Other than a cursor a matcher may also be moved when nothing is left.
-/

namespace TextSearch

variable {α β : Type}

/-- A move does not fail, answers whether a trail has visits, and ends in front of them. -/
def Leaves (R : α → Trail β → Prop) (outcome : Except Fault (Bool × α)) (t : Trail β) : Prop :=
  ∃ m, outcome = .ok (!t.isEmpty, m) ∧ R m t

theorem Leaves.mono {R S : α → Trail β → Prop} {outcome : Except Fault (Bool × α)} {t : Trail β}
    (h : Leaves R outcome t) (hRS : ∀ m, R m t → S m t) : Leaves S outcome t := by
  obtain ⟨m, rfl, hm⟩ := h
  exact ⟨m, rfl, hRS m hm⟩

/-- A matcher that is exhausted, or on the target or beyond it, has nothing to skip. -/
theorem since_of_stays {t : Trail β} (h : t.Sound) {exhausted : Bool} {doc target : Nat}
    (hexhausted : exhausted = t.isEmpty) (hdoc : doc = t.firstDoc)
    (hstays : (exhausted || decide (target ≤ doc)) = true) : t.since target = t := by
  rcases Bool.or_eq_true_iff.1 hstays with hdone | hle
  · rw [hexhausted, List.isEmpty_iff] at hdone
    rw [hdone, Trail.since_nil]
  · exact h.since_of_le_firstDoc (hdoc ▸ of_decide_eq_true hle)

/-- The operations on matchers follow the trails that a relation assigns to them. -/
structure MatchStepper.Follows (ops : MatchStepper α) (R : α → Trail β → Prop) : Prop where
  /-- A matcher reports the first document of its trail. -/
  doc : ∀ {m t}, R m t → ops.doc m = t.firstDoc
  /-- A matcher is exhausted when nothing is left of its trail. -/
  exhausted : ∀ {m t}, R m t → ops.exhausted m = t.isEmpty
  /-- All trails are sound. -/
  sound : ∀ {m t}, R m t → t.Sound
  /-- The visits after the first one are bounded. -/
  remaining : ∀ {m t}, R m t → t.tail.length ≤ ops.remaining m
  /-- The next document is that of the second visit. -/
  next : ∀ {m t}, R m t → Leaves R (ops.next m) t.tail
  /-- A skip leaves out the visits before its target. -/
  skipTo : ∀ {m t} (target), R m t → Leaves R (ops.skipTo target m) (t.since target)

namespace MatchStepper.Follows

variable {ops : MatchStepper α} {R : α → Trail β → Prop}

theorem sound_of_forall₂ (h : ops.Follows R) {ms : List α} {ts : List (Trail β)}
    (hsubs : List.Forall₂ R ms ts) : ∀ t ∈ ts, t.Sound := by
  induction hsubs with
  | nil => simp
  | cons hm _ ih => exact List.forall_mem_cons.2 ⟨h.sound hm, ih⟩

/-- A skip may be left out where a matcher is not behind the target. -/
theorem since_of_not_behind (h : ops.Follows R) {m : α} {t : Trail β} (hm : R m t) {target : Nat}
    (hbehind : ¬ ops.doc m < target) : t.since target = t := by
  rw [h.doc hm] at hbehind
  exact (h.sound hm).since_of_le_firstDoc (Nat.le_of_not_lt hbehind)

theorem length_lt (h : ops.Follows R) {m : α} {t : Trail β} (hm : R m t) :
    t.length < ops.remaining m + 2 := by
  have := h.remaining hm
  rw [List.length_tail] at this
  omega

end MatchStepper.Follows

end TextSearch
