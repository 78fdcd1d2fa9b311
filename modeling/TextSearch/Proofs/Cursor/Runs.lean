import Mathlib.Data.List.Forall2
import TextSearch.Fault
import TextSearch.Posting.Basic
import TextSearch.Proofs.Outcome

/-!
# Runs of moves

Whoever holds a cursor moves it as he likes: to the next document, or to a target, which
may lie ahead, behind or past the end, and again when nothing is left. What a run of such
moves has to show is said by a `PlainCursor`, which knows the documents and nothing else.
`watch_eq` carries a comparison of single moves over to runs, and `forall₂_watch` does so for
two machines of any kind.
-/

namespace TextSearch

/-- A move of a cursor. -/
inductive Move where
  /-- To the next document. -/
  | next
  /-- To the first document, from the current one on, that is not before a target. -/
  | skipTo (target : Nat)
  deriving DecidableEq, Repr

/-- A cursor over documents in ascending order. -/
structure PlainCursor where
  /-- Whether the cursor stands on a document or behind all of them, and not in front. -/
  started : Bool
  /-- The documents not yet left behind; the current one comes first once the cursor has moved. -/
  rest : List Nat
  deriving DecidableEq, Repr

namespace PlainCursor

/-- The current document. -/
def doc (c : PlainCursor) : Nat := if c.started then c.rest.head?.getD endOfDocs else endOfDocs

/-- What a move leaves of the documents. -/
def left : Move → PlainCursor → List Nat
  | .next, c => if c.started then c.rest.tail else c.rest
  | .skipTo target, c => c.rest.dropWhile fun d => decide (d < target)

/-- Whether a move finds a document, and where it ends. -/
def moved (move : Move) (c : PlainCursor) : Bool × PlainCursor :=
  (!(c.left move).isEmpty, ⟨true, c.left move⟩)

/-- The outcomes of moves made one after the other. -/
def run : List Move → PlainCursor → List (Bool × PlainCursor)
  | [], _ => []
  | move :: moves, c => c.moved move :: run moves (c.moved move).2

theorem left_subset (move : Move) (c : PlainCursor) : c.left move ⊆ c.rest := by
  cases move with
  | next =>
    rw [left]
    split
    · exact (List.tail_sublist _).subset
    · exact List.Subset.refl _
  | skipTo target => exact (List.dropWhile_sublist _).subset

/-- No move finds anything where nothing is left. -/
theorem moved_of_spent (move : Move) : moved move ⟨true, []⟩ = (false, ⟨true, []⟩) := by
  have hleft : left move ⟨true, []⟩ = [] := List.subset_nil.1 (left_subset move _)
  rw [moved, hleft]
  rfl

/-- A cursor that has found nothing finds nothing more. -/
theorem run_of_spent (moves : List Move) :
    ∀ outcome ∈ run moves ⟨true, []⟩, outcome.1 = false := by
  induction moves with
  | nil => exact List.forall_mem_nil _
  | cons move moves ih =>
    rw [run, moved_of_spent]
    exact List.forall_mem_cons.2 ⟨rfl, ih⟩

/-- Once a move has found nothing, no later one finds anything. -/
theorem pairwise_run (moves : List Move) (c : PlainCursor) :
    (c.run moves).Pairwise fun earlier later => earlier.1 = false → later.1 = false := by
  induction moves generalizing c with
  | nil => exact .nil
  | cons move moves ih =>
    refine List.pairwise_cons.2 ⟨fun later hlater hnone => ?_, ih _⟩
    have hspent : (c.moved move).2 = ⟨true, []⟩ := by
      rw [moved, Bool.not_eq_false', List.isEmpty_iff] at hnone
      rw [moved, hnone]
    rw [hspent] at hlater
    exact run_of_spent moves later hlater

/-- A move that finds something ends on one of the documents. -/
theorem doc_mem_of_mem_run {moves : List Move} {c : PlainCursor} {outcome : Bool × PlainCursor}
    (h : outcome ∈ c.run moves) (hfound : outcome.1 = true) : outcome.2.doc ∈ c.rest := by
  induction moves generalizing c with
  | nil => cases h
  | cons move moves ih =>
    rcases List.mem_cons.1 h with rfl | h
    · refine left_subset move c ?_
      cases hleft : c.left move with
      | nil =>
        rw [moved, hleft] at hfound
        cases hfound
      | cons d rest =>
        rw [moved, hleft]
        exact List.mem_cons_self ..
    · exact left_subset move c (ih h)

end PlainCursor

section Watching

variable {α β : Type}

/-- What is seen after each of some moves that are made one after the other. -/
def watch (move : Move → α → Except Fault (Bool × α)) (see : Bool × α → β) :
    List Move → α → Except Fault (List β)
  | [], _ => .ok []
  | m :: moves, a => do
    let outcome ← move m a
    let later ← watch move see moves outcome.2
    .ok (see outcome :: later)

/-- What is shown is seen of outcomes. -/
theorem exists_outcomes_of_watch {move : Move → α → Except Fault (Bool × α)} {see : Bool × α → β}
    {moves : List Move} {a : α} {shown : List β} (h : watch move see moves a = .ok shown) :
    ∃ outcomes, watch move id moves a = .ok outcomes ∧ outcomes.map see = shown := by
  induction moves generalizing a shown with
  | nil =>
    cases h
    exact ⟨[], rfl, rfl⟩
  | cons m moves ih =>
    rw [watch] at h
    obtain ⟨outcome, houtcome, h⟩ := except_bind_eq_ok.1 h
    obtain ⟨later, hlater, h⟩ := except_bind_eq_ok.1 h
    cases h
    obtain ⟨outcomes, hrun, rfl⟩ := ih hlater
    refine ⟨outcome :: outcomes, ?_, rfl⟩
    rw [watch, houtcome]
    show (watch move id moves outcome.2).bind _ = _
    rw [hrun]
    rfl

/-- Where every move shows what a plain cursor lets one expect, and the two stay related, the
same holds of all runs. -/
theorem watch_eq {move : Move → α → Except Fault (Bool × α)} {see : Bool × α → β}
    {expect : Bool × PlainCursor → β} {S : α → PlainCursor → Prop}
    (hmove : ∀ m {a c}, S a c → ∃ outcome, move m a = .ok outcome ∧
      see outcome = expect (c.moved m) ∧ S outcome.2 (c.moved m).2)
    {a : α} {c : PlainCursor} (h : S a c) (moves : List Move) :
    watch move see moves a = .ok ((c.run moves).map expect) := by
  induction moves generalizing a c with
  | nil => rfl
  | cons m moves ih =>
    obtain ⟨outcome, houtcome, hsee, hS⟩ := hmove m h
    rw [watch, houtcome]
    show (watch move see moves outcome.2).bind (fun later => .ok (see outcome :: later)) = _
    rw [ih hS, hsee, PlainCursor.run, List.map_cons]
    rfl

variable {α' β' : Type}

/-- Where every move of two machines goes through and shows related things, and the machines stay
related, the same holds of all runs. -/
theorem forall₂_watch {move : Move → α → Except Fault (Bool × α)} {see : Bool × α → β}
    {move' : Move → α' → Except Fault (Bool × α')} {see' : Bool × α' → β'} {S : α → α' → Prop}
    {T : β → β' → Prop}
    (hmove : ∀ m {a a'}, S a a' → ∃ outcome outcome', move m a = .ok outcome ∧
      move' m a' = .ok outcome' ∧ T (see outcome) (see' outcome') ∧ S outcome.2 outcome'.2)
    {a : α} {a' : α'} (h : S a a') (moves : List Move) :
    ∃ shown shown', watch move see moves a = .ok shown ∧ watch move' see' moves a' = .ok shown' ∧
      List.Forall₂ T shown shown' := by
  induction moves generalizing a a' with
  | nil => exact ⟨[], [], rfl, rfl, .nil⟩
  | cons m moves ih =>
    obtain ⟨outcome, outcome', houtcome, houtcome', hT, hS⟩ := hmove m h
    obtain ⟨later, later', hlater, hlater', hrest⟩ := ih hS
    refine ⟨see outcome :: later, see' outcome' :: later', ?_, ?_, .cons hT hrest⟩
    · simp only [watch, houtcome, hlater, bind, Except.bind]
    · simp only [watch, houtcome', hlater', bind, Except.bind]

end Watching

end TextSearch
