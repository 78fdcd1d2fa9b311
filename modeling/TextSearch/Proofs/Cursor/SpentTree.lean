import TextSearch.Proofs.Cursor.SpanTree
import TextSearch.Proofs.Cursor.Spent
import TextSearch.Proofs.Outcome

/-!
# Spent trees of span cursors

When a tree of span cursors is spent is told by height, like the trails that it walks.
Main statements: `SpanCursor.Walks.spent_of_next` and `SpanCursor.Walks.spent_of_skipTo`,
that a tree is spent once it has found nothing, and `SpanCursor.Spent.next` and
`SpanCursor.Spent.skipTo`, that it stays so.
-/

namespace TextSearch

theorem ListCursor.eq_nil_of_movedTo {c : ListCursor} {rest : List Posting}
    (h : (c.movedTo rest).1 = false) : rest = [] := by
  cases rest with
  | nil => rfl
  | cons p rest => cases h

namespace PostingCursor

/-- A posting cursor is spent when it has moved and nothing is left of its list. -/
structure Spent (c : PostingCursor) : Prop where
  /-- The cursor has moved. -/
  started : c.base.started = true
  /-- Nothing is left of the list. -/
  rest : c.base.rest = []

variable {c : PostingCursor}

theorem spent_of_next (h : c.next.1 = false) : c.next.2.Spent := by
  rw [next, nextThrough_eq_movedTo] at h ⊢
  exact ⟨rfl, ListCursor.eq_nil_of_movedTo (c := c.base) h⟩

theorem spent_of_skipTo {target : Nat} (h : (c.skipTo target).1 = false) :
    (c.skipTo target).2.Spent := by
  rw [skipTo, skipThrough_eq_movedTo] at h ⊢
  exact ⟨rfl, ListCursor.eq_nil_of_movedTo (c := c.base) h⟩

namespace Spent

theorem next_eq_false (h : c.Spent) : c.next.1 = false := by
  rw [PostingCursor.next, nextThrough_eq_movedTo, ListCursor.ahead, h.started, if_pos rfl, h.rest]
  rfl

theorem skipTo_eq_false (h : c.Spent) (target : Nat) : (c.skipTo target).1 = false := by
  rw [PostingCursor.skipTo, skipThrough_eq_movedTo, h.rest]
  rfl

theorem doc (h : c.Spent) : c.doc = endOfDocs := by
  rw [PostingCursor.doc, ListCursor.doc, ListCursor.current?, h.started, if_pos rfl, h.rest]
  rfl

end Spent

end PostingCursor

namespace SpanCursor

/-- A tree of at most a height is spent. -/
def SpentTo : Nat → SpanCursor → Prop
  | 0, _ => False
  | _ + 1, term c _ => c.Spent
  | height + 1, sieve s => SpanSieve.Spent (SpentTo height) s
  | _ + 1, union u => u.Spent
  | height + 1, proximity p => SpanProximity.Spent (WalksTo height) (SpentTo height) p

/-! ### The operations of one height -/

theorem findsNothing_loaded {move : Bool × PostingCursor} (hnothing : move.1 = false)
    (hspent : move.2.Spent) (height : Nat) : FindsNothing (SpentTo (height + 1)) (loaded move) := by
  obtain ⟨found, c⟩ := move
  have hnothing : found = false := hnothing
  subst hnothing
  exact ⟨term c [], rfl, hspent⟩

theorem findsNothing_wrapped {α : Type} {wrap : α → SpanCursor} {S : α → Prop}
    {T : SpanCursor → Prop} (hwrap : ∀ c, S c → T (wrap c)) {outcome : Except Fault (Bool × α)}
    (h : FindsNothing S outcome) : FindsNothing T (wrapped wrap outcome) := by
  obtain ⟨c, rfl, hc⟩ := h
  exact ⟨wrap c, rfl, hwrap c hc⟩

theorem eq_of_wrapped {α : Type} {wrap : α → SpanCursor} {outcome : Except Fault (Bool × α)}
    {found : Bool} {c' : SpanCursor} (h : wrapped wrap outcome = .ok (found, c')) :
    ∃ c, outcome = .ok (found, c) ∧ c' = wrap c := by
  obtain ⟨⟨found', c⟩, houtcome, heq⟩ := except_map_eq_ok.1 h
  cases heq
  exact ⟨c, houtcome, rfl⟩

theorem spent_of_loaded {move : Bool × PostingCursor}
    (hmove : move.1 = false → move.2.Spent) {c' : SpanCursor}
    (h : loaded move = .ok (false, c')) (height : Nat) : SpentTo (height + 1) c' := by
  obtain ⟨found, c⟩ := move
  cases found with
  | false =>
    have hc' : term c [] = c' := congrArg Prod.snd (Except.ok.inj h)
    subst hc'
    exact hmove rfl
  | true =>
    -- a cursor that has found something either loads it or fails
    rw [loaded, if_pos rfl] at h
    obtain ⟨os, -, hos⟩ := except_bind_eq_ok.1 h
    cases hos

section Heights

variable {height : Nat} (ih : (stepper height).Spends (WalksTo height) (SpentTo height))
  {c c' : SpanCursor} {place : Place (List Span)}
include ih

theorem findsNothing_next (h : SpentTo (height + 1) c) :
    FindsNothing (SpentTo (height + 1)) ((stepper (height + 1)).next c) := by
  cases c with
  | term c ss =>
    have hnothing := PostingCursor.Spent.next_eq_false h
    exact findsNothing_loaded hnothing (PostingCursor.spent_of_next hnothing) height
  | sieve s =>
    exact findsNothing_wrapped (T := SpentTo (height + 1)) (fun _ hs => hs)
      (SpanSieve.Spent.next ih h)
  | union u =>
    exact findsNothing_wrapped (T := SpentTo (height + 1)) (fun _ hu => hu) (SpanUnion.Spent.next h)
  | proximity p =>
    exact findsNothing_wrapped (T := SpentTo (height + 1)) (fun _ hp => hp)
      (SpanProximity.Spent.next (follows_stepper height) ih h)

theorem findsNothing_skipTo (target : Nat) (h : SpentTo (height + 1) c) :
    FindsNothing (SpentTo (height + 1)) ((stepper (height + 1)).skipTo target c) := by
  cases c with
  | term c ss =>
    have hnothing := PostingCursor.Spent.skipTo_eq_false h target
    exact findsNothing_loaded hnothing (PostingCursor.spent_of_skipTo hnothing) height
  | sieve s =>
    exact findsNothing_wrapped (T := SpentTo (height + 1)) (fun _ hs => hs)
      (SpanSieve.Spent.skipTo ih h target)
  | union u =>
    exact findsNothing_wrapped (T := SpentTo (height + 1)) (fun _ hu => hu)
      (SpanUnion.Spent.skipTo h target)
  | proximity p =>
    exact findsNothing_wrapped (T := SpentTo (height + 1)) (fun _ hp => hp)
      (SpanProximity.Spent.skipTo (follows_stepper height) ih h target)

theorem spentTo_of_next (h : WalksTo (height + 1) c place)
    (heq : (stepper (height + 1)).next c = .ok (false, c')) : SpentTo (height + 1) c' := by
  have hfollows := follows_stepper height
  cases c with
  | term c ss => exact spent_of_loaded PostingCursor.spent_of_next heq height
  | sieve s =>
    obtain ⟨s', hs', rfl⟩ := eq_of_wrapped heq
    exact SpanSieve.Walks.spent_of_next hfollows ih h hs'
  | union u =>
    obtain ⟨u', hu', rfl⟩ := eq_of_wrapped heq
    exact SpanUnion.Walks.spent_of_next hfollows h hu'
  | proximity p =>
    obtain ⟨p', hp', rfl⟩ := eq_of_wrapped heq
    exact SpanProximity.Walks.spent_of_next hfollows ih h hp'

theorem spentTo_of_skipTo (h : WalksTo (height + 1) c place) {target : Nat}
    (heq : (stepper (height + 1)).skipTo target c = .ok (false, c')) :
    SpentTo (height + 1) c' := by
  have hfollows := follows_stepper height
  cases c with
  | term c ss => exact spent_of_loaded PostingCursor.spent_of_skipTo heq height
  | sieve s =>
    obtain ⟨s', hs', rfl⟩ := eq_of_wrapped heq
    exact SpanSieve.Walks.spent_of_skipTo hfollows ih h hs'
  | union u =>
    obtain ⟨u', hu', rfl⟩ := eq_of_wrapped heq
    exact SpanUnion.Walks.spent_of_skipTo hfollows h hu'
  | proximity p =>
    obtain ⟨p', hp', rfl⟩ := eq_of_wrapped heq
    exact SpanProximity.Walks.spent_of_skipTo hfollows ih h hp'

end Heights

/-- The operations of every height spend the trees of that height. -/
theorem spends_stepper (height : Nat) :
    (stepper height).Spends (WalksTo height) (SpentTo height) := by
  induction height with
  | zero => exact ⟨False.elim, False.elim, fun _ => False.elim, False.elim, False.elim⟩
  | succ height ih =>
    refine ⟨fun {c} h => ?_, findsNothing_next ih, findsNothing_skipTo ih, spentTo_of_next ih,
      fun h => spentTo_of_skipTo ih h⟩
    rw [doc_stepper]
    cases c with
    | term c ss => exact PostingCursor.Spent.doc h
    | sieve s =>
      obtain ⟨inner, filter, ss⟩ := s
      have hspent : SpentTo height inner := h
      rw [doc]
      simpa using ih.doc hspent
    | union u => exact SpanUnion.Spent.current h
    | proximity p => exact SpanProximity.Spent.current h

/-! ### Trees of any height -/

/-- Any height will do that is not below that of the tree. -/
theorem SpentTo.adjust {height : Nat} : ∀ {height' : Nat} {c : SpanCursor},
    SpentTo height c → c.height ≤ height' → SpentTo height' c := by
  induction height with
  | zero => exact fun h => h.elim
  | succ height ih =>
    intro height' c h hle
    have hpos : 0 < c.height := by
      cases c <;> simp [SpanCursor.height]
    obtain ⟨height', rfl⟩ : ∃ n, height' = n + 1 := ⟨height' - 1, by omega⟩
    cases c with
    | term c ss => exact h
    | sieve s =>
      obtain ⟨inner, filter, ss⟩ := s
      have hspent : SpentTo height inner := h
      have hspent' : SpentTo height' inner := ih hspent (Nat.le_of_succ_le_succ hle)
      exact hspent'
    | union u => exact h
    | proximity p =>
      obtain ⟨subs, slop, inOrder, started, current, ss⟩ := p
      have hheight : ∀ c ∈ subs, c.height ≤ height' := fun c hc =>
        Nat.le_trans (height_le_heightAll hc) (Nat.le_of_succ_le_succ hle)
      refine ⟨SpanProximity.Spent.current h, (SpanProximity.Spent.subs h).imp_right ?_⟩
      rintro ⟨hstarted, huneven⟩
      obtain ⟨d, hd, hspent⟩ := huneven.spent
      refine ⟨hstarted, fun c hc => ?_, d, hd, ih hspent (hheight d hd)⟩
      rcases huneven.usable c hc with hspent | ⟨place, hwalks⟩
      · exact .inl (ih hspent (hheight c hc))
      · exact .inr ⟨place, hwalks.adjust (hheight c hc)⟩

/-- A tree is spent. -/
def Spent (c : SpanCursor) : Prop := SpentTo c.height c

theorem spent_of_spentTo (height : Nat) {c : SpanCursor} (h : SpentTo height c) : c.Spent :=
  h.adjust (Nat.le_refl _)

/-- A spent tree has no next document. -/
theorem Spent.next {c : SpanCursor} (h : c.Spent) : FindsNothing Spent c.next := by
  obtain ⟨c', hc', hspent⟩ := (spends_stepper c.height).next h
  exact ⟨c', hc', spent_of_spentTo _ hspent⟩

/-- No skip of a spent tree finds a document. -/
theorem Spent.skipTo {c : SpanCursor} (h : c.Spent) (target : Nat) :
    FindsNothing Spent (c.skipTo target) := by
  obtain ⟨c', hc', hspent⟩ := (spends_stepper c.height).skipTo target h
  exact ⟨c', hc', spent_of_spentTo _ hspent⟩

/-- A tree that has no next document is spent. -/
theorem Walks.spent_of_next {width : UInt32} {c c' : SpanCursor} {place : Place (List Span)}
    (h : Walks width c place) (heq : c.next = .ok (false, c')) : c'.Spent :=
  spent_of_spentTo _ ((spends_stepper c.height).spent_of_next h.1 heq)

/-- A tree that is skipped past its end is spent. -/
theorem Walks.spent_of_skipTo {width : UInt32} {c c' : SpanCursor} {place : Place (List Span)}
    (h : Walks width c place) {target : Nat} (heq : c.skipTo target = .ok (false, c')) : c'.Spent :=
  spent_of_spentTo _ ((spends_stepper c.height).spent_of_skipTo h.1 heq)

end SpanCursor

end TextSearch
