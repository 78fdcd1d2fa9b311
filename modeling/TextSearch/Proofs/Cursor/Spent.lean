import TextSearch.Proofs.Cursor.Proximity
import TextSearch.Proofs.Cursor.SpanUnion

/-!
# Spent cursors

A cursor that has found nothing is spent: however it is moved, it finds nothing more.
`SpanStepper.Spends` says so of the operations on cursors of some type, and it is proved
here of sieves, unions and proximities whose operands are such cursors. A proximity gives
up as soon as one of its operands is spent, and leaves the others where they are: in front
of their trails, on some visit, or spent as well. Moved again it may still bring some of
them forward, but within two passes it comes upon a spent one.
-/

namespace TextSearch

variable {α : Type} {ops : SpanStepper α} {R : α → Place (List Span) → Prop} {S : α → Prop}

/-- A move does not fail, and finds nothing. -/
def FindsNothing (S : α → Prop) (outcome : Except Fault (Bool × α)) : Prop :=
  ∃ c, outcome = .ok (false, c) ∧ S c

/-- Cursors that walk trails are spent when they have found nothing, and stay so. -/
structure SpanStepper.Spends (ops : SpanStepper α) (R : α → Place (List Span) → Prop)
    (S : α → Prop) : Prop where
  /-- A spent cursor reports no document. -/
  doc : ∀ {c}, S c → ops.doc c = endOfDocs
  /-- A spent cursor has no next document. -/
  next : ∀ {c}, S c → FindsNothing S (ops.next c)
  /-- No skip of a spent cursor finds a document. -/
  skipTo : ∀ {c} (target), S c → FindsNothing S (ops.skipTo target c)
  /-- A cursor that has no next document is spent. -/
  spent_of_next : ∀ {c p c'}, R c p → ops.next c = .ok (false, c') → S c'
  /-- A cursor that is skipped past its end is spent. -/
  spent_of_skipTo : ∀ {c p target c'}, R c p → ops.skipTo target c = .ok (false, c') → S c'

/-- A skip past all documents finds nothing. -/
theorem SpanStepper.Spends.findsNothing_of_end (hs : ops.Spends R S) (h : ops.Follows R) {c : α}
    {p : Place (List Span)} (hc : R c p) {target : Nat} (hend : endOfDocs ≤ target) :
    FindsNothing S (ops.skipTo target c) := by
  obtain ⟨⟨found, c'⟩, hmove, harrived⟩ := h.skipTo target hc
  have hsince : p.pending.since target = [] := by
    refine List.eq_nil_iff_forall_not_mem.2 fun v hv => ?_
    obtain ⟨hv, hle⟩ := (h.sound hc).mem_since.1 hv
    have := (h.sound hc).bounded v hv
    omega
  rw [hsince] at harrived
  have hfound : found = false := harrived
  subst hfound
  exact ⟨c', hmove, hs.spent_of_skipTo hc hmove⟩

/-- A cursor walks some trail, or is spent. -/
def Usable (R : α → Place (List Span) → Prop) (S : α → Prop) (c : α) : Prop :=
  S c ∨ ∃ p, R c p

/-- A move does not fail; it ends on a visit, or leaves a spent cursor. -/
def Moves (R : α → Place (List Span) → Prop) (S : α → Prop)
    (outcome : Except Fault (Bool × α)) : Prop :=
  (∃ c v t, outcome = .ok (true, c) ∧ R c (.on v t)) ∨ FindsNothing S outcome

namespace Usable

variable {c : α}

theorem moves_of_arrives {outcome : Except Fault (Bool × α)} {t : Trail (List Span)}
    (h : Arrives R outcome t) (hspent : ∀ c', outcome = .ok (false, c') → S c') :
    Moves R S outcome := by
  obtain ⟨⟨found, c'⟩, rfl, harrived⟩ := h
  cases t with
  | nil =>
    have hfound : found = false := harrived
    subst hfound
    exact .inr ⟨c', rfl, hspent c' rfl⟩
  | cons v t =>
    obtain ⟨hfound, hc'⟩ := harrived
    have hfound : found = true := hfound
    subst hfound
    exact .inl ⟨c', v, t, rfl, hc'⟩

theorem next (h : ops.Follows R) (hs : ops.Spends R S) (hc : Usable R S c) :
    Moves R S (ops.next c) := by
  rcases hc with hspent | ⟨p, hp⟩
  · exact .inr (hs.next hspent)
  · exact moves_of_arrives (h.next hp) fun c' => hs.spent_of_next hp

theorem skipTo (h : ops.Follows R) (hs : ops.Spends R S) (hc : Usable R S c) (target : Nat) :
    Moves R S (ops.skipTo target c) := by
  rcases hc with hspent | ⟨p, hp⟩
  · exact .inr (hs.skipTo target hspent)
  · exact moves_of_arrives (h.skipTo target hp) fun c' => hs.spent_of_skipTo hp

end Usable

theorem usable_of_walks {c : α} {p : Place (List Span)} (h : R c p) : Usable R S c := .inr ⟨p, h⟩

theorem usable_of_forall₂ {β : Type} {P : α → β → Prop} (hP : ∀ c t, P c t → ∃ p, R c p)
    {cs : List α} {ts : List β} (h : List.Forall₂ P cs ts) : ∀ c ∈ cs, Usable R S c := by
  induction h with
  | nil => exact List.forall_mem_nil _
  | cons hc _ ih => exact List.forall_mem_cons.2 ⟨.inr (hP _ _ hc), ih⟩

/-! ### Sieves -/

namespace SpanSieve

/-- A sieve is spent when its inner cursor is. -/
def Spent (S : α → Prop) (s : SpanSieve α) : Prop := S s.inner

theorem Settles.spent (h : ops.Follows R) (hs : ops.Spends R S) {filter : SpanFilter}
    {move : Bool × α} {outcome : Bool × SpanSieve α} (hsettles : Settles ops filter move outcome)
    (hmove : Moves R S (.ok move)) (hnothing : outcome.1 = false) : Spent S outcome.2 := by
  induction hsettles with
  | nothing =>
    rcases hmove with ⟨c, v, t, hc, -⟩ | ⟨c, hc, hspent⟩
    · cases hc
    · cases hc
      exact hspent
  | kept hkeep hsome => cases hnothing
  | further hkeep hnext hrest ih =>
    refine ih ?_ hnothing
    rcases hmove with ⟨c, v, t, hc, hwalks⟩ | ⟨c, hc, -⟩
    · cases hc
      exact hnext ▸ (usable_of_walks hwalks).next h hs
    · cases hc

theorem findsNothing_settled (ops : SpanStepper α) (filter : SpanFilter) {c : α} (hspent : S c) :
    FindsNothing (Spent S) (settled ops filter (false, c)) := ⟨⟨c, filter, []⟩, rfl, hspent⟩

theorem Spent.next (hs : ops.Spends R S) {s : SpanSieve α} (hspent : Spent S s) :
    FindsNothing (Spent S) (s.next ops) := by
  obtain ⟨c, hc, hspent'⟩ := hs.next hspent
  rw [SpanSieve.next, hc]
  exact findsNothing_settled ops s.filter hspent'

theorem Spent.skipTo (hs : ops.Spends R S) {s : SpanSieve α} (hspent : Spent S s)
    (target : Nat) : FindsNothing (Spent S) (s.skipTo ops target) := by
  obtain ⟨c, hc, hspent'⟩ := hs.skipTo target hspent
  rw [SpanSieve.skipTo, hc]
  exact findsNothing_settled ops s.filter hspent'

/-- What a sieve has settled on after a move of its inner cursor. -/
theorem spent_of_settled (h : ops.Follows R) (hs : ops.Spends R S) {filter : SpanFilter}
    {inner : Except Fault (Bool × α)} {t : Trail (List Span)} (harrives : Arrives R inner t)
    (hmoves : Moves R S inner) {s' : SpanSieve α}
    (heq : (inner >>= fun move => settled ops filter move) = .ok (false, s')) : Spent S s' := by
  obtain ⟨move, rfl, harrived⟩ := harrives
  obtain ⟨outcome, houtcome, hsettles, -⟩ := arrives_settled h filter harrived
  have hsame : outcome = (false, s') := Except.ok.inj (houtcome.symm.trans heq)
  have hspent := hsettles.spent h hs hmoves (by rw [hsame])
  rwa [hsame] at hspent

theorem Walks.exists_inner {s : SpanSieve α} {place : Place (List Span)} (hw : Walks R s place) :
    ∃ p, R s.inner p := by
  cases hw with
  | before hinner => exact ⟨_, hinner⟩
  | on hinner hkept hsome => exact ⟨_, hinner⟩

theorem Walks.spent_of_next (h : ops.Follows R) (hs : ops.Spends R S) {s s' : SpanSieve α}
    {place : Place (List Span)} (hw : Walks R s place) (heq : s.next ops = .ok (false, s')) :
    Spent S s' := by
  obtain ⟨p, hp⟩ := hw.exists_inner
  exact spent_of_settled h hs (h.next hp) ((usable_of_walks hp).next h hs) heq

theorem Walks.spent_of_skipTo (h : ops.Follows R) (hs : ops.Spends R S) {s s' : SpanSieve α}
    {place : Place (List Span)} (hw : Walks R s place) {target : Nat}
    (heq : s.skipTo ops target = .ok (false, s')) : Spent S s' := by
  obtain ⟨p, hp⟩ := hw.exists_inner
  exact spent_of_settled h hs (h.skipTo target hp) ((usable_of_walks hp).skipTo h hs target) heq

end SpanSieve

/-! ### Unions -/

namespace SpanUnion

/-- A union is spent when no operand is marked. Operands without a mark are not moved again. -/
structure Spent (u : SpanUnion α) : Prop where
  /-- The union has moved. -/
  started : u.started = true
  /-- It stands on no document. -/
  current : u.current = endOfDocs
  /-- No operand stands on a document. -/
  unmarked : ∀ c ∈ u.subs, c.1 = false

theorem moveWhere_of_false {test : Bool × α → Bool} {move : α → Except Fault (Bool × α)}
    {subs : List (Bool × α)} (htest : ∀ c ∈ subs, test c = false) :
    moveWhere test move subs = .ok subs := by
  induction subs with
  | nil => rfl
  | cons c subs ih =>
    obtain ⟨hc, hsubs⟩ := List.forall_mem_cons.1 htest
    rw [moveWhere, hc, ih hsubs]
    rfl

theorem collected_of_unmarked (ops : SpanStepper α) {subs : List (Bool × α)} (h : ∀ c ∈ subs, c.1 = false) :
    FindsNothing Spent (.ok (collected ops subs)) := by
  have hnone : subs.filter (·.1) = [] :=
    List.filter_eq_nil_iff.2 fun c hc => by rw [h c hc]; exact Bool.false_ne_true
  have hleast : leastDoc ops subs = endOfDocs := by
    rw [leastDoc, hnone]
    rfl
  refine ⟨⟨subs, true, endOfDocs, []⟩, ?_, rfl, rfl, h⟩
  rw [collected, hleast, if_pos rfl]

namespace Spent

variable {u : SpanUnion α}

theorem next (hu : u.Spent) : FindsNothing Spent (u.next ops) := by
  have hstay : moveWhere (fun c => !u.started || (c.1 && ops.doc c.2 == u.current)) ops.next
      u.subs = .ok u.subs :=
    moveWhere_of_false fun c hc => by rw [hu.started, hu.unmarked c hc]; rfl
  rw [SpanUnion.next, hstay]
  exact collected_of_unmarked ops hu.unmarked

theorem skipTo (hu : u.Spent) (target : Nat) : FindsNothing Spent (u.skipTo ops target) := by
  have hstay : moveWhere (fun c => !u.started || (c.1 && decide (ops.doc c.2 < target)))
      (ops.skipTo target) u.subs = .ok u.subs :=
    moveWhere_of_false fun c hc => by rw [hu.started, hu.unmarked c hc]; rfl
  rw [SpanUnion.skipTo, hstay]
  exact collected_of_unmarked ops hu.unmarked

end Spent

theorem unmarked_of_merged_eq_nil {subs : List (Bool × α)} {ts : List (Trail (List Span))}
    (hsubs : List.Forall₂ (Arrived R) subs ts) (hnil : merged ts = []) :
    ∀ c ∈ subs, c.1 = false := by
  have hleast : Trail.leastDoc? ts = none := by
    cases hleast : Trail.leastDoc? ts with
    | none => rfl
    | some d =>
      rw [merged, Trail.union_of_some hleast, Trail.showing_cons] at hnil
      cases hnil
  have hts := Trail.leastDoc?_eq_none_iff.1 hleast
  clear hnil hleast
  induction hsubs with
  | nil => exact List.forall_mem_nil _
  | cons hc _ ih =>
    obtain ⟨ht, hrest⟩ := List.forall_mem_cons.1 hts
    subst ht
    exact List.forall_mem_cons.2 ⟨hc, ih hrest⟩

/-- A union that has collected nothing is spent. -/
theorem spent_of_collected (h : ops.Follows R) {subs : List (Bool × α)}
    {ts : List (Trail (List Span))} (hsubs : List.Forall₂ (Arrived R) subs ts)
    {u' : SpanUnion α} (heq : collected ops subs = (false, u')) : Spent u' := by
  have hfound := (arrived_collected h hsubs).found
  have hnil : merged ts = [] := by
    rw [heq] at hfound
    simpa using hfound
  obtain ⟨u, hu, hspent⟩ := collected_of_unmarked ops (unmarked_of_merged_eq_nil hsubs hnil)
  have hsame : (false, u) = (false, u') := (Except.ok.inj hu).symm.trans heq
  cases hsame
  exact hspent

theorem Walks.spent_of_next (h : ops.Follows R) {u u' : SpanUnion α} {place : Place (List Span)}
    (hw : Walks R u place) (heq : u.next ops = .ok (false, u')) : Spent u' := by
  obtain ⟨moved, ts, hmoved, hall, -⟩ := hw.moved_next h
  exact spent_of_collected h hall (Except.ok.inj (hmoved.symm.trans heq))

theorem Walks.spent_of_skipTo (h : ops.Follows R) {u u' : SpanUnion α}
    {place : Place (List Span)} (hw : Walks R u place) {target : Nat}
    (heq : u.skipTo ops target = .ok (false, u')) : Spent u' := by
  obtain ⟨moved, ts, hmoved, hall, -⟩ := hw.moved_skipTo h target
  exact spent_of_collected h hall (Except.ok.inj (hmoved.symm.trans heq))

end SpanUnion

/-! ### Proximities -/

namespace SpanProximity

/-- Some operands are spent, and the others walk trails, each at a place of its own. -/
structure Uneven (R : α → Place (List Span) → Prop) (S : α → Prop) (subs : List α) : Prop where
  /-- Every operand can be moved. -/
  usable : ∀ c ∈ subs, Usable R S c
  /-- Some operand finds nothing. -/
  spent : ∃ c ∈ subs, S c

/-- What a pass makes of operands of which some may be spent. -/
structure PassedUsable (R : α → Place (List Span) → Prop) (S : α → Prop) (target : Nat)
    (subs : List α) (p : AlignmentPass α) : Prop where
  /-- There are as many operands as before. -/
  length : p.subs.length = subs.length
  /-- Every operand can be moved. -/
  usable : ∀ c ∈ p.subs, Usable R S c
  /-- A pass stops at an operand that has found nothing. -/
  spent : p.alive = false → ∃ c ∈ p.subs, S c
  /-- The target only moves on. -/
  le_target : target ≤ p.target
  /-- The target does not move on where everything is aligned. -/
  aligned : p.alive = true → p.aligned = true → p.target = target
  /-- A spent operand takes the target past all documents. -/
  uneven : p.alive = true → (∃ c ∈ subs, S c) → (∃ c ∈ p.subs, S c) ∧ endOfDocs ≤ p.target

/-- An operand is brought up to the target, unless it finds nothing; if it was spent before, it
is not moved. -/
theorem brought_up (h : ops.Follows R) (hs : ops.Spends R S) {c : α} (hc : Usable R S c)
    (target : Nat) :
    ∃ move, (if ops.doc c < target then ops.skipTo target c else .ok (true, c)) = .ok move ∧
      ((move.1 = false ∧ S move.2) ∨
        (move.1 = true ∧ Usable R S move.2 ∧ (S c → S move.2))) := by
  by_cases hlt : ops.doc c < target
  · rw [if_pos hlt]
    rcases hc.skipTo h hs target with ⟨c', v, t, hc', hwalks⟩ | ⟨c', hc', hspent⟩
    · refine ⟨(true, c'), hc', .inr ⟨rfl, usable_of_walks hwalks, fun hspent => ?_⟩⟩
      obtain ⟨c'', hc'', -⟩ := hs.skipTo target hspent
      rw [hc'] at hc''
      cases hc''
    · exact ⟨(false, c'), hc', .inl ⟨rfl, hspent⟩⟩
  · rw [if_neg hlt]
    exact ⟨(true, c), rfl, .inr ⟨rfl, hc, id⟩⟩

theorem pass_usable (h : ops.Follows R) (hs : ops.Spends R S) {subs : List α}
    (hsubs : ∀ c ∈ subs, Usable R S c) (target : Nat) :
    ∃ p, pass ops target subs = .ok p ∧ PassedUsable R S target subs p := by
  induction subs generalizing target with
  | nil =>
    refine ⟨_, rfl, ?_⟩
    exact
      { length := rfl, usable := hsubs, spent := fun hdead => by cases hdead
        le_target := Nat.le_refl _, aligned := fun _ _ => rfl
        uneven := fun _ ⟨_, hc, _⟩ => by cases hc }
  | cons c subs ih =>
    obtain ⟨hc, hrest⟩ := List.forall_mem_cons.1 hsubs
    obtain ⟨⟨found, c'⟩, hmove, hcases⟩ := brought_up h hs hc target
    rw [pass_cons hmove]
    rcases hcases with ⟨hfound, hspent⟩ | ⟨hfound, husable, hkeeps⟩
    · have hfound : found = false := hfound
      subst hfound
      refine ⟨_, rfl, ?_⟩
      exact
        { length := rfl
          usable := List.forall_mem_cons.2 ⟨.inl hspent, hrest⟩
          spent := fun _ => ⟨c', List.mem_cons_self .., hspent⟩
          le_target := Nat.le_refl _
          aligned := fun halive => by cases halive
          uneven := fun halive => by cases halive }
    · have hfound : found = true := hfound
      subst hfound
      obtain ⟨p, hp, hpassed⟩ := ih hrest (max target (ops.doc c'))
      have hmax := hpassed.le_target
      refine ⟨{ p with aligned := p.aligned && decide (ops.doc c' ≤ target),
                       subs := c' :: p.subs }, ?_, ?_⟩
      · simp only [if_true, hp, Except.map]
      · exact
          { length := congrArg (· + 1) hpassed.length
            usable := List.forall_mem_cons.2 ⟨husable, hpassed.usable⟩
            spent := fun hdead =>
              (hpassed.spent hdead).imp fun _ hd => ⟨List.mem_cons_of_mem _ hd.1, hd.2⟩
            le_target := Nat.le_trans (Nat.le_max_left ..) hmax
            aligned := by
              intro halive haligned
              obtain ⟨hp', hle⟩ := Bool.and_eq_true_iff.1 haligned
              have hle : ops.doc c' ≤ target := of_decide_eq_true hle
              have htarget := hpassed.aligned halive hp'
              show p.target = target
              omega
            uneven := by
              rintro halive ⟨d, hd, hspent⟩
              rcases List.mem_cons.1 hd with rfl | hd
              · have hspent' := hkeeps hspent
                have hend : endOfDocs ≤ max target (ops.doc c') :=
                  hs.doc hspent' ▸ Nat.le_max_right ..
                exact ⟨⟨c', List.mem_cons_self .., hspent'⟩, Nat.le_trans hend hmax⟩
              · obtain ⟨⟨e, he, hspent'⟩, hend⟩ := hpassed.uneven halive ⟨d, hd, hspent⟩
                exact ⟨⟨e, List.mem_cons_of_mem _ he, hspent'⟩, hend⟩ }

/-- Passes that end without an alignment have come upon an operand that has found nothing. -/
theorem Passes.usable (h : ops.Follows R) (hs : ops.Spends R S) {target : Nat} {subs : List α}
    {p : AlignmentPass α} (hpasses : Passes ops target subs p)
    (hsubs : ∀ c ∈ subs, Usable R S c) :
    p.subs.length = subs.length ∧ (∀ c ∈ p.subs, Usable R S c) ∧
      (p.alive = false → ∃ c ∈ p.subs, S c) := by
  induction hpasses with
  | @last target subs p hpass hlast =>
    obtain ⟨q, hq, hpassed⟩ := pass_usable h hs hsubs target
    cases hpass.symm.trans hq
    exact ⟨hpassed.length, hpassed.usable, hpassed.spent⟩
  | @further target subs p q hpass hmore hrest ih =>
    obtain ⟨p', hp', hpassed⟩ := pass_usable h hs hsubs target
    cases hpass.symm.trans hp'
    obtain ⟨hlength, husable, hspent⟩ := ih hpassed.usable
    exact ⟨hlength.trans hpassed.length, husable, hspent⟩

/-- Operands after a move of the leading one or of all: they can be moved, and if the move has
found nothing, one of them is spent. -/
structure Ready (R : α → Place (List Span) → Prop) (S : α → Prop) (move : Bool × List α) :
    Prop where
  /-- There are operands. -/
  ne_nil : move.2 ≠ []
  /-- Every operand can be moved. -/
  usable : ∀ c ∈ move.2, Usable R S c
  /-- Some operand has found nothing if the move has. -/
  spent : move.1 = false → ∃ c ∈ move.2, S c

theorem lead_ready {move : α → Except Fault (Bool × α)}
    (hmove : ∀ c, Usable R S c → Moves R S (move c)) {subs : List α} (hsome : subs ≠ [])
    (hsubs : ∀ c ∈ subs, Usable R S c) : ∃ moved, lead move subs = .ok moved ∧ Ready R S moved := by
  cases subs with
  | nil => exact absurd rfl hsome
  | cons c subs =>
    obtain ⟨hc, hrest⟩ := List.forall_mem_cons.1 hsubs
    rcases hmove c hc with ⟨c', v, t, hc', hwalks⟩ | ⟨c', hc', hspent⟩
    · refine ⟨(true, c' :: subs), by rw [lead, hc']; rfl, List.cons_ne_nil _ _, ?_, ?_⟩
      · exact List.forall_mem_cons.2 ⟨usable_of_walks hwalks, hrest⟩
      · intro hnothing
        cases hnothing
    · refine ⟨(false, c' :: subs), by rw [lead, hc']; rfl, List.cons_ne_nil _ _, ?_, fun _ => ?_⟩
      · exact List.forall_mem_cons.2 ⟨.inl hspent, hrest⟩
      · exact ⟨c', List.mem_cons_self .., hspent⟩

theorem start_usable {move : α → Except Fault (Bool × α)}
    (hmove : ∀ c, Usable R S c → Moves R S (move c)) {subs : List α}
    (hsubs : ∀ c ∈ subs, Usable R S c) :
    ∃ moved, start move subs = .ok moved ∧ moved.2.length = subs.length ∧
      (∀ c ∈ moved.2, Usable R S c) ∧ (moved.1 = false → ∃ c ∈ moved.2, S c) := by
  induction subs with
  | nil => exact ⟨(true, []), rfl, rfl, hsubs, fun hnothing => by cases hnothing⟩
  | cons c subs ih =>
    obtain ⟨hc, hrest⟩ := List.forall_mem_cons.1 hsubs
    rcases hmove c hc with ⟨c', v, t, hc', hwalks⟩ | ⟨c', hc', hspent⟩
    · obtain ⟨⟨all, rest⟩, hstart, hlength, husable, hspent⟩ := ih hrest
      refine ⟨(all, c' :: rest), ?_, congrArg (· + 1) hlength, ?_, fun hnothing => ?_⟩
      · simp only [start, hc', hstart, bind, Except.bind, if_true]
      · exact List.forall_mem_cons.2 ⟨usable_of_walks hwalks, husable⟩
      · exact (hspent hnothing).imp fun _ hd => ⟨List.mem_cons_of_mem _ hd.1, hd.2⟩
    · refine ⟨(false, c' :: subs), ?_, rfl, List.forall_mem_cons.2 ⟨.inl hspent, hrest⟩, fun _ => ?_⟩
      · simp only [start, hc', bind, Except.bind, Bool.false_eq_true, if_false]
      · exact ⟨c', List.mem_cons_self .., hspent⟩

theorem start_ready {move : α → Except Fault (Bool × α)}
    (hmove : ∀ c, Usable R S c → Moves R S (move c)) {subs : List α} (hsome : subs ≠ [])
    (hsubs : ∀ c ∈ subs, Usable R S c) :
    ∃ moved, start move subs = .ok moved ∧ Ready R S moved := by
  obtain ⟨moved, hmoved, hlength, husable, hspent⟩ := start_usable hmove hsubs
  refine ⟨moved, hmoved, fun hnil => hsome ?_, husable, hspent⟩
  rw [hnil] at hlength
  exact List.length_eq_zero_iff.1 hlength.symm

/-- A proximity is spent when it has no operands, or when one of them is spent. -/
structure Spent (R : α → Place (List Span) → Prop) (S : α → Prop) (c : SpanProximity α) : Prop where
  /-- The proximity stands on no document. -/
  current : c.current = endOfDocs
  /-- It has no operands, or has moved and left them uneven. -/
  subs : c.subs = [] ∨ c.started = true ∧ Uneven R S c.subs

theorem spent_stopped (c : SpanProximity α) {subs : List α} (h : Uneven R S subs) :
    Spent R S (c.stopped subs) := ⟨rfl, .inr ⟨rfl, h⟩⟩

theorem Settles.spent (h : ops.Follows R) (hs : ops.Spends R S) {c : SpanProximity α}
    {move : Bool × List α} {outcome : Bool × SpanProximity α}
    (hsettles : Settles ops c move outcome) (hready : Ready R S move)
    (hnothing : outcome.1 = false) : Spent R S outcome.2 := by
  induction hsettles with
  | nothing => exact spent_stopped c ⟨hready.usable, hready.spent rfl⟩
  | apart hpasses hdead =>
    obtain ⟨-, husable, hspent⟩ := hpasses.usable h hs hready.usable
    exact spent_stopped c ⟨husable, hspent hdead⟩
  | matching hpasses halive hspans => cases hnothing
  | @further subs p move outcome hpasses halive hspans hlead hrest ih =>
    obtain ⟨hlength, husable, -⟩ := hpasses.usable h hs hready.usable
    have hsome : p.subs ≠ [] := fun hnil => hready.ne_nil (by simpa [hnil] using hlength.symm)
    obtain ⟨moved, hmoved, hready'⟩ := lead_ready (fun c hc => hc.next h hs) hsome husable
    cases hlead.symm.trans hmoved
    exact ih hready' hnothing

/-- Where a spent operand stands behind the leading one, two passes come upon an operand that
finds nothing. -/
theorem align_of_spent (h : ops.Follows R) (hs : ops.Spends R S) {c : α} {v : Visit (List Span)}
    {t : Trail (List Span)} (hc : R c (.on v t)) {rest : List α} (hrest : Uneven R S rest) :
    ∃ p, p.alive = false ∧ Uneven R S p.subs ∧
      ∀ steps, align ops (steps + 2) v.doc (c :: rest) = .ok p := by
  have hbound : v.doc < endOfDocs := (h.sound hc).bounded v (List.mem_cons_self ..)
  have hstays : (if ops.doc c < v.doc then ops.skipTo v.doc c else .ok (true, c)) =
      .ok (true, c) := by
    rw [h.doc hc, if_neg (Nat.lt_irrefl _)]
  obtain ⟨p, hp, hpassed⟩ := pass_usable h hs hrest.usable v.doc
  have hfirst : pass ops v.doc (c :: rest) = .ok { p with subs := c :: p.subs } := by
    rw [pass_cons hstays]
    simp only [h.doc hc, Nat.max_self, if_true, hp, Except.map, Nat.le_refl, decide_true,
      Bool.and_true]
  cases halive : p.alive with
  | false =>
    refine ⟨{ p with subs := c :: p.subs }, halive, ⟨?_, ?_⟩, fun steps => ?_⟩
    · exact List.forall_mem_cons.2 ⟨usable_of_walks hc, hpassed.usable⟩
    · exact (hpassed.spent halive).imp fun _ hd => ⟨List.mem_cons_of_mem _ hd.1, hd.2⟩
    · simp only [align, hfirst, bind, Except.bind, halive, Bool.false_and, Bool.false_eq_true,
        if_false]
  | true =>
    obtain ⟨hspent, hend⟩ := hpassed.uneven halive hrest.spent
    have hunaligned : p.aligned = false := by
      cases haligned : p.aligned with
      | false => rfl
      | true =>
        have := hpassed.aligned halive haligned
        omega
    -- the leading operand has nothing that is not before the new target
    obtain ⟨c', hmove, hspent'⟩ := hs.findsNothing_of_end h hc hend
    have hskips : (if ops.doc c < p.target then ops.skipTo p.target c else .ok (true, c)) =
        .ok (false, c') := by
      rw [if_pos (by rw [h.doc hc]; omega), hmove]
    have hsecond : pass ops p.target (c :: p.subs) = .ok ⟨false, false, p.target, c' :: p.subs⟩ := by
      rw [pass_cons hskips]
      rfl
    refine ⟨⟨false, false, p.target, c' :: p.subs⟩, rfl, ⟨?_, ?_⟩, fun steps => ?_⟩
    · exact List.forall_mem_cons.2 ⟨.inl hspent', hpassed.usable⟩
    · exact hspent.imp fun _ hd => ⟨List.mem_cons_of_mem _ hd.1, hd.2⟩
    · simp only [align, hfirst, hsecond, bind, Except.bind, halive, hunaligned, Bool.not_false,
        Bool.and_self, if_true, Bool.false_and, Bool.false_eq_true, if_false]

/-- A move of the leading operand finds nothing where operands are uneven. -/
theorem findsNothing_lead (h : ops.Follows R) (hs : ops.Spends R S) (c : SpanProximity α)
    {move : α → Except Fault (Bool × α)} (hmove : ∀ c, Usable R S c → Moves R S (move c))
    (hstays : ∀ c, S c → FindsNothing S (move c)) {subs : List α} (hsubs : Uneven R S subs) :
    FindsNothing (Spent R S) (lead move subs >>= fun moved => settled ops c moved) := by
  obtain ⟨d, hd, hspent⟩ := hsubs.spent
  cases subs with
  | nil => cases hd
  | cons b rest =>
    obtain ⟨hb, hrest⟩ := List.forall_mem_cons.1 hsubs.usable
    rcases hmove b hb with ⟨b', v, t, hb', hwalks⟩ | ⟨b', hb', hspent'⟩
    · have hrest' : Uneven R S rest := by
        refine ⟨hrest, d, ?_, hspent⟩
        rcases List.mem_cons.1 hd with rfl | hd
        · obtain ⟨b'', hb'', -⟩ := hstays d hspent
          rw [hb'] at hb''
          cases hb''
        · exact hd
      obtain ⟨p, hdead, huneven, halign⟩ := align_of_spent h hs hwalks hrest'
      refine ⟨c.stopped p.subs, ?_, spent_stopped c huneven⟩
      have hdoc : leadDoc ops (b' :: rest) = v.doc := h.doc hwalks
      have halign' := halign (remaining ops (b' :: rest) + 1)
      simp only [lead, hb', bind, Except.bind, settled, settle, if_true, hdoc, halign', hdead,
        Bool.false_eq_true, if_false]
    · refine ⟨c.stopped (b' :: rest), ?_, spent_stopped c ⟨?_, b', List.mem_cons_self .., hspent'⟩⟩
      · simp only [lead, hb', bind, Except.bind, settled, settle, Bool.false_eq_true, if_false]
      · exact List.forall_mem_cons.2 ⟨.inl hspent', hrest⟩

theorem Spent.next (h : ops.Follows R) (hs : ops.Spends R S) {c : SpanProximity α}
    (hc : c.Spent R S) : FindsNothing (Spent R S) (c.next ops) := by
  rcases hc.subs with hnil | ⟨hstarted, huneven⟩
  · exact ⟨c, by rw [SpanProximity.next, hnil]; rfl, hc⟩
  · obtain ⟨d, hd, -⟩ := huneven.spent
    have hsome : c.subs.isEmpty = false := by simpa using List.ne_nil_of_mem hd
    rw [SpanProximity.next, hsome, hstarted]
    exact findsNothing_lead h hs c (fun _ hd => hd.next h hs) (fun _ => hs.next) huneven

theorem Spent.skipTo (h : ops.Follows R) (hs : ops.Spends R S) {c : SpanProximity α}
    (hc : c.Spent R S) (target : Nat) : FindsNothing (Spent R S) (c.skipTo ops target) := by
  rcases hc.subs with hnil | ⟨hstarted, huneven⟩
  · exact ⟨c, by rw [SpanProximity.skipTo, hnil]; rfl, hc⟩
  · obtain ⟨d, hd, -⟩ := huneven.spent
    have hsome : c.subs.isEmpty = false := by simpa using List.ne_nil_of_mem hd
    rw [SpanProximity.skipTo, hsome, hstarted]
    exact findsNothing_lead h hs c (fun _ hd => hd.skipTo h hs target) (fun _ => hs.skipTo target)
      huneven

/-- The operands of a proximity that walks a trail can be moved. -/
theorem Walks.usable {width : Nat} {c : SpanProximity α} {place : Place (List Span)}
    (hw : Walks R width c place) : ∀ d ∈ c.subs, Usable R S d := by
  cases hw with
  | before hwidth hstarted hsubs => exact usable_of_forall₂ (fun _ t ht => ⟨.before t, ht⟩) hsubs
  | on hwidth hstarted hsubs hmatched =>
    refine usable_of_forall₂ (fun _ t ht => ?_) hsubs
    cases t with
    | nil => exact ht.elim
    | cons v t => exact ⟨.on v t, ht⟩

/-- A proximity that walks a trail and settles on nothing is spent. -/
theorem Walks.spent_of_settlesFrom (h : ops.Follows R) (hs : ops.Spends R S) {width : Nat}
    {c c' : SpanProximity α} {place : Place (List Span)} (hw : Walks R width c place)
    {move : α → Except Fault (Bool × α)} (hmove : ∀ c, Usable R S c → Moves R S (move c))
    (hsettles : SettlesFrom ops c (moving move c) (false, c')) : Spent R S c' := by
  rcases hsettles with ⟨hnil, hsame⟩ | ⟨hsome, moved, hmoved, hsettles⟩
  · cases hsame
    cases hw with
    | before hwidth hstarted hsubs hcurrent => exact ⟨hcurrent, .inl hnil⟩
    | on hwidth hstarted hsubs hmatched =>
      rw [hnil] at hsubs
      cases hsubs
  · have hready : ∃ moved, moving move c = .ok moved ∧ Ready R S moved := by
      rw [moving]
      split
      · exact lead_ready hmove hsome hw.usable
      · exact start_ready hmove hsome hw.usable
    obtain ⟨moved', hmoved', hready⟩ := hready
    cases hmoved.symm.trans hmoved'
    exact hsettles.spent h hs hready rfl

theorem Walks.spent_of_next (h : ops.Follows R) (hs : ops.Spends R S) {width : Nat}
    {c c' : SpanProximity α} {place : Place (List Span)} (hw : Walks R width c place)
    (heq : c.next ops = .ok (false, c')) : Spent R S c' := by
  obtain ⟨outcome, houtcome, hsettles, -⟩ := hw.settles_next h
  cases houtcome.symm.trans heq
  exact hw.spent_of_settlesFrom h hs (fun _ hd => hd.next h hs) hsettles

theorem Walks.spent_of_skipTo (h : ops.Follows R) (hs : ops.Spends R S) {width : Nat}
    {c c' : SpanProximity α} {place : Place (List Span)} (hw : Walks R width c place) {target : Nat}
    (heq : c.skipTo ops target = .ok (false, c')) : Spent R S c' := by
  obtain ⟨outcome, houtcome, hsettles, -⟩ := hw.settles_skipTo h target
  cases houtcome.symm.trans heq
  exact hw.spent_of_settlesFrom h hs (fun _ hd => hd.skipTo h hs target) hsettles

end SpanProximity

end TextSearch
