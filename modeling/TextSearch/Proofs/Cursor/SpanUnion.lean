import TextSearch.Proofs.Cursor.Union
import TextSearch.Proofs.Cursor.Walk

/-!
# Walking filtered and merged spans

A sieve visits the documents in which its filter keeps spans of the inner
cursor. A union of span cursors visits the documents of any of them, with the
spans of all that stand there, in order. Both are proved for operands of any
type whose operations walk trails.
-/

namespace TextSearch

variable {α : Type} {ops : SpanStepper α} {R : α → Place (List Span) → Prop}

namespace SpanSieve

/-- A sieve whose inner cursor walks a trail walks what its filter keeps of it. -/
inductive Walks (R : α → Place (List Span) → Prop) : SpanSieve α → Place (List Span) → Prop
  /-- Neither the sieve nor its inner cursor has moved. -/
  | before {s : SpanSieve α} {t : Trail (List Span)} (hinner : R s.inner (.before t)) :
    Walks R s (.before (t.choosing s.filter.keep))
  /-- The inner cursor stands on a document with spans that are kept. -/
  | on {s : SpanSieve α} {v : Visit (List Span)} {t : Trail (List Span)}
    (hinner : R s.inner (.on v t)) (hkept : s.filter.keep v.shown = s.spans)
    (hsome : s.spans ≠ []) :
    Walks R s (.on ⟨v.doc, s.spans⟩ (t.choosing s.filter.keep))

theorem Walks.mono {S : α → Place (List Span) → Prop} {s : SpanSieve α}
    {place : Place (List Span)} (hs : Walks R s place) (hRS : ∀ p, R s.inner p → S s.inner p) :
    Walks S s place := by
  cases hs with
  | before hinner => exact .before (hRS _ hinner)
  | on hinner hkept hsome => exact .on (hRS _ hinner) hkept hsome

/-- Moves of the inner cursor that end by themselves: on a document of which something is kept, or
because there is nothing more. -/
inductive Settles (ops : SpanStepper α) (filter : SpanFilter) :
    Bool × α → Bool × SpanSieve α → Prop
  /-- A move has found nothing. -/
  | nothing {inner : α} : Settles ops filter (false, inner) (false, ⟨inner, filter, []⟩)
  /-- Something is kept. -/
  | kept {inner : α} {ss : List Span} (hkeep : filter.keep (ops.spans inner) = ss)
    (hsome : ss ≠ []) : Settles ops filter (true, inner) (true, ⟨inner, filter, ss⟩)
  /-- Nothing is kept. -/
  | further {inner : α} {move : Bool × α} {outcome : Bool × SpanSieve α}
    (hkeep : filter.keep (ops.spans inner) = []) (hnext : ops.next inner = .ok move)
    (hrest : Settles ops filter move outcome) : Settles ops filter (true, inner) outcome

/-- A sieve walks on until its filter keeps something. -/
theorem arrives_settle (h : ops.Follows R) (filter : SpanFilter) (steps : Nat)
    {move : Bool × α} {t : Trail (List Span)} (hmove : Arrived R move t)
    (hsteps : t.length < steps) :
    ∃ outcome, settle ops filter steps move = .ok outcome ∧ Settles ops filter move outcome ∧
      Arrived (Walks R) outcome (t.choosing filter.keep) := by
  induction steps generalizing move t with
  | zero => omega
  | succ steps ih =>
    obtain ⟨found, inner⟩ := move
    cases t with
    | nil =>
      have hfound : found = false := hmove
      subst hfound
      exact ⟨_, rfl, .nothing, rfl⟩
    | cons v t =>
      obtain ⟨hfound, hinner⟩ := hmove
      have hfound : found = true := hfound
      subst hfound
      have hspans := h.spans hinner
      rw [settle, if_pos rfl, hspans, Trail.choosing_cons]
      cases hkeep : filter.keep v.shown with
      | nil =>
        obtain ⟨next, hnext, harrived⟩ := h.next hinner
        obtain ⟨outcome, hsettle, hsettles, harrived⟩ := ih harrived (by simpa using hsteps)
        simp only [hnext, bind, Except.bind, if_true]
        exact ⟨outcome, hsettle, .further (hspans ▸ hkeep) hnext hsettles, harrived⟩
      | cons s ss =>
        rw [if_neg (List.cons_ne_nil _ _)]
        exact ⟨_, rfl, .kept (hspans ▸ hkeep) (List.cons_ne_nil _ _), rfl,
          .on hinner hkeep (List.cons_ne_nil _ _)⟩

theorem arrives_settled (h : ops.Follows R) (filter : SpanFilter) {move : Bool × α}
    {t : Trail (List Span)} (hmove : Arrived R move t) :
    ∃ outcome, settled ops filter move = .ok outcome ∧ Settles ops filter move outcome ∧
      Arrived (Walks R) outcome (t.choosing filter.keep) :=
  arrives_settle h filter _ hmove (h.length_lt_of_arrived hmove)

theorem Walks.next (h : ops.Follows R) {s : SpanSieve α} {place : Place (List Span)}
    (hs : Walks R s place) : Arrives (Walks R) (s.next ops) place.ahead := by
  have hstep {inner : Place (List Span)} (hinner : R s.inner inner) :
      Arrives (Walks R) (s.next ops) (inner.ahead.choosing s.filter.keep) := by
    obtain ⟨move, hmove, harrived⟩ := h.next hinner
    obtain ⟨outcome, houtcome, -, harrived⟩ := arrives_settled h s.filter harrived
    rw [SpanSieve.next, hmove]
    exact ⟨outcome, houtcome, harrived⟩
  cases hs with
  | before hinner => exact hstep hinner
  | on hinner hkept hsome => exact hstep hinner

theorem Walks.skipTo (h : ops.Follows R) {s : SpanSieve α} {place : Place (List Span)}
    (hs : Walks R s place) (target : Nat) :
    Arrives (Walks R) (s.skipTo ops target) (place.pending.since target) := by
  have hstep {inner : Place (List Span)} (hinner : R s.inner inner) :
      Arrives (Walks R) (s.skipTo ops target)
        ((inner.pending.choosing s.filter.keep).since target) := by
    obtain ⟨move, hmove, harrived⟩ := h.skipTo target hinner
    obtain ⟨outcome, houtcome, -, harrived⟩ := arrives_settled h s.filter harrived
    rw [SpanSieve.skipTo, hmove, ← (h.sound hinner).choosing_since]
    exact ⟨outcome, houtcome, harrived⟩
  cases hs with
  | before hinner => exact hstep hinner
  | on hinner hkept hsome =>
    have hpending := hstep hinner
    rwa [Place.pending_on, Trail.choosing_cons, hkept, if_neg hsome] at hpending

theorem Walks.sound (h : ops.Follows R) {s : SpanSieve α} {place : Place (List Span)}
    (hs : Walks R s place) : place.pending.Sound := by
  cases hs with
  | before hinner => exact (h.sound hinner).choosing _
  | on hinner hkept hsome =>
    have hsound := (h.sound hinner).choosing s.filter.keep
    rwa [Place.pending_on, Trail.choosing_cons, hkept, if_neg hsome] at hsound

theorem Walks.length_ahead_le (h : ops.Follows R) {s : SpanSieve α} {place : Place (List Span)}
    (hs : Walks R s place) : place.ahead.length ≤ ops.remaining s.inner := by
  cases hs with
  | before hinner => exact Nat.le_trans (Trail.length_choosing_le _ _) (h.remaining hinner)
  | on hinner hkept hsome =>
    exact Nat.le_trans (Trail.length_choosing_le _ _) (h.remaining hinner)

end SpanSieve

namespace SpanUnion

/-- The trail of a union of span cursors. -/
def merged (ts : List (Trail (List Span))) : Trail (List Span) :=
  (Trail.union ts).showing fun sss => Span.sorted sss.flatten

/-- A union whose operands walk trails walks the union of these, with all spans in order. The
mark of an operand tells whether its last move has found something. -/
inductive Walks (R : α → Place (List Span) → Prop) : SpanUnion α → Place (List Span) → Prop
  /-- No operand has moved. -/
  | before {u : SpanUnion α} {ts : List (Trail (List Span))} (hstarted : u.started = false)
    (hsubs : List.Forall₂ (fun c t => R c.2 (.before t)) u.subs ts) :
    Walks R u (.before (merged ts))
  /-- All operands have moved, and the union stands on the least of their documents. -/
  | on {u : SpanUnion α} {ts : List (Trail (List Span))} {rest : Trail (List Span)}
    (hstarted : u.started = true) (hsubs : List.Forall₂ (Arrived R) u.subs ts)
    (hmerged : merged ts = ⟨u.current, u.spans⟩ :: rest) :
    Walks R u (.on ⟨u.current, u.spans⟩ rest)

theorem Walks.mono {S : α → Place (List Span) → Prop} {u : SpanUnion α}
    {place : Place (List Span)} (hu : Walks R u place)
    (hRS : ∀ c ∈ u.subs, ∀ p, R c.2 p → S c.2 p) : Walks S u place := by
  cases hu with
  | before hstarted hsubs =>
    exact .before hstarted (forall₂_imp_of_mem hsubs fun c hc t => hRS c hc _)
  | on hstarted hsubs hmerged =>
    exact .on hstarted (forall₂_imp_of_mem hsubs fun c hc t => Arrived.mono (hRS c hc)) hmerged

theorem merged_map_since {ts : List (Trail (List Span))} (hts : ∀ t ∈ ts, t.Sound) (d : Nat) :
    merged (ts.map (Trail.since d)) = (merged ts).since d := by
  rw [merged, Trail.union_map_since hts, Trail.showing_since, merged]

theorem sound_merged {ts : List (Trail (List Span))} (hts : ∀ t ∈ ts, t.Sound) :
    (merged ts).Sound := (Trail.sound_union hts).showing _

theorem sound_of_forall₂ {γ : Type} {P : γ → Trail (List Span) → Prop}
    (hP : ∀ c t, P c t → t.Sound) {cs : List γ} {ts : List (Trail (List Span))}
    (h : List.Forall₂ P cs ts) : ∀ t ∈ ts, t.Sound := by
  induction h with
  | nil => simp
  | cons hc _ ih => exact List.forall_mem_cons.2 ⟨hP _ _ hc, ih⟩

/-- The least document that the marked cursors stand on is the least that their trails begin
with. -/
theorem leastDoc_eq (h : ops.Follows R) {subs : List (Bool × α)}
    {ts : List (Trail (List Span))} (hsubs : List.Forall₂ (Arrived R) subs ts) :
    leastDoc ops subs = (Trail.leastDoc? ts).getD endOfDocs := by
  have hdocs : (subs.filter (·.1)).map (fun c => ops.doc c.2) =
      ts.filterMap fun t => t.head?.map (·.doc) := by
    induction hsubs with
    | nil => rfl
    | @cons c t subs ts hc _ ih =>
      cases t with
      | nil =>
        rw [List.filter_cons_of_neg (by rw [show c.1 = false from hc]; decide), ih]
        rfl
      | cons v t =>
        rw [List.filter_cons_of_pos hc.1, List.map_cons, ih, h.doc hc.2]
        rfl
  rw [leastDoc, hdocs, Trail.leastDoc?]

/-- The spans that the marked cursors have in a document are those that their trails show which
begin with it. -/
theorem spansAt_eq (h : ops.Follows R) (d : Nat) {subs : List (Bool × α)}
    {ts : List (Trail (List Span))} (hsubs : List.Forall₂ (Arrived R) subs ts) :
    spansAt ops d subs = Span.sorted (Trail.heads d ts).flatten := by
  have hspans : (subs.filter fun c => c.1 && ops.doc c.2 == d).flatMap (fun c => ops.spans c.2) =
      (Trail.heads d ts).flatten := by
    induction hsubs with
    | nil => rfl
    | @cons c t subs ts hc _ ih =>
      cases t with
      | nil =>
        rw [List.filter_cons_of_neg (by rw [show c.1 = false from hc]; simp), ih]
        rfl
      | cons v t =>
        by_cases hv : v.doc = d
        · rw [List.filter_cons_of_pos (by simp [hc.1, h.doc hc.2, hv]), List.flatMap_cons, ih,
            h.spans hc.2, Trail.heads_cons_cons, if_pos hv, List.flatten_cons]
        · rw [List.filter_cons_of_neg (by simp [h.doc hc.2, hv]), ih,
            Trail.heads_cons_cons, if_neg hv]
  rw [spansAt, hspans]

/-- A union stands on the least document of its operands, or has found nothing. -/
theorem arrived_collected (h : ops.Follows R) {subs : List (Bool × α)}
    {ts : List (Trail (List Span))} (hsubs : List.Forall₂ (Arrived R) subs ts) :
    Arrived (Walks R) (collected ops subs) (merged ts) := by
  have hts : ∀ t ∈ ts, t.Sound := sound_of_forall₂ (fun _ _ => h.sound_of_arrived) hsubs
  rw [collected]
  cases hleast : Trail.leastDoc? ts with
  | none =>
    have hend : leastDoc ops subs = endOfDocs := by rw [leastDoc_eq h hsubs, hleast]; rfl
    rw [merged, Trail.union_of_none hleast]
    simp only [hend, if_true]
    rfl
  | some d =>
    have hd : leastDoc ops subs = d := by rw [leastDoc_eq h hsubs, hleast]; rfl
    have hmerged : merged ts =
        ⟨d, spansAt ops d subs⟩ :: merged (ts.map (Trail.leaving d)) := by
      rw [merged, Trail.union_of_some hleast, Trail.showing_cons, spansAt_eq h d hsubs]
      rfl
    have hbound : d < endOfDocs :=
      (sound_merged hts).bounded ⟨d, spansAt ops d subs⟩ (by rw [hmerged]; exact .head _)
    rw [hmerged]
    simp only [hd, if_neg (Nat.ne_of_lt hbound)]
    exact ⟨rfl, .on rfl hsubs hmerged⟩

/-- Moving the selected operands of a union moves on in the trails of these. -/
theorem moveWhere_forall₂ {P : Bool × α → Trail (List Span) → Prop} (test : Bool × α → Bool)
    (move : α → Except Fault (Bool × α)) {f : Trail (List Span) → Trail (List Span)}
    (hmove : ∀ c t, P c t → test c = true → Arrives R (move c.2) (f t))
    (hstay : ∀ c t, P c t → test c = false → Arrived R c (f t))
    {subs : List (Bool × α)} {ts : List (Trail (List Span))} (hsubs : List.Forall₂ P subs ts) :
    ∃ moved, moveWhere test move subs = .ok moved ∧
      List.Forall₂ (Arrived R) moved (ts.map f) := by
  induction hsubs with
  | nil => exact ⟨[], rfl, .nil⟩
  | @cons c t subs ts hc _ ih =>
    obtain ⟨rest, hrest, hall⟩ := ih
    cases htest : test c with
    | true =>
      obtain ⟨c', hc', harrived⟩ := hmove c t hc htest
      refine ⟨c' :: rest, ?_, .cons harrived hall⟩
      simp only [moveWhere, htest, if_true, hc', hrest, bind, Except.bind]
    | false =>
      refine ⟨c :: rest, ?_, .cons (hstay c t hc htest) hall⟩
      simp only [moveWhere, htest, hrest, bind, Except.bind, Bool.false_eq_true, if_false]

/-- The documents that are left by a move are those that the union stands on. -/
theorem Walks.moved_next (h : ops.Follows R) {u : SpanUnion α} {place : Place (List Span)}
    (hu : Walks R u place) : ∃ moved ts, u.next ops = .ok (collected ops moved) ∧
      List.Forall₂ (Arrived R) moved ts ∧ merged ts = place.ahead := by
  cases hu with
  | @before ts hstarted hsubs =>
    obtain ⟨moved, hmoved, hall⟩ := moveWhere_forall₂ (R := R)
      (fun c => !u.started || (c.1 && ops.doc c.2 == u.current)) ops.next (f := id)
      (fun c t hc _ => h.next hc) (fun c t _ htest => by simp [hstarted] at htest) hsubs
    rw [List.map_id] at hall
    refine ⟨moved, ts, ?_, hall, rfl⟩
    simp only [SpanUnion.next, hmoved, bind, Except.bind]
  | @on ts rest hstarted hsubs hmerged =>
    have hhead : Trail.leastDoc? ts = some u.current := by
      cases hleast : Trail.leastDoc? ts with
      | none => rw [merged, Trail.union_of_none hleast] at hmerged; cases hmerged
      | some d =>
        rw [merged, Trail.union_of_some hleast, Trail.showing_cons] at hmerged
        exact congrArg some (Visit.mk.inj (List.cons.inj hmerged).1).1
    have hrest : merged (ts.map (Trail.leaving u.current)) = rest := by
      rw [merged, Trail.union_of_some hhead, Trail.showing_cons] at hmerged
      exact (List.cons.inj hmerged).2
    obtain ⟨moved, hmoved, hall⟩ := moveWhere_forall₂ (R := R)
      (fun c => !u.started || (c.1 && ops.doc c.2 == u.current)) ops.next
      (f := Trail.leaving u.current)
      (fun c t hc htest => by
        cases t with
        | nil => simp [hstarted, show c.1 = false from hc] at htest
        | cons v t =>
          have hv : v.doc = u.current := by
            simpa [hstarted, hc.1, h.doc hc.2] using htest
          rw [Trail.leaving, Trail.begins_cons, if_pos (by simpa using hv)]
          exact h.next hc.2)
      (fun c t hc htest => by
        cases t with
        | nil => exact hc
        | cons v t =>
          have hv : v.doc ≠ u.current := by
            simpa [hstarted, hc.1, h.doc hc.2] using htest
          rw [Trail.leaving, Trail.begins_cons, if_neg (by simpa using hv)]
          exact hc)
      hsubs
    refine ⟨moved, ts.map (Trail.leaving u.current), ?_, hall, hrest⟩
    simp only [SpanUnion.next, hmoved, bind, Except.bind]

theorem Walks.moved_skipTo (h : ops.Follows R) {u : SpanUnion α} {place : Place (List Span)}
    (hu : Walks R u place) (target : Nat) :
    ∃ moved ts, u.skipTo ops target = .ok (collected ops moved) ∧
      List.Forall₂ (Arrived R) moved ts ∧ merged ts = place.pending.since target := by
  cases hu with
  | @before ts hstarted hsubs =>
    have hts : ∀ t ∈ ts, t.Sound := sound_of_forall₂ (fun _ _ ht => h.sound (p := .before _) ht) hsubs
    obtain ⟨moved, hmoved, hall⟩ := moveWhere_forall₂ (R := R)
      (fun c => !u.started || (c.1 && decide (ops.doc c.2 < target))) (ops.skipTo target)
      (f := Trail.since target) (fun c t hc _ => h.skipTo target hc)
      (fun c t _ htest => by simp [hstarted] at htest) hsubs
    refine ⟨moved, ts.map (Trail.since target), ?_, hall, merged_map_since hts target⟩
    simp only [SpanUnion.skipTo, hmoved, bind, Except.bind]
  | @on ts rest hstarted hsubs hmerged =>
    have hts : ∀ t ∈ ts, t.Sound := sound_of_forall₂ (fun _ _ => h.sound_of_arrived) hsubs
    obtain ⟨moved, hmoved, hall⟩ := moveWhere_forall₂ (R := R)
      (fun c => !u.started || (c.1 && decide (ops.doc c.2 < target))) (ops.skipTo target)
      (f := Trail.since target)
      (fun c t hc htest => by
        cases t with
        | nil => simp [hstarted, show c.1 = false from hc] at htest
        | cons v t => exact h.skipTo target hc.2)
      (fun c t hc htest => by
        cases t with
        | nil => exact hc
        | cons v t =>
          have hv : ¬ v.doc < target := by
            simpa [hstarted, hc.1, h.doc hc.2] using htest
          rw [Trail.since_cons, if_neg hv]
          exact hc)
      hsubs
    refine ⟨moved, ts.map (Trail.since target), ?_, hall, ?_⟩
    · simp only [SpanUnion.skipTo, hmoved, bind, Except.bind]
    · rw [Place.pending_on, ← hmerged, merged_map_since hts]

theorem Walks.next (h : ops.Follows R) {u : SpanUnion α} {place : Place (List Span)}
    (hu : Walks R u place) : Arrives (Walks R) (u.next ops) place.ahead := by
  obtain ⟨moved, ts, hmoved, hall, hmerged⟩ := hu.moved_next h
  exact ⟨_, hmoved, hmerged ▸ arrived_collected h hall⟩

theorem Walks.skipTo (h : ops.Follows R) {u : SpanUnion α} {place : Place (List Span)}
    (hu : Walks R u place) (target : Nat) :
    Arrives (Walks R) (u.skipTo ops target) (place.pending.since target) := by
  obtain ⟨moved, ts, hmoved, hall, hmerged⟩ := hu.moved_skipTo h target
  exact ⟨_, hmoved, hmerged ▸ arrived_collected h hall⟩

theorem Walks.sound (h : ops.Follows R) {u : SpanUnion α} {place : Place (List Span)}
    (hu : Walks R u place) : place.pending.Sound := by
  cases hu with
  | before hstarted hsubs =>
    exact sound_merged (sound_of_forall₂ (fun _ _ ht => h.sound (p := .before _) ht) hsubs)
  | on hstarted hsubs hmerged =>
    rw [Place.pending_on, ← hmerged]
    exact sound_merged (sound_of_forall₂ (fun _ _ => h.sound_of_arrived) hsubs)

end SpanUnion

end TextSearch
