import TextSearch.Proofs.Cursor.Union
import TextSearch.Proofs.Match.Walk

/-!
# Unions of matchers

A union of matchers follows the union of their trails. Matchers that are
exhausted are dropped, which takes nothing from the union. What is shown of
several visits to one document is combined by a function that the caller gives.
-/

namespace TextSearch.MatchUnion

variable {α β : Type} {ops : MatchStepper α} {R : α → Trail β → Prop} {combine : List β → β}

/-- A union follows the union of the trails of its matchers, none of which is exhausted. -/
inductive Walks (R : α → Trail β → Prop) (combine : List β → β) : MatchUnion α → Trail β → Prop
  | intro {u : MatchUnion α} {ts : List (Trail β)} (hsubs : List.Forall₂ R u.subs ts)
    (halive : ∀ t ∈ ts, t ≠ []) (hcurrent : u.current = (Trail.union ts).firstDoc)
    (hexhausted : u.exhausted = ts.isEmpty) :
    Walks R combine u ((Trail.union ts).showing combine)

theorem Walks.mono {S : α → Trail β → Prop} {u : MatchUnion α} {t : Trail β}
    (hu : Walks R combine u t) (hRS : ∀ m ∈ u.subs, ∀ t, R m t → S m t) :
    Walks S combine u t := by
  cases hu with
  | intro hsubs halive hcurrent hexhausted =>
    exact .intro (forall₂_imp_of_mem hsubs hRS) halive hcurrent hexhausted

/-- The least document of matchers is the first one of the union of their trails. -/
theorem leastDoc_eq (h : ops.Follows R) {ms : List α} {ts : List (Trail β)}
    (hsubs : List.Forall₂ R ms ts) (halive : ∀ t ∈ ts, t ≠ []) :
    leastDoc ops ms = (Trail.union ts).firstDoc := by
  have hdocs : ms.map ops.doc = ts.filterMap fun t => t.head?.map (·.doc) := by
    induction hsubs with
    | nil => rfl
    | @cons m t ms ts hm _ ih =>
      obtain ⟨ht, hts⟩ := List.forall_mem_cons.1 halive
      cases t with
      | nil => exact absurd rfl ht
      | cons v t =>
        rw [List.map_cons, h.doc hm, ih hts]
        rfl
  rw [leastDoc, hdocs]
  cases hleast : Trail.leastDoc? ts with
  | none =>
    rw [Trail.union_of_none hleast]
    rw [Trail.leastDoc?] at hleast
    rw [hleast]
    rfl
  | some d =>
    rw [Trail.union_of_some hleast]
    rw [Trail.leastDoc?] at hleast
    rw [hleast]
    rfl

theorem walks_standing (h : ops.Follows R) {ms : List α} {ts : List (Trail β)}
    (hsubs : List.Forall₂ R ms ts) (halive : ∀ t ∈ ts, t ≠ []) (cost : Nat) :
    Walks R combine (standing ops cost ms) ((Trail.union ts).showing combine) := by
  refine .intro hsubs halive (leastDoc_eq h hsubs halive) ?_
  cases hsubs <;> rfl

/-- Of positioned matchers those with visits left make the union. -/
theorem walks_ofSubs (h : ops.Follows R) {ms : List α} {ts : List (Trail β)}
    (hsubs : List.Forall₂ R ms ts) :
    Walks R combine (ofSubs ops ms) ((Trail.union ts).showing combine) := by
  have halive : List.Forall₂ R (ms.filter fun m => !ops.exhausted m)
      (ts.filter fun t => !t.isEmpty) := by
    induction hsubs with
    | nil => exact .nil
    | @cons m t ms ts hm _ ih =>
      rw [List.filter_cons, List.filter_cons, h.exhausted hm]
      split
      · exact .cons hm ih
      · exact ih
  rw [← Trail.union_filter_ne_nil]
  refine walks_standing h halive (fun t ht => ?_) _
  simpa using (List.mem_filter.1 ht).2

/-- Moving some of the matchers moves along their trails and drops those that have run out. -/
theorem moveWhere_forall₂ (test : α → Bool) (move : α → Except Fault (Bool × α))
    (leave : Trail β → Trail β) {ms : List α} {ts : List (Trail β)}
    (hsubs : List.Forall₂ R ms ts) (halive : ∀ t ∈ ts, t ≠ [])
    (hmove : ∀ m t, t ∈ ts → R m t →
      if test m then Leaves R (move m) (leave t) else leave t = t) :
    ∃ ms', moveWhere test move ms = .ok ms' ∧
      List.Forall₂ R ms' ((ts.map leave).filter fun t => !t.isEmpty) := by
  induction hsubs with
  | nil => exact ⟨[], rfl, .nil⟩
  | @cons m t ms ts hm _ ih =>
    obtain ⟨ht, hts⟩ := List.forall_mem_cons.1 halive
    obtain ⟨ms', hms', hforall⟩ :=
      ih hts fun m t hmem => hmove m t (List.mem_cons_of_mem _ hmem)
    have hone := hmove m t (List.mem_cons_self ..) hm
    cases htest : test m with
    | true =>
      rw [htest, if_pos rfl] at hone
      obtain ⟨m', hm', hR⟩ := hone
      refine ⟨if !(leave t).isEmpty then m' :: ms' else ms', ?_, ?_⟩
      · simp only [moveWhere, htest, if_true, hm', hms', bind, Except.bind]
      · rw [List.map_cons, List.filter_cons]
        split
        · exact .cons hR hforall
        · exact hforall
    | false =>
      rw [htest] at hone
      have hsame : leave t = t := by simpa using hone
      refine ⟨m :: ms', ?_, ?_⟩
      · simp only [moveWhere, htest, Bool.false_eq_true, if_false, hms', bind, Except.bind, if_true]
      · rw [List.map_cons, hsame, List.filter_cons_of_pos (by simpa using ht)]
        exact .cons hm hforall

theorem isEmpty_union {ts : List (Trail β)} (halive : ∀ t ∈ ts, t ≠ []) :
    (Trail.union ts).isEmpty = ts.isEmpty := by
  cases ts with
  | nil => rw [Trail.union_of_none rfl]; rfl
  | cons t ts =>
    cases hleast : Trail.leastDoc? (t :: ts) with
    | none =>
      exact absurd (Trail.leastDoc?_eq_none_iff.1 hleast t (List.mem_cons_self ..))
        (halive t (List.mem_cons_self ..))
    | some d => rw [Trail.union_of_some hleast]; rfl

/-- After a move the matchers with visits left make the union. -/
theorem leaves_moved (h : ops.Follows R) (u : MatchUnion α) {ms : List α} {ts : List (Trail β)}
    (hsubs : List.Forall₂ R ms (ts.filter fun t => !t.isEmpty)) :
    Leaves (Walks R combine) (.ok (moved ops u ms)) ((Trail.union ts).showing combine) := by
  have halive : ∀ t ∈ ts.filter fun t => !t.isEmpty, t ≠ [] := by
    intro t ht
    simpa using (List.mem_filter.1 ht).2
  have hempty : ms.isEmpty = (ts.filter fun t => !t.isEmpty).isEmpty := by
    have hlength := hsubs.length_eq
    rw [Bool.eq_iff_iff, List.isEmpty_iff_length_eq_zero, List.isEmpty_iff_length_eq_zero, hlength]
  rw [← Trail.union_filter_ne_nil]
  refine ⟨standing ops u.cost ms, ?_, walks_standing h hsubs halive _⟩
  rw [moved, Trail.showing, List.isEmpty_map, isEmpty_union halive, hempty]

namespace Walks

variable {u : MatchUnion α} {t : Trail β}

theorem doc (hu : Walks R combine u t) : u.current = t.firstDoc := by
  cases hu with
  | @intro ts hsubs halive hcurrent hexhausted =>
    rw [hcurrent]
    cases Trail.union ts <;> rfl

theorem exhausted (hu : Walks R combine u t) : u.exhausted = t.isEmpty := by
  cases hu with
  | intro hsubs halive hcurrent hexhausted =>
    rw [hexhausted, Trail.showing, List.isEmpty_map, isEmpty_union halive]

theorem sound (h : ops.Follows R) (hu : Walks R combine u t) : t.Sound := by
  cases hu with
  | intro hsubs halive hcurrent hexhausted =>
    exact (Trail.sound_union (h.sound_of_forall₂ hsubs)).showing _

theorem next (h : ops.Follows R) (hu : Walks R combine u t) :
    Leaves (Walks R combine) (u.next ops) t.tail := by
  have hex := hu.exhausted
  cases hu with
  | @intro ts hsubs halive hcurrent hexhausted =>
    cases hleast : Trail.leastDoc? ts with
    | none =>
      have hnil := Trail.union_of_none hleast
      rw [hnil] at hex ⊢
      refine ⟨u, ?_, ?_⟩
      · rw [MatchUnion.next, hex]
        rfl
      · have hwalks : Walks R combine u ((Trail.union ts).showing combine) :=
          .intro hsubs halive hcurrent hexhausted
        rwa [hnil] at hwalks
    | some d =>
      have hcons := Trail.union_of_some hleast
      have hd : u.current = d := by rw [hcurrent, hcons, Trail.firstDoc_cons]
      have hbound : d < endOfDocs := by
        have hsound := Trail.sound_union (h.sound_of_forall₂ hsubs)
        rw [hcons] at hsound
        exact hsound.bounded _ (List.mem_cons_self ..)
      obtain ⟨ms', hms', hforall⟩ := moveWhere_forall₂ (fun m => ops.doc m == u.current)
        ops.next (Trail.leaving d) hsubs halive fun m s _ hm => by
          rw [h.doc hm, hd, Trail.Sound.beq_firstDoc hbound, Trail.leaving]
          split
          · exact h.next hm
          · rfl
      rw [hcons] at hex ⊢
      have hmoved : Leaves (Walks R combine) _ _ := leaves_moved h u hforall
      obtain ⟨m, hm, hwalks⟩ := hmoved
      refine ⟨m, ?_, hwalks⟩
      simp only [MatchUnion.next, hex, Trail.showing_cons, List.isEmpty_cons, Bool.false_eq_true,
        if_false, hms', bind, Except.bind]
      exact hm

theorem skipTo (h : ops.Follows R) (hu : Walks R combine u t) (target : Nat) :
    Leaves (Walks R combine) (u.skipTo ops target) (t.since target) := by
  have hex := hu.exhausted
  have hsound := hu.sound h
  by_cases hstay : u.exhausted || decide (target ≤ u.current)
  · have hsame := since_of_stays hsound hex hu.doc hstay
    refine ⟨u, ?_, hsame.symm ▸ hu⟩
    rw [MatchUnion.skipTo, if_pos hstay, hsame, hex]
  · cases hu with
    | @intro ts hsubs halive hcurrent hexhausted =>
      obtain ⟨ms', hms', hforall⟩ := moveWhere_forall₂
        (fun m => decide (ops.doc m < target)) (ops.skipTo target)
        (Trail.since target) hsubs halive fun m s _ hm => by
          split
          · exact h.skipTo target hm
          · next hbehind => exact h.since_of_not_behind hm (by simpa using hbehind)
      have hmoved : Leaves (Walks R combine) _ _ := leaves_moved h u hforall
      rw [Trail.union_map_since (h.sound_of_forall₂ hsubs), Trail.showing_since] at hmoved
      obtain ⟨m, hm, hwalks⟩ := hmoved
      refine ⟨m, ?_, hwalks⟩
      simp only [MatchUnion.skipTo, if_neg hstay, hms', bind, Except.bind]
      exact hm

end Walks

end TextSearch.MatchUnion
