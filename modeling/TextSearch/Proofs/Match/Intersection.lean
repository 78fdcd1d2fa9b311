import TextSearch.Proofs.Cursor.Meeting
import TextSearch.Proofs.Match.Walk

/-!
# Intersections of matchers

An intersection of matchers follows the meeting of their trails. Every pass that
does not align the matchers takes one of them past the furthest document, so
that the visits left bound the number of passes.
-/

namespace TextSearch.MatchIntersection

variable {α β : Type} {ops : MatchStepper α} {R : α → Trail β → Prop} {combine : List β → β}

/-- An intersection has stopped, or all of its matchers stand on the current document. -/
inductive Walks (R : α → Trail β → Prop) (combine : List β → β) :
    MatchIntersection α → Trail β → Prop
  /-- Nothing is left. -/
  | stopped {i : MatchIntersection α} (hcurrent : i.current = endOfDocs)
    (hexhausted : i.exhausted = true) : Walks R combine i []
  /-- All matchers stand on the current document. -/
  | on {i : MatchIntersection α} {v : Visit β} {lead : Trail β} {others : List (Trail β)}
    (hsubs : List.Forall₂ R i.subs ((v :: lead) :: others))
    (hbegins : ∀ t ∈ (v :: lead) :: others, Trail.begins i.current t = true)
    (hexhausted : i.exhausted = false) :
    Walks R combine i ((Trail.meet ((v :: lead) :: others)).showing combine)

theorem Walks.mono {S : α → Trail β → Prop} {i : MatchIntersection α} {t : Trail β}
    (hi : Walks R combine i t) (hRS : ∀ m ∈ i.subs, ∀ t, R m t → S m t) :
    Walks S combine i t := by
  cases hi with
  | stopped hcurrent hexhausted => exact .stopped hcurrent hexhausted
  | on hsubs hbegins hexhausted =>
    exact .on (forall₂_imp_of_mem hsubs hRS) hbegins hexhausted

theorem leaves_stopped (i : MatchIntersection α) (ms : List α) :
    Leaves (Walks R combine) (.ok (i.stopped ms)) [] := ⟨_, rfl, .stopped rfl rfl⟩

/-- The number of visits that trails have after their first ones. -/
def laterVisits (ts : List (Trail β)) : Nat := total (ts.map fun t => t.tail.length)

theorem laterVisits_le (h : ops.Follows R) {ms : List α} {ts : List (Trail β)}
    (hsubs : List.Forall₂ R ms ts) : laterVisits ts ≤ total (ms.map ops.remaining) := by
  induction hsubs with
  | nil => exact Nat.le_refl _
  | cons hm _ ih =>
    have := h.remaining hm
    simp only [laterVisits, List.map_cons, total_cons] at ih ⊢
    omega

theorem length_tail_since_le (d : Nat) (t : Trail β) :
    (t.since d).tail.length ≤ t.tail.length := by
  have := (Trail.since_sublist d t).length_le
  rw [List.length_tail, List.length_tail]
  omega

theorem laterVisits_since_le (d : Nat) (ts : List (Trail β)) :
    laterVisits (ts.map (Trail.since d)) ≤ laterVisits ts := by
  induction ts with
  | nil => exact Nat.le_refl _
  | cons t ts ih =>
    have := length_tail_since_le d t
    simp only [laterVisits, List.map_cons, total_cons] at ih ⊢
    omega

/-- A trail that is taken past the document that it was to be taken to has lost visits. -/
theorem laterVisits_since_lt {d : Nat} {ts : List (Trail β)}
    (h : ∃ t ∈ ts, t.firstDoc ≤ d ∧ t.since d ≠ [] ∧ (t.since d).begins d = false) :
    laterVisits (ts.map (Trail.since d)) < laterVisits ts := by
  obtain ⟨t, ht, hle, hne, hpast⟩ := h
  induction ts with
  | nil => cases ht
  | cons s ts ih =>
    rcases List.mem_cons.1 ht with rfl | ht
    · have hlt : (t.since d).tail.length < t.tail.length := by
        cases t with
        | nil => exact absurd rfl hne
        | cons v t =>
          have hv : v.doc < d := by
            refine Nat.lt_of_le_of_ne hle fun he => ?_
            rw [Trail.since_cons, if_neg (by omega), Trail.begins_cons] at hpast
            simp [he] at hpast
          have hlength := (Trail.since_sublist d t).length_le
          rw [Trail.since_cons, if_pos hv] at hne ⊢
          have := List.length_pos_iff.2 hne
          rw [List.length_tail, List.tail_cons]
          omega
      have := laterVisits_since_le d ts
      simp only [laterVisits, List.map_cons, total_cons] at this ⊢
      omega
    · have := ih ht
      have := length_tail_since_le d s
      simp only [laterVisits, List.map_cons, total_cons] at *
      omega

/-- What a pass over matchers comes to: one of them has run out, or all were skipped. -/
def Passed (R : α → Trail β → Prop) (target : Nat) (ts : List (Trail β)) :
    Bool × Bool × List α → Prop
  | (alive, aligned, ms) =>
    let left := ts.map (Trail.since target)
    if alive then
      List.Forall₂ R ms left ∧ (∀ t ∈ left, t ≠ []) ∧
        aligned = left.all fun t => t.begins target
    else [] ∈ left

theorem pass_cons {target : Nat} {m : α} {move : Bool × α}
    (hmove : (if ops.doc m < target then ops.skipTo target m else .ok (true, m)) = .ok move)
    (rest : List α) :
    pass ops target (m :: rest) =
      if move.1 then
        (pass ops target rest).map fun (alive, aligned, ms) =>
          (alive, aligned && ops.doc move.2 == target, move.2 :: ms)
      else .ok (false, false, move.2 :: rest) := by
  obtain ⟨found, m'⟩ := move
  by_cases hlt : ops.doc m < target
  · rw [if_pos hlt] at hmove
    cases found <;> simp only [pass, if_pos hlt, hmove, bind, Except.bind, Except.map]
  · rw [if_neg hlt] at hmove
    cases hmove
    simp only [pass, if_neg hlt, bind, Except.bind, Except.map]

theorem pass_spec (h : ops.Follows R) {target : Nat} {ms : List α} {ts : List (Trail β)}
    (hsubs : List.Forall₂ R ms ts) (halive : ∀ t ∈ ts, t ≠ []) :
    ∃ p, pass ops target ms = .ok p ∧ Passed R target ts p := by
  induction hsubs with
  | nil => exact ⟨(true, true, []), rfl, .nil, by simp, rfl⟩
  | @cons m t ms ts hm _ ih =>
    obtain ⟨ht, hts⟩ := List.forall_mem_cons.1 halive
    obtain ⟨⟨alive, aligned, ms'⟩, hpass, hpassed⟩ := ih hts
    have hmove : ∃ m', (if ops.doc m < target then ops.skipTo target m else .ok (true, m)) =
        .ok (!(t.since target).isEmpty, m') ∧ R m' (t.since target) := by
      split
      · exact h.skipTo target hm
      · next hbehind =>
        rw [h.since_of_not_behind hm hbehind]
        refine ⟨m, ?_, hm⟩
        rw [List.isEmpty_eq_false_iff.2 ht]
        rfl
    obtain ⟨m', hm', hR⟩ := hmove
    cases hsince : t.since target with
    | nil =>
      refine ⟨(false, false, m' :: ms), ?_, ?_⟩
      · rw [pass_cons hm', hsince]
        rfl
      · simp only [Passed, Bool.false_eq_true, if_false, List.map_cons, hsince]
        exact List.mem_cons_self ..
    | cons v rest =>
      have hdoc : (ops.doc m' == target) = (v.doc == target) := by
        rw [h.doc hR, hsince, Trail.firstDoc_cons]
      refine ⟨(alive, aligned && (ops.doc m' == target), m' :: ms'), ?_, ?_⟩
      · rw [pass_cons hm', hsince, hpass]
        rfl
      · simp only [Passed, List.map_cons, hsince] at hpassed ⊢
        split
        · next halive =>
          rw [if_pos halive] at hpassed
          obtain ⟨hforall, hne, haligned⟩ := hpassed
          refine ⟨.cons (hsince ▸ hR) hforall, List.forall_mem_cons.2 ⟨by simp, hne⟩, ?_⟩
          rw [List.all_cons, Trail.begins_cons, haligned, hdoc, Bool.and_comm]
        · next hdead =>
          rw [if_neg hdead] at hpassed
          exact List.mem_cons_of_mem _ hpassed

theorem foldl_max_le_iff {a e : Nat} {ds : List Nat} :
    ds.foldl max a ≤ e ↔ a ≤ e ∧ ∀ d ∈ ds, d ≤ e := by
  induction ds generalizing a with
  | nil => simp
  | cons d ds ih =>
    rw [List.foldl_cons, ih, List.forall_mem_cons, Nat.max_le, and_assoc]

/-- The furthest document of matchers is the least that no trail begins beyond. -/
theorem furthestDoc_le_iff (h : ops.Follows R) {ms : List α} {ts : List (Trail β)}
    (hsubs : List.Forall₂ R ms ts) {e : Nat} :
    furthestDoc ops ms ≤ e ↔ ∀ t ∈ ts, t.firstDoc ≤ e := by
  rw [furthestDoc, foldl_max_le_iff]
  simp only [Nat.zero_le, true_and]
  induction hsubs with
  | nil => simp
  | cons hm _ ih => rw [List.map_cons, List.forall_mem_cons, List.forall_mem_cons, ih, h.doc hm]

/-- A matcher stands past the last document just if a trail has no visit left. -/
theorem any_endOfDocs (h : ops.Follows R) {ms : List α} {ts : List (Trail β)}
    (hsubs : List.Forall₂ R ms ts) :
    (ms.any fun m => ops.doc m == endOfDocs) = ts.any fun t => t.isEmpty := by
  have hts := h.sound_of_forall₂ hsubs
  induction hsubs with
  | nil => rfl
  | @cons m t ms ts hm _ ih =>
    obtain ⟨ht, hts⟩ := List.forall_mem_cons.1 hts
    rw [List.any_cons, List.any_cons, ih hts, h.doc hm]
    congr 1
    cases t with
    | nil => rfl
    | cons v t => exact beq_eq_false_iff_ne.2 (Nat.ne_of_lt (ht.bounded v (List.mem_cons_self ..)))

/-- No document before the furthest one is common to all, so skipping there loses nothing. -/
theorem meet_since_furthestDoc (h : ops.Follows R) {ms : List α} {ts : List (Trail β)}
    (hsubs : List.Forall₂ R ms ts) :
    Trail.meet (ts.map (Trail.since (furthestDoc ops ms))) = Trail.meet ts := by
  have hts := h.sound_of_forall₂ hsubs
  rw [Trail.meet_map_since hts]
  refine Trail.since_eq_self fun v hv => (furthestDoc_le_iff h hsubs).2 fun t ht => ?_
  exact Trail.firstDoc_le_of_mem_meet hts ht (Trail.mem_docs.2 ⟨v, hv, rfl⟩)

/-- Matchers that all stand on one document are where their trails meet. -/
theorem leaves_begun (i : MatchIntersection α) {d : Nat} {ms : List α} {ts : List (Trail β)}
    (hsubs : List.Forall₂ R ms ts) (hsome : ts ≠ []) (hbegins : ∀ t ∈ ts, t.begins d = true) :
    Leaves (Walks R combine) (.ok (true, { i with subs := ms, current := d, exhausted := false }))
      ((Trail.meet ts).showing combine) := by
  obtain _ | ⟨_ | ⟨v, lead⟩, others⟩ := ts
  · exact absurd rfl hsome
  · simpa using hbegins [] (List.mem_cons_self ..)
  · refine ⟨{ i with subs := ms, current := d, exhausted := false }, ?_, .on hsubs hbegins rfl⟩
    rw [Trail.meet_of_begins hbegins]
    rfl

/-- A pass over matchers that still stand on documents, but not all on the furthest one,
takes one of them past a visit. -/
theorem laterVisits_lt_of_passed (h : ops.Follows R) {ms : List α} {ts : List (Trail β)}
    (hsubs : List.Forall₂ R ms ts)
    (halive : ∀ t ∈ ts.map (Trail.since (furthestDoc ops ms)), t ≠ [])
    (hnot : (ts.map (Trail.since (furthestDoc ops ms))).all
      (Trail.begins (furthestDoc ops ms)) = false) :
    laterVisits (ts.map (Trail.since (furthestDoc ops ms))) < laterVisits ts := by
  obtain ⟨s, hs, hs'⟩ := List.all_eq_false.1 hnot
  obtain ⟨t, ht, rfl⟩ := List.mem_map.1 hs
  have hbelow : t.firstDoc ≤ furthestDoc ops ms :=
    (furthestDoc_le_iff h hsubs).1 (Nat.le_refl _) t ht
  exact laterVisits_since_lt ⟨t, ht, hbelow, halive _ hs, by simpa using hs'⟩

/-- Passes bring the matchers onto the first document in which their trails meet. -/
theorem leaves_align (h : ops.Follows R) (i : MatchIntersection α) (steps : Nat) {ms : List α}
    {ts : List (Trail β)} (hsubs : List.Forall₂ R ms ts) (hsome : ts ≠ [])
    (hsteps : laterVisits ts < steps) :
    Leaves (Walks R combine) (align ops i steps ms) ((Trail.meet ts).showing combine) := by
  induction steps generalizing ms ts with
  | zero => omega
  | succ steps ih =>
    rw [align, any_endOfDocs h hsubs]
    by_cases hout : (ts.any fun t => t.isEmpty) = true
    · obtain ⟨t, ht, hempty⟩ := List.any_eq_true.1 hout
      rw [List.isEmpty_iff] at hempty
      rw [if_pos hout, Trail.meet_eq_nil_of_mem (hempty ▸ ht)]
      exact leaves_stopped i ms
    · have halive : ∀ t ∈ ts, t ≠ [] := by
        intro t ht hnil
        exact hout (List.any_eq_true.2 ⟨t, ht, List.isEmpty_iff.2 hnil⟩)
      obtain ⟨⟨alive, aligned, ms'⟩, hpass, hpassed⟩ := pass_spec h hsubs halive
      rw [if_neg hout, ← meet_since_furthestDoc h hsubs]
      simp only [bind, Except.bind]
      rw [hpass]
      simp only [Passed] at hpassed
      cases alive with
      | false =>
        rw [Trail.meet_eq_nil_of_mem (by simpa using hpassed)]
        exact leaves_stopped i ms'
      | true =>
        obtain ⟨hforall, hne, haligned⟩ := hpassed
        have hleft : ts.map (Trail.since (furthestDoc ops ms)) ≠ [] := by simpa using hsome
        cases aligned with
        | true => exact leaves_begun i hforall hleft (List.all_eq_true.1 haligned.symm)
        | false =>
          refine ih hforall hleft ?_
          have := laterVisits_lt_of_passed h hsubs hne haligned.symm
          omega

theorem leaves_aligned (h : ops.Follows R) (i : MatchIntersection α) {ms : List α}
    {ts : List (Trail β)} (hsubs : List.Forall₂ R ms ts) (hsome : ts ≠ []) :
    Leaves (Walks R combine) (aligned ops i ms) ((Trail.meet ts).showing combine) := by
  refine leaves_align h i _ hsubs hsome ?_
  have := laterVisits_le h hsubs
  omega

/-- The intersection of positioned matchers follows the meeting of their trails. -/
theorem walks_ofSubs (h : ops.Follows R) {ms : List α} {ts : List (Trail β)}
    (hsubs : List.Forall₂ R ms ts) :
    ∃ i, ofSubs ops ms = .ok i ∧ Walks R combine i ((Trail.meet ts).showing combine) := by
  cases hsubs with
  | nil => exact ⟨_, rfl, .stopped rfl rfl⟩
  | @cons m t ms ts hm hms =>
    obtain ⟨i, hi, hwalks⟩ : Leaves (Walks R combine) _ _ := leaves_aligned h
      ⟨m :: ms, endOfDocs, true, ((m :: ms).map ops.cost).min?.getD 0⟩ (.cons hm hms) (by simp)
    refine ⟨i, ?_, hwalks⟩
    simp only [ofSubs, List.isEmpty_cons, Bool.false_eq_true, if_false, hi, bind, Except.bind]

/-- Once the leading matcher has moved the others follow. -/
theorem leaves_lead (h : ops.Follows R) {i : MatchIntersection α}
    {move : α → Except Fault (Bool × α)} {lead left : Trail β} {others : List (Trail β)}
    (hsubs : List.Forall₂ R i.subs (lead :: others))
    (hmove : ∀ m, R m lead → Leaves R (move m) left) :
    Leaves (Walks R combine) (i.lead ops move) ((Trail.meet (left :: others)).showing combine) := by
  rw [MatchIntersection.lead]
  revert hsubs
  cases i.subs with
  | nil => intro hsubs; cases hsubs
  | cons m rest =>
    intro hsubs
    obtain _ | ⟨hm, hrest⟩ := hsubs
    obtain ⟨m', hm', hR⟩ := hmove m hm
    simp only [hm', bind, Except.bind]
    cases left with
    | nil => exact leaves_stopped i (m' :: rest)
    | cons v left => exact leaves_aligned h i (.cons hR hrest) (by simp)

namespace Walks

variable {i : MatchIntersection α} {t : Trail β}

theorem doc (hi : Walks R combine i t) : i.current = t.firstDoc := by
  cases hi with
  | stopped hcurrent hexhausted => exact hcurrent
  | on hsubs hbegins hexhausted => rw [Trail.meet_of_begins hbegins]; rfl

theorem exhausted (hi : Walks R combine i t) : i.exhausted = t.isEmpty := by
  cases hi with
  | stopped hcurrent hexhausted => exact hexhausted
  | on hsubs hbegins hexhausted => rw [Trail.meet_of_begins hbegins, hexhausted]; rfl

theorem sound (h : ops.Follows R) (hi : Walks R combine i t) : t.Sound := by
  cases hi with
  | stopped hcurrent hexhausted => exact .nil
  | on hsubs hbegins hexhausted =>
    exact (Trail.sound_meet (h.sound_of_forall₂ hsubs)).showing _

theorem next (h : ops.Follows R) (hi : Walks R combine i t) :
    Leaves (Walks R combine) (i.next ops) t.tail := by
  cases hi with
  | stopped hcurrent hexhausted =>
    refine ⟨i, ?_, .stopped hcurrent hexhausted⟩
    rw [MatchIntersection.next, hexhausted]
    rfl
  | on hsubs hbegins hexhausted =>
    rw [MatchIntersection.next, hexhausted, if_neg (by decide), Trail.meet_of_begins hbegins]
    exact leaves_lead h hsubs fun m => h.next

theorem skipTo (h : ops.Follows R) (hi : Walks R combine i t) (target : Nat) :
    Leaves (Walks R combine) (i.skipTo ops target) (t.since target) := by
  by_cases hstay : i.exhausted || decide (target ≤ i.current)
  · have hsame := since_of_stays (hi.sound h) hi.exhausted hi.doc hstay
    refine ⟨i, ?_, hsame.symm ▸ hi⟩
    rw [MatchIntersection.skipTo, if_pos hstay, hsame, hi.exhausted]
  · rw [MatchIntersection.skipTo, if_neg hstay]
    cases hi with
    | stopped hcurrent hexhausted => exact absurd (by rw [hexhausted]; rfl) hstay
    | @on v lead others hsubs hbegins hexhausted =>
      have hlead := h.sound_of_forall₂ hsubs _ (List.mem_cons_self ..)
      rw [← Trail.showing_since, ← Trail.meet_since_cons hlead]
      exact leaves_lead h hsubs fun m => h.skipTo target

end Walks

end TextSearch.MatchIntersection
