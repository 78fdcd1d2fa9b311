import TextSearch.Proofs.Cursor.Meeting
import TextSearch.Proofs.Match.Walk

/-!
# Exclusions of matchers

An exclusion follows the trail of its positive side without the documents of its
negative sides. These are skipped no further than the positive side has come, and
some of them not even that far, which leaves all documents that still matter.
-/

namespace TextSearch.MatchExclusion

variable {α β : Type} {ops : MatchStepper α} {R : α → Trail β → Prop}

/-- An exclusion has stopped, or its positive side stands on a document that no negative side
has. -/
inductive Walks (R : α → Trail β → Prop) : MatchExclusion α → Trail β → Prop
  /-- Nothing is left. -/
  | stopped {e : MatchExclusion α} (hcurrent : e.current = endOfDocs)
    (hexhausted : e.exhausted = true) : Walks R e []
  /-- The current document is not excluded. -/
  | on {e : MatchExclusion α} {v : Visit β} {t : Trail β} {ns : List (Trail β)}
    (hpositive : R e.positive (v :: t)) (hnegatives : List.Forall₂ R e.negatives ns)
    (hcurrent : e.current = v.doc) (hfree : ¬ ∃ n ∈ ns, v.doc ∈ Trail.docs n)
    (hexhausted : e.exhausted = false) : Walks R e (Trail.without ns (v :: t))

theorem Walks.mono {S : α → Trail β → Prop} {e : MatchExclusion α} {t : Trail β}
    (he : Walks R e t) (hpositive : ∀ t, R e.positive t → S e.positive t)
    (hnegatives : ∀ m ∈ e.negatives, ∀ t, R m t → S m t) : Walks S e t := by
  cases he with
  | stopped hcurrent hexhausted => exact .stopped hcurrent hexhausted
  | on hpos hneg hcurrent hfree hexhausted =>
    exact .on (hpositive _ hpos) (forall₂_imp_of_mem hneg hnegatives) hcurrent hfree hexhausted

/-- Asking whether a document is excluded loses no document from there on. -/
theorem excludes_spec (h : ops.Follows R) {doc : Nat} (hdoc : doc < endOfDocs) {ms : List α}
    {ns : List (Trail β)} (hsubs : List.Forall₂ R ms ns) :
    ∃ hit ms' ns', excludes ops doc ms = .ok (hit, ms') ∧ List.Forall₂ R ms' ns' ∧
      (∀ d, doc ≤ d → ((∃ n ∈ ns', d ∈ Trail.docs n) ↔ ∃ n ∈ ns, d ∈ Trail.docs n)) ∧
      (hit = true ↔ ∃ n ∈ ns, doc ∈ Trail.docs n) := by
  induction hsubs with
  | nil => exact ⟨false, [], [], rfl, .nil, by simp, by simp⟩
  | @cons m n ms ns hm hms ih =>
    have hsound := h.sound hm
    obtain ⟨m', hm', hR⟩ : ∃ m', (if ops.doc m < doc then (·.2) <$> ops.skipTo doc m else .ok m) =
        .ok m' ∧ R m' (n.since doc) := by
      split
      · obtain ⟨m', hm', hR⟩ := h.skipTo doc hm
        exact ⟨m', by rw [hm']; rfl, hR⟩
      · next hbehind => exact ⟨m, rfl, by rwa [h.since_of_not_behind hm hbehind]⟩
    have hkept (d : Nat) (hd : doc ≤ d) : d ∈ (n.since doc).docs ↔ d ∈ n.docs := by
      rw [hsound.mem_docs_since, and_iff_left hd]
    have hstands : (ops.doc m' == doc) = true ↔ doc ∈ n.docs := by
      rw [beq_iff_eq, h.doc hR, ← hkept doc (Nat.le_refl _)]
      exact ((hsound.since doc).mem_docs_iff_firstDoc hdoc
        (hsound.le_firstDoc_since (Nat.le_of_lt hdoc))).symm
    have hexcludes : excludes ops doc (m :: ms) =
        if ops.doc m' == doc then .ok (true, m' :: ms)
        else (excludes ops doc ms).map fun found => (found.1, m' :: found.2) := by
      by_cases hbehind : ops.doc m < doc
      · rw [if_pos hbehind] at hm'
        simp only [excludes, if_pos hbehind, hm', bind, Except.bind, Except.map]
      · rw [if_neg hbehind] at hm'
        cases hm'
        simp only [excludes, if_neg hbehind, bind, Except.bind, Except.map]
    by_cases hhit : (ops.doc m' == doc) = true
    · refine ⟨true, m' :: ms, n.since doc :: ns, ?_, .cons hR hms, fun d hd => ?_, ?_⟩
      · rw [hexcludes, if_pos hhit]
      · simp only [List.exists_mem_cons_iff, hkept d hd]
      · simp only [List.exists_mem_cons_iff, hstands.1 hhit, true_or]
    · obtain ⟨hit, ms', ns', hrest, hforall, hsame, hiff⟩ := ih
      refine ⟨hit, m' :: ms', n.since doc :: ns', ?_, .cons hR hforall, fun d hd => ?_, ?_⟩
      · rw [hexcludes, if_neg hhit, hrest]
        rfl
      · simp only [List.exists_mem_cons_iff, hkept d hd, hsame d hd]
      · simp only [List.exists_mem_cons_iff, hiff, mt hstands.2 hhit, false_or]

/-- Walking on leads to the first document of the positive side that is not excluded. -/
theorem leaves_settle (h : ops.Follows R) (steps : Nat) {m : α} {t : Trail β} {ms : List α}
    {ns : List (Trail β)} (hpositive : R m t) (hnegatives : List.Forall₂ R ms ns)
    (hsteps : t.length < steps) :
    Leaves (Walks R) (settle ops steps m ms) (Trail.without ns t) := by
  induction steps generalizing m t ms ns with
  | zero => omega
  | succ steps ih =>
    have hsound := h.sound hpositive
    rw [settle, h.exhausted hpositive]
    cases t with
    | nil => exact ⟨_, rfl, .stopped rfl rfl⟩
    | cons v t =>
      have hv : ops.doc m = v.doc := h.doc hpositive
      obtain ⟨hit, ms', ns', hexcludes, hforall, hsame, hiff⟩ :=
        excludes_spec h (hsound.bounded v (List.mem_cons_self ..)) hnegatives
      have hwithout : Trail.without ns (v :: t) = Trail.without ns' (v :: t) :=
        Trail.without_congr fun u hu => (hsame u.doc (hsound.head_le hu)).symm
      have hfirst := hsame v.doc (Nat.le_refl _)
      rw [if_neg (by simp), hv]
      simp only [bind, Except.bind]
      rw [hexcludes, hwithout]
      cases hit with
      | true =>
        obtain ⟨m', hm', hR⟩ := h.next hpositive
        simp only [if_true, hm']
        rw [Trail.without_cons_of_mem (hfirst.2 (hiff.1 rfl))]
        exact ih hR hforall (Nat.lt_of_succ_lt_succ hsteps)
      | false =>
        have hfree : ¬ ∃ n ∈ ns', v.doc ∈ Trail.docs n := by
          rw [hfirst, ← hiff]
          decide
        refine ⟨⟨m, ms', v.doc, false⟩, ?_, .on hpositive hforall rfl hfree rfl⟩
        rw [Trail.without_cons_of_not_mem hfree]
        rfl

theorem leaves_settled (h : ops.Follows R) {m : α} {t : Trail β} {ms : List α}
    {ns : List (Trail β)} (hpositive : R m t) (hnegatives : List.Forall₂ R ms ns) :
    Leaves (Walks R) (settled ops m ms) (Trail.without ns t) :=
  leaves_settle h _ hpositive hnegatives (h.length_lt hpositive)

/-- An exclusion of positioned matchers follows one trail without the others. -/
theorem walks_ofSides (h : ops.Follows R) {m : α} {t : Trail β} {ms : List α}
    {ns : List (Trail β)} (hpositive : R m t) (hnegatives : List.Forall₂ R ms ns) :
    ∃ e, ofSides ops m ms = .ok e ∧ Walks R e (Trail.without ns t) := by
  obtain ⟨e, he, hwalks⟩ := leaves_settled h hpositive hnegatives
  exact ⟨e, by rw [ofSides, he]; rfl, hwalks⟩

namespace Walks

variable {e : MatchExclusion α} {t : Trail β}

theorem doc (he : Walks R e t) : e.current = t.firstDoc := by
  cases he with
  | stopped hcurrent hexhausted => exact hcurrent
  | on hpositive hnegatives hcurrent hfree hexhausted =>
    rw [Trail.without_cons_of_not_mem hfree, hcurrent]
    rfl

theorem exhausted (he : Walks R e t) : e.exhausted = t.isEmpty := by
  cases he with
  | stopped hcurrent hexhausted => exact hexhausted
  | on hpositive hnegatives hcurrent hfree hexhausted =>
    rw [Trail.without_cons_of_not_mem hfree, hexhausted]
    rfl

theorem sound (h : ops.Follows R) (he : Walks R e t) : t.Sound := by
  cases he with
  | stopped hcurrent hexhausted => exact .nil
  | on hpositive hnegatives hcurrent hfree hexhausted => exact (h.sound hpositive).without _

theorem remaining (h : ops.Follows R) (he : Walks R e t) :
    t.tail.length ≤ ops.remaining e.positive := by
  cases he with
  | stopped hcurrent hexhausted => exact Nat.zero_le _
  | @on v t ns hpositive hnegatives hcurrent hfree hexhausted =>
    have hlength : (Trail.without ns t).length ≤ t.length := List.length_filter_le _ _
    have := h.remaining hpositive
    rw [Trail.without_cons_of_not_mem hfree, List.tail_cons]
    exact Nat.le_trans hlength this

theorem next (h : ops.Follows R) (he : Walks R e t) :
    Leaves (Walks R) (e.next ops) t.tail := by
  cases he with
  | stopped hcurrent hexhausted =>
    refine ⟨e, ?_, .stopped hcurrent hexhausted⟩
    rw [MatchExclusion.next, hexhausted]
    rfl
  | on hpositive hnegatives hcurrent hfree hexhausted =>
    obtain ⟨m', hm', hR⟩ := h.next hpositive
    rw [MatchExclusion.next, hexhausted, if_neg (by decide), hm',
      Trail.without_cons_of_not_mem hfree]
    exact leaves_settled h hR hnegatives

theorem skipTo (h : ops.Follows R) (he : Walks R e t) (target : Nat) :
    Leaves (Walks R) (e.skipTo ops target) (t.since target) := by
  by_cases hstay : e.exhausted || decide (target ≤ e.current)
  · have hsame := since_of_stays (he.sound h) he.exhausted he.doc hstay
    refine ⟨e, ?_, hsame.symm ▸ he⟩
    rw [MatchExclusion.skipTo, if_pos hstay, hsame, he.exhausted]
  · rw [MatchExclusion.skipTo, if_neg hstay]
    cases he with
    | stopped hcurrent hexhausted => exact absurd (by rw [hexhausted]; rfl) hstay
    | on hpositive hnegatives hcurrent hfree hexhausted =>
      obtain ⟨m', hm', hR⟩ := h.skipTo target hpositive
      rw [hm', ← (h.sound hpositive).without_since]
      exact leaves_settled h hR hnegatives

end Walks

end TextSearch.MatchExclusion
