import Mathlib.Data.List.Chain
import TextSearch.Proofs.Cursor.SpanTree
import TextSearch.Proofs.Span.Combinations

/-!
# Spans without their payloads

Lists of spans may be in the same places though they differ in payloads, and they may have
as many spans in each of these places or not. Unions keep both; proximities, which list
spans with different payloads apart, keep the places only: `Span.samePlaces_near`. However
a posting is read, its spans are in the same places: `Span.sameCounts_postingSpans`.
-/

namespace TextSearch.Span

/-- The span as it reads without payloads. -/
def bare (s : Span) : Span := { s with payloads := [] }

/-- Spans in the same places, as many in each of them. -/
def SameCounts (ss us : List Span) : Prop := (ss.map bare).Perm (us.map bare)

/-- Spans in the same places, however many in each of them. -/
def SamePlaces (ss us : List Span) : Prop := ∀ s, s ∈ ss.map bare ↔ s ∈ us.map bare

/-- Spans in the same places, and, if they are counted, as many in each of them. -/
def Same : Bool → List Span → List Span → Prop
  | true => SameCounts
  | false => SamePlaces

variable {ss us : List Span}

theorem SameCounts.samePlaces (h : SameCounts ss us) : SamePlaces ss us := fun _ => h.mem_iff

theorem SameCounts.same (h : SameCounts ss us) (counted : Bool) : Same counted ss us := by
  cases counted with
  | true => exact h
  | false => exact h.samePlaces

theorem SameCounts.length_eq (h : SameCounts ss us) : ss.length = us.length := by
  have hlength := List.Perm.length_eq h
  rwa [List.length_map, List.length_map] at hlength

theorem SamePlaces.eq_nil_iff (h : SamePlaces ss us) : ss = [] ↔ us = [] := by
  rw [← List.map_eq_nil_iff (f := bare), ← List.map_eq_nil_iff (f := bare) (l := us),
    List.eq_nil_iff_forall_not_mem, List.eq_nil_iff_forall_not_mem]
  exact forall_congr' fun s => not_congr (h s)

theorem sameCounts_sorted (ss : List Span) : SameCounts (sorted ss) ss := (sorted_perm ss).map bare

theorem sameCounts_flatten {sss uss : List (List Span)} (h : List.Forall₂ SameCounts sss uss) :
    SameCounts sss.flatten uss.flatten := by
  induction h with
  | nil => exact .nil
  | cons hone _ ih =>
    rw [SameCounts, List.flatten_cons, List.flatten_cons, List.map_append, List.map_append]
    exact List.Perm.append hone ih

theorem samePlaces_flatten {sss uss : List (List Span)} (h : List.Forall₂ SamePlaces sss uss) :
    SamePlaces sss.flatten uss.flatten := by
  induction h with
  | nil => exact fun _ => Iff.rfl
  | cons hone _ ih =>
    intro s
    rw [List.flatten_cons, List.flatten_cons, List.map_append, List.map_append, List.mem_append,
      List.mem_append, hone s, ih s]

/-- Spans of several lists that are put in order are in the same places if those of each list
are. -/
theorem same_sorted_flatten {counted : Bool} {sss uss : List (List Span)}
    (h : List.Forall₂ (Same counted) sss uss) :
    Same counted (sorted sss.flatten) (sorted uss.flatten) := by
  cases counted with
  | true =>
    exact ((sameCounts_sorted _).trans (sameCounts_flatten h)).trans (sameCounts_sorted _).symm
  | false =>
    intro s
    rw [(sameCounts_sorted _).mem_iff, samePlaces_flatten h s, (sameCounts_sorted _).mem_iff]

theorem legal_map_bare (inOrder : Bool) (pick : List Span) :
    legal inOrder (pick.map bare) = legal inOrder pick := by
  cases inOrder with
  | true =>
    simp only [legal, if_true, List.isChain_map]
    rfl
  | false =>
    simp only [legal, Bool.false_eq_true, if_false, List.pairwise_map]
    rfl

theorem combine_map_bare (slop : UInt32) (pick : List Span) :
    combine slop (pick.map bare) = (combine slop pick).map bare := by
  cases pick with
  | nil => rfl
  | cons first others =>
    have hstart : leastStart first.bare (others.map bare) = leastStart first others := by
      rw [leastStart, leastStart, List.foldl_map]
      rfl
    have hstop : greatestStop first.bare (others.map bare) = greatestStop first others := by
      rw [greatestStop, greatestStop, List.foldl_map]
      rfl
    have hcovered : covered ((first :: others).map bare) = covered (first :: others) := by
      rw [covered, covered, List.map_map]
      rfl
    have hpayloads : ((first :: others).map bare).flatMap (·.payloads) = [] := by
      rw [List.flatMap_map]
      exact List.flatMap_eq_nil_iff.2 fun _ _ => rfl
    rw [List.map_cons] at hcovered hpayloads ⊢
    rw [combine, combine, hstart, hstop, hcovered, hpayloads]
    split <;> rfl

theorem forall₂_mem_map_bare {pick : List Span} {clauses : List (List Span)} :
    List.Forall₂ (· ∈ ·) pick (clauses.map (List.map bare)) ↔
      ∃ pick₀, List.Forall₂ (· ∈ ·) pick₀ clauses ∧ pick₀.map bare = pick := by
  induction clauses generalizing pick with
  | nil =>
    simp only [List.map_nil, List.forall₂_nil_right_iff, exists_eq_left]
    exact eq_comm
  | cons clause clauses ih =>
    rw [List.map_cons, List.forall₂_cons_right_iff]
    constructor
    · rintro ⟨s, pick, hs, hpick, rfl⟩
      obtain ⟨s₀, hs₀, rfl⟩ := List.mem_map.1 hs
      obtain ⟨pick₀, hpick₀, rfl⟩ := ih.1 hpick
      exact ⟨s₀ :: pick₀, .cons hs₀ hpick₀, rfl⟩
    · rintro ⟨_, hpick₀, rfl⟩
      cases hpick₀ with
      | @cons s₀ _ pick₀ _ hs₀ hrest =>
        exact ⟨s₀.bare, pick₀.map bare, List.mem_map_of_mem hs₀, ih.2 ⟨pick₀, hrest, rfl⟩, rfl⟩

/-- The places of proximity matches are made up of the places of the clauses. -/
theorem mem_map_bare_near {slop : UInt32} {inOrder : Bool} {s : Span}
    {clauses : List (List Span)} : s ∈ (near slop inOrder clauses).map bare ↔
      ∃ pick, List.Forall₂ (· ∈ ·) pick (clauses.map (List.map bare)) ∧
        legal inOrder pick = true ∧ combine slop pick = some s := by
  simp only [List.mem_map, mem_near, forall₂_mem_map_bare]
  constructor
  · rintro ⟨_, ⟨pick, hpick, hlegal, hcombine⟩, rfl⟩
    refine ⟨pick.map bare, ⟨pick, hpick, rfl⟩, (legal_map_bare ..).trans hlegal, ?_⟩
    rw [combine_map_bare, hcombine, Option.map_some]
  · rintro ⟨_, ⟨pick, hpick, rfl⟩, hlegal, hcombine⟩
    rw [combine_map_bare] at hcombine
    obtain ⟨s₀, hs₀, rfl⟩ := Option.map_eq_some_iff.1 hcombine
    exact ⟨s₀, ⟨pick, hpick, (legal_map_bare ..).symm.trans hlegal, hs₀⟩, rfl⟩

theorem samePlaces_near {slop : UInt32} {inOrder : Bool} {sss uss : List (List Span)}
    (h : List.Forall₂ SamePlaces sss uss) :
    SamePlaces (near slop inOrder sss) (near slop inOrder uss) := by
  have hpicks : ∀ pick, List.Forall₂ (· ∈ ·) pick (sss.map (List.map bare)) ↔
      List.Forall₂ (· ∈ ·) pick (uss.map (List.map bare)) := by
    induction h with
    | nil => exact fun _ => Iff.rfl
    | cons hone _ ih =>
      intro pick
      cases pick with
      | nil => simp
      | cons s pick => rw [List.map_cons, List.map_cons, List.forall₂_cons, List.forall₂_cons,
          hone s, ih pick]
  intro s
  simp only [mem_map_bare_near, hpicks]

/-- The spans of a posting are in the same places, however it is read. -/
theorem sameCounts_postingSpans (detail detail' : Detail) (p : Posting) :
    SameCounts (SpanCursor.postingSpans detail p) (SpanCursor.postingSpans detail' p) := by
  have hread : ∀ detail : Detail, (SpanCursor.postingSpans detail p).map bare |>.Perm
      ((p.occurrences.getD []).map fun o => ofOccurrence o.withoutPayload) := by
    intro detail
    refine ((sorted_perm _).map bare).trans (.of_eq ?_)
    rw [List.map_map, Posting.read]
    split
    · rfl
    · rw [List.map_map]
      rfl
  exact (hread detail).trans (hread detail').symm

/-- Occurrences without payloads are read the same, however they are read. -/
theorem postingSpans_eq_of_payloads {p : Posting}
    (h : ∀ o ∈ p.occurrences.getD [], o.payload = none) (detail detail' : Detail) :
    SpanCursor.postingSpans detail p = SpanCursor.postingSpans detail' p := by
  have hread : ∀ detail : Detail, p.read detail = p.occurrences.getD [] := by
    intro detail
    rw [Posting.read]
    split
    · rfl
    · refine (List.map_congr_left fun o ho => ?_).trans (List.map_id _)
      rw [Occurrence.withoutPayload, ← h o ho]
      rfl
  rw [SpanCursor.postingSpans, SpanCursor.postingSpans, hread, hread]

/-- A filter by number goes by the number of spans alone. -/
theorem sameCounts_minFrequency {ss us : List Span} (h : SameCounts ss us) (least : Nat) :
    SameCounts ((SpanFilter.minFrequency least).keep ss)
      ((SpanFilter.minFrequency least).keep us) := by
  rw [SpanFilter.keep, SpanFilter.keep, h.length_eq]
  split
  · exact h
  · exact .nil

/-- A filter by a number that a single span reaches keeps everything. -/
theorem minFrequency_keep_of_le_one {least : Nat} (h : least ≤ 1) (ss : List Span) :
    (SpanFilter.minFrequency least).keep ss = ss := by
  cases ss with
  | nil => simp [SpanFilter.keep]
  | cons s ss =>
    rw [SpanFilter.keep, if_pos]
    exact Nat.le_trans h (Nat.succ_pos _)

end TextSearch.Span
