import TextSearch.Proofs.Cursor.Comparison
import TextSearch.Proofs.Span.Coverage

/-!
# Filters of payloads above and below

A filter that keeps the spans without payloads may stand above a union or a proximity or below
it, around each of the clauses. The two read their clauses in different order: the one below skips
documents that the one above walks through. But they list the same in every document, as a match
has a payload exactly if one of its spans has (`Span.near_filter_payloads`), and so they cannot be
told apart by any run of moves. Main statement: `SpanJoin.indistinct`.
-/

namespace TextSearch

namespace Span

/-- Putting spans in order and filtering them may be done in either order. -/
theorem sorted_filter (keep : Span → Bool) (ss : List Span) :
    (sorted ss).filter keep = sorted (ss.filter keep) := by
  refine InOrder.eq_of_perm ((inOrder_sorted ss).filter keep) (inOrder_sorted _) ?_
  exact ((sorted_perm ss).filter keep).trans (sorted_perm _).symm

/-- A match has no payload exactly if none of the picked spans has one. -/
theorem hasEmptyPayload_of_combine {slop : UInt32} {pick : List Span} {whole : Span}
    (h : combine slop pick = some whole) :
    whole.hasEmptyPayload = true ↔ ∀ s ∈ pick, s.hasEmptyPayload = true := by
  simp only [hasEmptyPayload, payloads_eq_of_combine h, List.isEmpty_iff, List.flatMap_eq_nil_iff]

theorem forall₂_mem_filter {keep : Span → Bool} {pick : List Span} {clauses : List (List Span)} :
    List.Forall₂ (· ∈ ·) pick (clauses.map (List.filter keep)) ↔
      List.Forall₂ (· ∈ ·) pick clauses ∧ ∀ s ∈ pick, keep s = true := by
  induction clauses generalizing pick with
  | nil =>
    rw [List.map_nil, List.forall₂_nil_right_iff]
    constructor
    · rintro rfl
      exact ⟨rfl, List.forall_mem_nil _⟩
    · exact fun h => h.1
  | cons clause clauses ih =>
    cases pick with
    | nil => simp
    | cons s pick =>
      rw [List.map_cons, List.forall₂_cons, List.forall₂_cons, List.mem_filter, ih,
        List.forall_mem_cons]
      exact and_and_and_comm

/-- The matches without payloads are the matches of the spans without payloads. -/
theorem near_filter_payloads (slop : UInt32) (inOrder : Bool) (clauses : List (List Span)) :
    (near slop inOrder clauses).filter (·.hasEmptyPayload) =
      near slop inOrder (clauses.map (List.filter (·.hasEmptyPayload))) := by
  have hmem : ∀ s, s ∈ (near slop inOrder clauses).filter (·.hasEmptyPayload) ↔
      s ∈ near slop inOrder (clauses.map (List.filter (·.hasEmptyPayload))) := by
    intro s
    rw [List.mem_filter, mem_near, mem_near]
    constructor
    · rintro ⟨⟨pick, hpick, hlegal, hcombine⟩, hempty⟩
      have hbare := (hasEmptyPayload_of_combine hcombine).1 hempty
      exact ⟨pick, forall₂_mem_filter.2 ⟨hpick, hbare⟩, hlegal, hcombine⟩
    · rintro ⟨pick, hpick, hlegal, hcombine⟩
      obtain ⟨hpick, hbare⟩ := forall₂_mem_filter.1 hpick
      exact ⟨⟨pick, hpick, hlegal, hcombine⟩, (hasEmptyPayload_of_combine hcombine).2 hbare⟩
  refine InOrder.eq_of_perm ((inOrder_distinct _).filter _) (inOrder_distinct _) ?_
  exact (List.perm_ext_iff_of_nodup ((nodup_distinct _).filter _) (nodup_distinct _)).2 hmem

end Span

/-- How clauses are joined. -/
inductive SpanJoin where
  /-- The spans of any clause. -/
  | union
  /-- The places where all clauses come near each other. -/
  | proximity (slop : UInt32) (inOrder : Bool)

namespace SpanJoin

/-- The cursor over joined cursors. -/
def cursor : SpanJoin → List SpanCursor → SpanCursor
  | union, cs => .anyOf cs
  | proximity slop inOrder, cs => .nearby cs slop inOrder

/-- The trail of joined cursors. -/
def trail : SpanJoin → List (Trail (List Span)) → Trail (List Span)
  | union, ts => SpanUnion.merged ts
  | proximity slop inOrder, ts => SpanProximity.matched slop inOrder ts

/-- What joined clauses list in a document, from what each of them lists there. -/
def listing : SpanJoin → List (List Span) → List Span
  | union, sss => Span.sorted sss.flatten
  | proximity slop inOrder, sss => Span.near slop inOrder sss

variable (j : SpanJoin)

theorem listing_filter_payloads (sss : List (List Span)) :
    (j.listing sss).filter (·.hasEmptyPayload) =
      j.listing (sss.map (List.filter (·.hasEmptyPayload))) := by
  cases j with
  | union => rw [listing, listing, Span.sorted_filter, List.filter_flatten]
  | proximity slop inOrder => exact Span.near_filter_payloads slop inOrder sss

variable {ts : List (Trail (List Span))}

theorem listed_trail (h : ∀ t ∈ ts, t.Simple) (d : Nat) :
    (j.trail ts).listed d = j.listing (ts.map (Trail.listed d)) := by
  cases j with
  | union =>
    rw [trail, SpanUnion.listed_merged fun t ht => (h t ht).sound, List.flatMap_def]
    rfl
  | proximity slop inOrder => exact SpanProximity.listed_matched h slop inOrder d

theorem simple_trail (h : ∀ t ∈ ts, t.Simple) : (j.trail ts).Simple := by
  cases j with
  | union =>
    have hunion := Trail.simple_union h
    show (SpanUnion.merged ts).Simple
    exact hunion.showing _
  | proximity slop inOrder => exact (SpanProximity.tidy_matched h slop inOrder).toSimple

theorem tidy_trail (h : ∀ t ∈ ts, t.Tidy) : (j.trail ts).Tidy := by
  cases j with
  | union => exact SpanUnion.tidy_merged h
  | proximity slop inOrder =>
    exact SpanProximity.tidy_matched (fun t ht => (h t ht).toSimple) slop inOrder

theorem exists_walks {cs : List SpanCursor} {sources : List (UInt32 × Trail (List Span))}
    (h : List.Forall₂ (fun c source => c.Walks source.1 (.before source.2)) cs sources) :
    ∃ width, (j.cursor cs).Walks width (.before (j.trail (sources.map (·.2)))) := by
  cases j with
  | union => exact ⟨_, SpanCursor.walks_anyOf h⟩
  | proximity slop inOrder => exact ⟨_, SpanCursor.walks_nearby h slop inOrder⟩

/-- The trail of a filter above is the trail of the filters below. -/
theorem choosing_trail (h : ∀ t ∈ ts, t.Simple) :
    (j.trail ts).choosing SpanFilter.emptyPayload.keep =
      j.trail (ts.map (Trail.choosing SpanFilter.emptyPayload.keep)) := by
  have hkeep : SpanFilter.emptyPayload.keep = List.filter (·.hasEmptyPayload) := by
    funext ss
    rfl
  have hbelow : ∀ t ∈ ts.map (Trail.choosing SpanFilter.emptyPayload.keep), t.Tidy :=
    List.forall_mem_map.2 fun t ht => Trail.tidy_choosing (h t ht).sound (h t ht).once _
  have hsimple := j.simple_trail h
  have halike : Trail.Alike (· = ·) ((j.trail ts).choosing SpanFilter.emptyPayload.keep)
      (j.trail (ts.map (Trail.choosing SpanFilter.emptyPayload.keep))) := by
    refine Trail.alike_of_listed (Trail.tidy_choosing hsimple.sound hsimple.once _)
      (j.tidy_trail hbelow) (fun _ _ heq => by rw [heq]) fun d => ?_
    rw [Trail.listed_choosing_keep hsimple.once, j.listed_trail h,
      j.listed_trail fun t ht => (hbelow t ht).toSimple, hkeep, j.listing_filter_payloads,
      List.map_map, List.map_map, ← hkeep]
    refine congrArg j.listing (List.map_congr_left fun t ht => ?_)
    exact (Trail.listed_choosing_keep (h t ht).once .emptyPayload d).symm
  exact halike.eq

end SpanJoin

/-- Cursors that no run of moves tells apart: every run goes through with both, and finds the same
documents with the same spans. -/
def SpanCursor.Indistinct (c c' : SpanCursor) : Prop :=
  ∀ moves : List Move, ∃ shown, watch SpanCursor.moved SpanCursor.sight moves c = .ok shown ∧
    watch SpanCursor.moved SpanCursor.sight moves c' = .ok shown

namespace SpanCursor

/-- Cursors in front of the same trail cannot be told apart. -/
theorem indistinct_of_walks {width width' : UInt32} {c c' : SpanCursor} {t : Trail (List Span)}
    (h : c.Walks width (.before t)) (h' : c'.Walks width' (.before t)) : c.Indistinct c' := by
  intro moves
  have hsight : ∀ outcome outcome', AnswersAlike (· = ·) width width' outcome outcome' →
      sight outcome = sight outcome' := by
    intro outcome outcome' hanswers
    unfold sight
    rw [← hanswers.found_eq]
    by_cases hfound : outcome.1 = true
    · rw [if_pos hfound, if_pos hfound, hanswers.doc_eq hfound, hanswers.spans hfound]
    · rw [if_neg hfound, if_neg hfound]
  obtain ⟨shown, shown', hshown, hshown', hsame⟩ :=
    forall₂_watch_of_alike h h' (Trail.Alike.refl (fun _ => rfl) t) hsight moves
  rw [List.forall₂_eq_eq_eq] at hsame
  subst hsame
  exact ⟨shown, hshown, hshown'⟩

end SpanCursor

/-- Whether clauses are filtered for spans without payloads after they have been joined or before
cannot be told from any run of moves. -/
theorem SpanJoin.indistinct (j : SpanJoin) {cs : List SpanCursor} (h : ∀ c ∈ cs, c.Fresh) :
    ((j.cursor cs).filtered .emptyPayload).Indistinct
      (j.cursor (cs.map (·.filtered .emptyPayload))) := by
  obtain ⟨sources, hwalks, hsimple⟩ := SpanCursor.exists_sources h
  obtain ⟨width, habove⟩ := j.exists_walks hwalks
  let below : List (UInt32 × Trail (List Span)) :=
    sources.map fun source => (1, source.2.choosing SpanFilter.emptyPayload.keep)
  have hfiltered : List.Forall₂ (fun c source => c.Walks source.1 (.before source.2))
      (cs.map (·.filtered .emptyPayload)) below := by
    rw [List.forall₂_map_left_iff, List.forall₂_map_right_iff]
    exact hwalks.imp fun c source hc => SpanCursor.walks_filtered hc .emptyPayload
  obtain ⟨width', hbelow⟩ := j.exists_walks hfiltered
  have htrail : j.trail (below.map (·.2)) =
      (j.trail (sources.map (·.2))).choosing SpanFilter.emptyPayload.keep := by
    rw [j.choosing_trail hsimple, List.map_map, List.map_map]
    rfl
  rw [htrail] at hbelow
  exact SpanCursor.indistinct_of_walks (SpanCursor.walks_filtered habove .emptyPayload) hbelow

end TextSearch
