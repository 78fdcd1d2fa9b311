import TextSearch.Proofs.Cursor.Alike
import TextSearch.Proofs.Plan.Keeping
import TextSearch.Proofs.Score.Exact
import TextSearch.Proofs.Search.Answers
import TextSearch.Proofs.Search.GroundSteps
import TextSearch.Proofs.Span.Bare

/-!
# Checks of payloads

Below a check of payloads the places of terms are read with their payloads, and elsewhere
without. Proximities list spans with different payloads apart, so that a filter by number
may count more below a check than it does without one. Where no such filter counts the
matches of a proximity, or the field keeps no payloads, a query has the same places either
way: `Query.same_of_steady`. A check then only narrows what is found:
`Searcher.withoutPayload_narrows`.
-/

namespace TextSearch

namespace Query

/-! ### Queries that read the same with payloads and without -/

/-- Whether a node reads places from some of the fields, or could be replaced by one that does. -/
def readsFrom (fields : String → Bool) : Query → Bool
  | spanTerm t => fields t.field
  | frequentSpanTerm t _ _ => fields t.field
  | spanMultiTerm m => fields m.field
  | spanOr .. => false
  | spanNear .. => false
  | withoutPayload _ => false
  | frequentSpan .. => false
  | deferred .. => false
  | _ => true

mutual

/-- Whether a span query has the same places with payloads and without, and, if they are counted,
as many in each. Proximities are counted below a check or on fields that keep no payloads, and
filters count to one at most what cannot be counted. -/
def steady (keeps : String → Bool) : Bool → Query → Bool
  | _, spanTerm _ => true
  | _, frequentSpanTerm .. => true
  | _, spanMultiTerm _ => true
  | counted, spanOr _ qs => allSteady keeps counted qs
  | true, spanNear _ qs _ _ => !someHasNode (readsFrom keeps) qs
  | false, spanNear _ qs _ _ => allSteady keeps false qs
  | _, withoutPayload _ => true
  | counted, frequentSpan q least =>
    steady keeps true q || (!counted && decide (least.value ≤ 1) && steady keeps false q)
  | counted, deferred q _ => steady keeps counted q
  | _, _ => false

/-- Whether each of several span queries has the same places either way. -/
def allSteady (keeps : String → Bool) : Bool → List Query → Bool
  | _, [] => true
  | counted, q :: rest => steady keeps counted q && allSteady keeps counted rest

end

variable {keeps : String → Bool} {counted : Bool}

theorem allSteady_iff {qs : List Query} :
    allSteady keeps counted qs = true ↔ ∀ q ∈ qs, q.steady keeps counted = true := by
  induction qs with
  | nil => simp [allSteady]
  | cons q qs ih => rw [allSteady, Bool.and_eq_true, ih, List.forall_mem_cons]

theorem steady_spanNear_counted {field : String} {qs : List Query} {slop : UInt32}
    {inOrder : Bool} : (spanNear field qs slop inOrder).steady keeps true = true ↔
      ∀ q ∈ qs, q.hasNode (readsFrom keeps) = false := by
  rw [steady, Bool.not_eq_true', someHasNode_eq_false]

theorem steady_frequentSpan_iff {q : Query} {least : Threshold} :
    (frequentSpan q least).steady keeps counted = true ↔ q.steady keeps true = true ∨
      counted = false ∧ least.value ≤ 1 ∧ q.steady keeps false = true := by
  rw [steady, Bool.or_eq_true, Bool.and_eq_true, Bool.and_eq_true, Bool.not_eq_true',
    decide_eq_true_eq, and_assoc]

theorem isSpan_of_steady {q : Query} (h : q.steady keeps counted = true) : q.isSpan = true := by
  induction q using byParts with
  | hdeferred q plan ih => exact ih (by rwa [steady] at h)
  | hatom q hq =>
    cases q with
    | deferred => cases hq
    | _ => first | rfl | simp [steady] at h
  | _ => first | rfl | simp [steady] at h

theorem isSpan_of_readsFrom {q : Query} (h : q.hasNode (readsFrom keeps) = false) :
    q.isSpan = true := by
  induction q using byParts with
  | hdeferred q plan ih => exact ih h
  | hboost => cases h
  | hboolean => cases h
  | hatom q hq => cases q <;> first | rfl | cases h | cases hq
  | _ => rfl

/-! ### What such queries come to -/

/-- A query comes to trails that are alike with payloads and without. -/
def SameSources (P : List Span → List Span → Prop) (g : Segment) (q : Query) : Prop :=
  ∀ detail detail', Option.Rel (fun a b => Trail.Alike P a.2 b.2) (q.spanSource? g detail)
    (q.spanSource? g detail')

variable {g : Segment} {P : List Span → List Span → Prop}

theorem SameSources.mono {P' : List Span → List Span → Prop} {q : Query} (h : q.SameSources P g)
    (hP : ∀ ss us, P ss us → P' ss us) : q.SameSources P' g := by
  intro detail detail'
  have hrel := h detail detail'
  generalize q.spanSource? g detail = a at hrel
  generalize q.spanSource? g detail' = b at hrel
  cases hrel with
  | none => exact .none
  | some halike => exact .some (halike.mono hP)

theorem sameSources_of_eq (hP : ∀ ss, P ss ss) {q : Query}
    (h : ∀ detail detail', q.spanSource? g detail = q.spanSource? g detail') :
    q.SameSources P g := by
  intro detail detail'
  rw [h detail detail']
  cases q.spanSource? g detail' with
  | none => exact .none
  | some a => exact .some (.refl hP a.2)

/-- A check reads payloads whether it is read with them itself or not. -/
theorem spanSource?_withoutPayload (g : Segment) (q : Query) (detail detail' : Detail) :
    (withoutPayload q).spanSource? g detail = (withoutPayload q).spanSource? g detail' := by
  have hmax : ∀ detail : Detail, detail.max .payloads = .payloads := by
    intro detail
    cases detail <;> rfl
  rw [spanSource?, spanSource?, hmax, hmax]

theorem sameSources_of_term? {q : Query} {t : Term} {gates : List Threshold}
    (h : ∀ detail, q.spanSource? g detail = SpanSource.term? g detail t gates) :
    q.SameSources Span.SameCounts g := by
  intro detail detail'
  rw [h, h, SpanSource.term?, SpanSource.term?]
  cases g.postings? t with
  | none => exact .none
  | some ps =>
    refine .some ((Trail.Alike.refl (P := Eq) (fun _ => rfl) _).choosing ?_ ?_)
    · rintro p _ rfl
      exact Span.sameCounts_postingSpans ..
    · exact fun ss us h => h.samePlaces.eq_nil_iff

theorem forall₂_trails {sources sources' : List SpanSource}
    (h : List.Forall₂ (fun a b => Trail.Alike P a.2 b.2) sources sources') :
    List.Forall₂ (Trail.Alike P) (sources.map (·.2)) (sources'.map (·.2)) :=
  List.forall₂_map_left_iff.2 (List.forall₂_map_right_iff.2 h)

theorem sameSources_spanOr (hP : ∀ sss uss, List.Forall₂ P sss uss →
      P (Span.sorted sss.flatten) (Span.sorted uss.flatten)) {qs : List Query}
    (h : ∀ q ∈ qs, q.SameSources P g) (field : String) : (spanOr field qs).SameSources P g := by
  intro detail detail'
  have hsources := forall₂_spanSources (List.forall₂_same.2 fun q hq => h q hq detail detail')
  rw [spanSource?, spanSource?]
  generalize spanSources g detail qs = sources at hsources
  generalize spanSources g detail' qs = sources' at hsources
  cases hsources with
  | nil => exact .none
  | cons hfirst hrest =>
    cases hrest with
    | nil => exact .some hfirst
    | cons hsecond hrest =>
      exact .some (SpanUnion.alike_merged hP (forall₂_trails (.cons hfirst (.cons hsecond hrest))))

theorem sameSources_spanNear {qs : List Query} (h : ∀ q ∈ qs, q.SameSources Span.SamePlaces g)
    (field : String) (slop : UInt32) (inOrder : Bool) :
    (spanNear field qs slop inOrder).SameSources Span.SamePlaces g := by
  intro detail detail'
  have hsources := rel_allSpanSources? (List.forall₂_same.2 fun q hq => h q hq detail detail')
  rw [spanSource?, spanSource?]
  generalize allSpanSources? g detail qs = sources at hsources
  generalize allSpanSources? g detail' qs = sources' at hsources
  cases hsources with
  | none => exact .none
  | some hall =>
    exact .some (SpanProximity.alike_matched (fun _ _ => Span.samePlaces_near)
      (fun _ _ hsame => hsame.eq_nil_iff) (forall₂_trails hall))

theorem sameSources_frequentSpan {q : Query} {least : Threshold} (h : q.SameSources P g)
    (hkeep : ∀ ss us, P ss us → P ((SpanFilter.minFrequency least.value).keep ss)
      ((SpanFilter.minFrequency least.value).keep us))
    (hnil : ∀ ss us, P ss us → (ss = [] ↔ us = [])) : (frequentSpan q least).SameSources P g := by
  intro detail detail'
  have hinner := h detail detail'
  rw [spanSource?, spanSource?]
  generalize q.spanSource? g detail = a at hinner
  generalize q.spanSource? g detail' = b at hinner
  cases hinner with
  | none => exact .none
  | some halike => exact .some (halike.choosing hkeep hnil)

theorem term?_of_payloads {t : Term}
    (h : ∀ p ∈ g.postingsOf t, ∀ o ∈ p.occurrences.getD [], o.payload = none)
    (gates : List Threshold) (detail detail' : Detail) :
    SpanSource.term? g detail t gates = SpanSource.term? g detail' t gates := by
  rw [Segment.postingsOf] at h
  rw [SpanSource.term?, SpanSource.term?]
  cases hps : g.postings? t with
  | none => rfl
  | some ps =>
    rw [hps, Option.getD_some] at h
    have hchoosing : (gatedVisits gates ps).choosing
        (SpanCursor.postingSpans (detail.max .positions)) =
          (gatedVisits gates ps).choosing (SpanCursor.postingSpans (detail'.max .positions)) := by
      refine List.filterMap_congr fun v hv => ?_
      obtain ⟨p, hp, rfl⟩ := List.mem_map.1 hv
      rw [Posting.visit, Span.postingSpans_eq_of_payloads (h p (List.mem_of_mem_filter hp))]
    rw [Option.map_some, Option.map_some, hchoosing]

section

variable (hkeeps : ∀ t, keeps t.field = false → ∀ p ∈ g.postingsOf t,
  ∀ o ∈ p.occurrences.getD [], o.payload = none)

include hkeeps

/-- A query that reads only from fields without payloads comes to the same either way. -/
theorem spanSource?_of_readsFrom {q : Query} (h : q.hasNode (readsFrom keeps) = false)
    (detail detail' : Detail) : q.spanSource? g detail = q.spanSource? g detail' := by
  induction q using byParts generalizing detail detail' with
  | hboost => rfl
  | hboolean => rfl
  | hspanOr field qs ih =>
    have hqs := (hasNode_spanOr rfl).1 h
    rw [spanSource?, spanSource?, spanSources_eq_filterMap, spanSources_eq_filterMap]
    refine congrArg SpanSource.anyOf (List.filterMap_congr fun q hq => ?_)
    exact ih q hq (hqs q hq) detail detail'
  | hspanNear field qs slop inOrder ih =>
    have hqs := (hasNode_spanNear rfl).1 h
    have hall : ∀ qs : List Query,
        (∀ q ∈ qs, q.spanSource? g detail = q.spanSource? g detail') →
          allSpanSources? g detail qs = allSpanSources? g detail' qs := by
      intro qs
      induction qs with
      | nil => exact fun _ => rfl
      | cons q qs ih =>
        intro hsame
        obtain ⟨hq, hrest⟩ := List.forall_mem_cons.1 hsame
        rw [allSpanSources?, allSpanSources?, hq, ih hrest]
    rw [spanSource?, spanSource?, hall qs fun q hq => ih q hq (hqs q hq) detail detail']
  | hwithoutPayload q ih => exact spanSource?_withoutPayload ..
  | hfrequentSpan q least ih => rw [spanSource?, spanSource?, ih h detail detail']
  | hdeferred => rfl
  | hatom q hq =>
    rw [hasNode_atom hq] at h
    cases q with
    | spanTerm t => exact term?_of_payloads (hkeeps t h) ..
    | frequentSpanTerm t least carried => exact term?_of_payloads (hkeeps t h) ..
    | _ => first | rfl | cases hq

/-- What a steady query comes to has the same places with payloads and without. -/
theorem same_of_steady {q : Query} (h : q.steady keeps counted = true) :
    q.SameSources (Span.Same counted) g := by
  induction q using byParts generalizing counted with
  | hboost => simp [steady] at h
  | hboolean => simp [steady] at h
  | hspanOr field qs ih =>
    rw [steady] at h
    refine sameSources_spanOr (fun sss uss hall => Span.same_sorted_flatten hall)
      (fun q hq => ?_) field
    exact ih q hq (allSteady_iff.1 h q hq)
  | hspanNear field qs slop inOrder ih =>
    cases counted with
    | true =>
      refine sameSources_of_eq (fun _ => .refl _) fun detail detail' => ?_
      exact spanSource?_of_readsFrom hkeeps
        ((hasNode_spanNear rfl).2 (steady_spanNear_counted.1 h)) detail detail'
    | false =>
      rw [steady] at h
      exact sameSources_spanNear (fun q hq => ih q hq (allSteady_iff.1 h q hq)) field slop inOrder
  | hwithoutPayload q =>
    exact sameSources_of_eq (fun _ => Span.SameCounts.same (.refl _) _)
      (spanSource?_withoutPayload g q)
  | hfrequentSpan q least ih =>
    rcases steady_frequentSpan_iff.1 h with hcounts | ⟨rfl, hleast, hplaces⟩
    · have hcounted : (frequentSpan q least).SameSources Span.SameCounts g :=
        sameSources_frequentSpan (ih hcounts) (fun _ _ hss => Span.sameCounts_minFrequency hss _)
          fun _ _ hss => hss.samePlaces.eq_nil_iff
      exact hcounted.mono fun _ _ hss => hss.same counted
    · refine sameSources_frequentSpan (ih hplaces) (fun ss us hss => ?_)
        fun _ _ => Span.SamePlaces.eq_nil_iff
      rwa [Span.minFrequency_keep_of_le_one hleast, Span.minFrequency_keep_of_le_one hleast]
  | hdeferred => exact fun _ _ => .none
  | hatom q hq =>
    cases q with
    | spanTerm t => exact (sameSources_of_term? fun _ => rfl).mono fun _ _ hss => hss.same counted
    | frequentSpanTerm t least carried =>
      exact (sameSources_of_term? fun _ => rfl).mono fun _ _ hss => hss.same counted
    | spanMultiTerm => exact fun _ _ => .none
    | withoutPayload => cases hq
    | _ => first | cases hq; done | simp [steady] at h

end

theorem shows_of_isSpan {q : Query} (g : Segment) (d : Nat) (h : q.isSpan = true) :
    q.shows g d = ((q.spanSource? g .positions).elim [] (·.2.docs)).contains d := by
  cases q <;> first | rfl | cases h

/-- Where a query has the same places with payloads and without, it shows the documents that it
shows when its places are checked. -/
theorem SameSources.shows_of_withoutPayload {q : Query} (h : q.SameSources Span.SamePlaces g)
    (hspan : q.isSpan = true) {d : Nat} (hshows : (withoutPayload q).shows g d = true) :
    q.shows g d = true := by
  have hrel := h (Detail.positions.max .payloads) .positions
  rw [shows_of_isSpan g d rfl, spanSource?, List.contains_iff_mem] at hshows
  rw [shows_of_isSpan g d hspan, List.contains_iff_mem]
  generalize q.spanSource? g (Detail.positions.max .payloads) = a at hrel hshows
  generalize q.spanSource? g .positions = b at hrel
  cases hrel with
  | none => cases hshows
  | some halike =>
    have hdocs := (Trail.docs_choosing_sublist _ _).subset hshows
    rwa [halike.sameDocs] at hdocs

end Query

namespace Searcher

open Query

variable {s : Searcher} {keeps : String → Bool} {counted : Bool}

/-! ### Grounding -/

/-- A step of grounding leaves a query reading from no other fields. -/
theorem StepsTo.hasNode_readsFrom {q r : Query} (h : s.StepsTo q r)
    (hq : q.hasNode (readsFrom keeps) = false) : r.hasNode (readsFrom keeps) = false := by
  induction q using Query.byParts generalizing r with
  | hboost => cases hq
  | hboolean => cases hq
  | hspanOr field qs ih =>
    obtain ⟨rs, rfl, hsteps⟩ := h.spanOr
    refine (hasNode_spanOr rfl).2 fun r hr => ?_
    obtain ⟨q, hmem, hstep⟩ := exists_mem_of_forall₂ hsteps hr
    exact ih q hmem hstep ((hasNode_spanOr rfl).1 hq q hmem)
  | hspanNear field qs slop inOrder ih =>
    obtain ⟨field', rs, rfl, hsteps, -⟩ := h.spanNear
    refine (hasNode_spanNear rfl).2 fun r hr => ?_
    obtain ⟨q, hmem, hstep⟩ := exists_mem_of_forall₂ hsteps hr
    exact ih q hmem hstep ((hasNode_spanNear rfl).1 hq q hmem)
  | hwithoutPayload q ih =>
    obtain ⟨q', rfl, hstep⟩ := h.withoutPayload
    exact ih (r := q') hstep hq
  | hfrequentSpan q least ih =>
    obtain ⟨q', rfl, hstep⟩ := h.frequentSpan
    exact ih (r := q') hstep hq
  | hdeferred q plan ih =>
    rcases h.deferred_of_isSpan fun next hnext => isSpan_of_readsFrom (ih hnext hq) with rfl | hstep
    · exact hq
    · exact ih hstep hq
  | hatom q hatom =>
    by_cases hselects : q.isSelection = false
    · rwa [h.atom hatom hselects]
    · cases q with
      | spanMultiTerm m =>
        obtain ⟨ts, hts, rfl⟩ := h.spanMultiTerm
        refine (hasNode_spanOr rfl).2 fun q hmem => ?_
        obtain ⟨t, ht, rfl⟩ := List.mem_map.1 hmem
        have hfield : keeps t.field = false := (field_of_expand hts t ht).symm ▸ hq
        rw [selectedSpanTerm]
        cases m.least <;> exact hfield
      | multiTerm => cases hq
      | _ => exact absurd rfl hselects

theorem steady_selectedSpanTerm (m : MultiTerm) (t : Term) :
    (selectedSpanTerm m t).steady keeps counted = true := by
  rw [selectedSpanTerm]
  cases m.least <;> rw [steady]

/-- A step of grounding leaves a query with the same places either way. -/
theorem StepsTo.steady {q r : Query} (h : s.StepsTo q r) (hq : q.steady keeps counted = true) :
    r.steady keeps counted = true := by
  induction q using Query.byParts generalizing r counted with
  | hboost => simp [Query.steady] at hq
  | hboolean => simp [Query.steady] at hq
  | hspanOr field qs ih =>
    obtain ⟨rs, rfl, hsteps⟩ := h.spanOr
    rw [Query.steady] at hq ⊢
    refine allSteady_iff.2 fun r hr => ?_
    obtain ⟨q, hmem, hstep⟩ := exists_mem_of_forall₂ hsteps hr
    exact ih q hmem hstep (allSteady_iff.1 hq q hmem)
  | hspanNear field qs slop inOrder ih =>
    obtain ⟨field', rs, rfl, hsteps, -⟩ := h.spanNear
    cases counted with
    | true =>
      refine steady_spanNear_counted.2 fun r hr => ?_
      obtain ⟨q, hmem, hstep⟩ := exists_mem_of_forall₂ hsteps hr
      exact hstep.hasNode_readsFrom (steady_spanNear_counted.1 hq q hmem)
    | false =>
      rw [Query.steady] at hq ⊢
      refine allSteady_iff.2 fun r hr => ?_
      obtain ⟨q, hmem, hstep⟩ := exists_mem_of_forall₂ hsteps hr
      exact ih q hmem hstep (allSteady_iff.1 hq q hmem)
  | hwithoutPayload q =>
    obtain ⟨q', rfl, -⟩ := h.withoutPayload
    rw [Query.steady]
  | hfrequentSpan q least ih =>
    obtain ⟨q', rfl, hstep⟩ := h.frequentSpan
    rcases steady_frequentSpan_iff.1 hq with hcounts | ⟨hcounted, hleast, hplaces⟩
    · exact steady_frequentSpan_iff.2 (.inl (ih hstep hcounts))
    · exact steady_frequentSpan_iff.2 (.inr ⟨hcounted, hleast, ih hstep hplaces⟩)
  | hdeferred q plan ih =>
    rw [Query.steady] at hq
    rcases h.deferred_of_isSpan fun next hnext => isSpan_of_steady (ih hnext hq) with rfl | hstep
    · exact hq
    · exact ih hstep hq
  | hatom q hatom =>
    by_cases hselects : q.isSelection = false
    · rwa [h.atom hatom hselects]
    · cases q with
      | spanMultiTerm m =>
        obtain ⟨ts, -, rfl⟩ := h.spanMultiTerm
        rw [Query.steady]
        refine allSteady_iff.2 fun q hmem => ?_
        obtain ⟨t, -, rfl⟩ := List.mem_map.1 hmem
        exact steady_selectedSpanTerm m t
      | multiTerm => simp [Query.steady] at hq
      | _ => exact absurd rfl hselects

theorem Grounds.steady {q r : Query} (h : s.Grounds q r) (hq : q.steady keeps counted = true) :
    r.steady keeps counted = true := by
  induction h with
  | done => exact hq
  | step hstep _ ih => exact ih (StepsTo.steady ⟨_, hstep, rfl⟩ hq)

/-! ### Whole searches -/

/-- A check shows no documents but those that the query shows, if the query is steady. -/
theorem shows_of_withoutPayload {g : Segment} {d : Nat} (hkeeps : ∀ t, keeps t.field = false →
      ∀ p ∈ g.postingsOf t, ∀ o ∈ p.occurrences.getD [], o.payload = none) {q r r' : Query}
    (hq : q.steady keeps false = true) (hr : s.Grounds (.withoutPayload q) r) (hr' : s.Grounds q r')
    (hshows : r.shows g d = true) : r'.shows g d = true := by
  obtain ⟨q', rfl, hq'⟩ := hr.withoutPayload
  obtain rfl := hr'.unique hq'
  have hsteady := hr'.steady hq
  exact (same_of_steady hkeeps hsteady).shows_of_withoutPayload (isSpan_of_steady hsteady) hshows

open IndexBuilder (accepted)

end Searcher

end TextSearch
