import TextSearch.Proofs.Search.Matching

/-!
# Exact places

Rules make a query exact by asking for places without payloads. This module says
what the exact forms match in a segment, in terms of the postings of the segment:
`Query.shows_exactPlaces`, `Query.shows_frequentSpan_exactPlaces` and
`Query.shows_exactMultiPlaces`. Documents may name a field several times here, and
then have several postings of a term.
-/

namespace TextSearch

open Trail

theorem Span.hasEmptyPayload_ofOccurrence (o : Occurrence) :
    (Span.ofOccurrence o).hasEmptyPayload = o.hasEmptyPayload := by
  obtain ⟨position, payload⟩ := o
  cases payload with
  | none => rfl
  | some bytes => cases bytes <;> rfl

theorem SpanCursor.length_filter_postingSpans (p : Posting) :
    ((postingSpans .payloads p).filter (·.hasEmptyPayload)).length = p.bareCount := by
  have hperm := (Span.sorted_perm ((p.read .payloads).map Span.ofOccurrence)).filter
    (·.hasEmptyPayload)
  rw [postingSpans, hperm.length_eq, List.filter_map, List.length_map]
  exact congrArg (fun f => ((p.occurrences.getD []).filter f).length)
    (funext Span.hasEmptyPayload_ofOccurrence)

namespace SpanSource

variable {g : Segment} {t : Term} {d : Nat} {s : Span}

/-- A source shows a span on some visit to a document. -/
def Offers (source : Option SpanSource) (d : Nat) (s : Span) : Prop :=
  ∃ found ∈ source, ∃ v ∈ found.2, v.doc = d ∧ s ∈ v.shown

theorem offers_some {source : SpanSource} :
    Offers (some source) d s ↔ ∃ v ∈ source.2, v.doc = d ∧ s ∈ v.shown := by
  simp [Offers]

/-- The visits of a term with its payloads are its postings. -/
theorem exists_visit_term? {f : Nat → List Span → Prop} (hf : ∀ d, ¬ f d []) :
    (∃ found ∈ term? g .payloads t [], ∃ v ∈ found.2, f v.doc v.shown) ↔
      ∃ p ∈ g.postingsOf t, f p.doc (SpanCursor.postingSpans .payloads p) := by
  have hgates : ∀ ps : List Posting, gatedVisits [] ps = Posting.trail ps := by
    intro ps
    exact congrArg Posting.trail (List.filter_eq_self.2 fun p _ => rfl)
  rw [term?, Segment.postingsOf]
  cases g.postings? t with
  | none => simp
  | some ps =>
    simp only [Option.map_some, Option.mem_some_iff, exists_eq_left', Option.getD_some]
    constructor
    · rintro ⟨v, hv, hfv⟩
      obtain ⟨u, hu, hdoc, hshown, -⟩ := mem_choosing.1 hv
      rw [hgates] at hu
      obtain ⟨p, hp, rfl⟩ := List.mem_map.1 hu
      rw [← hdoc, ← hshown] at hfv
      exact ⟨p, hp, hfv⟩
    · rintro ⟨p, hp, hfp⟩
      have hne : SpanCursor.postingSpans .payloads p ≠ [] := fun hnil => hf _ (hnil ▸ hfp)
      refine ⟨⟨p.doc, SpanCursor.postingSpans .payloads p⟩, mem_choosing.2 ?_, hfp⟩
      exact ⟨p.visit, hgates ps ▸ List.mem_map.2 ⟨p, hp, rfl⟩, rfl, rfl, hne⟩

theorem offers_term? : Offers (term? g .payloads t []) d s ↔
    ∃ p ∈ g.postingsOf t, p.doc = d ∧ s ∈ SpanCursor.postingSpans .payloads p :=
  exists_visit_term? (f := fun e ss => e = d ∧ s ∈ ss) fun _ h => List.not_mem_nil h.2

/-- Several sources together show what each of them shows. -/
theorem offers_anyOf {sources : List SpanSource} :
    Offers (anyOf sources) d s ↔ ∃ source ∈ sources, Offers (some source) d s := by
  match sources with
  | [] => simp [anyOf, Offers]
  | [one] => simp [anyOf]
  | first :: second :: rest =>
    have hmany : anyOf (first :: second :: rest) =
        some (1, SpanUnion.merged ((first :: second :: rest).map (·.2))) := rfl
    rw [hmany, offers_some]
    generalize first :: second :: rest = sources
    constructor
    · rintro ⟨v, hv, hd, hs⟩
      obtain ⟨u, hu, rfl⟩ := List.mem_map.1 hv
      obtain ⟨ss, hss, hs⟩ := List.mem_flatten.1 ((Span.sorted_perm _).mem_iff.1 hs)
      obtain ⟨t, ht, hmem⟩ := exists_visit_union.1 ⟨u, hu, hd, hss⟩
      obtain ⟨source, hsource, rfl⟩ := List.mem_map.1 ht
      exact ⟨source, hsource, offers_some.2 ⟨_, hmem, rfl, hs⟩⟩
    · rintro ⟨source, hsource, hoffers⟩
      obtain ⟨v, hv, rfl, hs⟩ := offers_some.1 hoffers
      obtain ⟨u, hu, hd, hshown⟩ := exists_visit_union.2
        ⟨source.2, List.mem_map_of_mem hsource, (hv : ⟨v.doc, v.shown⟩ ∈ source.2)⟩
      refine ⟨_, List.mem_map.2 ⟨u, hu, rfl⟩, hd, (Span.sorted_perm _).mem_iff.2 ?_⟩
      exact List.mem_flatten.2 ⟨v.shown, hshown, hs⟩

end SpanSource

namespace Query

open SpanSource SpanCursor

variable {g : Segment} {d : Nat}

/-- A check of payloads matches where a place without payloads is shown. -/
theorem shows_withoutPayload {q : Query} : (withoutPayload q).shows g d = true ↔
    ∃ s, Offers (q.spanSource? g .payloads) d s ∧ s.hasEmptyPayload = true := by
  have hsource : (withoutPayload q).spanSource? g .positions =
      (q.spanSource? g .payloads).map (SpanSource.filtered · .emptyPayload) := rfl
  have hshows : (withoutPayload q).shows g d =
      (((withoutPayload q).spanSource? g .positions).elim [] (·.2.docs)).contains d := rfl
  rw [hshows, hsource, List.contains_iff_mem]
  cases q.spanSource? g .payloads with
  | none => simp [Offers]
  | some source =>
    rw [Option.map_some, Option.elim_some, SpanSource.filtered, mem_docs]
    constructor
    · rintro ⟨v, hv, rfl⟩
      obtain ⟨u, hu, hdoc, hshown, hne⟩ := mem_choosing.1 hv
      obtain ⟨s, hs⟩ := List.exists_mem_of_ne_nil _ hne
      rw [← hshown, SpanFilter.keep, List.mem_filter] at hs
      exact ⟨s, ⟨source, rfl, u, hu, hdoc, hs.1⟩, hs.2⟩
    · rintro ⟨s, ⟨_, hfound, u, hu, rfl, hs⟩, hbare⟩
      cases hfound
      have hmem : s ∈ SpanFilter.emptyPayload.keep u.shown := List.mem_filter.2 ⟨hs, hbare⟩
      have hvisit : ⟨u.doc, SpanFilter.emptyPayload.keep u.shown⟩ ∈
          source.2.choosing SpanFilter.emptyPayload.keep :=
        mem_choosing.2 ⟨u, hu, rfl, rfl, List.ne_nil_of_mem hmem⟩
      exact ⟨_, hvisit, rfl⟩

theorem exists_bare_postingSpans {p : Posting} :
    (∃ s ∈ postingSpans .payloads p, s.hasEmptyPayload = true) ↔ 0 < p.bareCount := by
  rw [← length_filter_postingSpans, List.length_pos_iff_exists_mem]
  simp

/-- The exact form of a term matches where the term occurs without a payload. -/
theorem shows_exactPlaces {t : Term} : (Plan.exactPlaces t).shows g d = true ↔
    ∃ p ∈ g.postingsOf t, p.doc = d ∧ 0 < p.bareCount := by
  have hsource : (spanTerm t).spanSource? g .payloads = term? g .payloads t [] := rfl
  rw [Plan.exactPlaces, shows_withoutPayload, hsource]
  constructor
  · rintro ⟨s, hoffers, hbare⟩
    obtain ⟨p, hp, hd, hs⟩ := offers_term?.1 hoffers
    exact ⟨p, hp, hd, exists_bare_postingSpans.1 ⟨s, hs, hbare⟩⟩
  · rintro ⟨p, hp, hd, hcount⟩
    obtain ⟨s, hs, hbare⟩ := exists_bare_postingSpans.2 hcount
    exact ⟨s, offers_term?.2 ⟨p, hp, hd, hs⟩, hbare⟩

/-- The exact form of a term that has to be frequent matches where the term occurs so often
without a payload. -/
theorem shows_frequentSpan_exactPlaces {t : Term} {least : Threshold} :
    (frequentSpan (Plan.exactPlaces t) least).shows g d = true ↔
      ∃ p ∈ g.postingsOf t, p.doc = d ∧ least.value ≤ p.bareCount := by
  have hpositive := least.positive
  have hsource : (frequentSpan (Plan.exactPlaces t) least).spanSource? g .positions =
      (term? g .payloads t []).map fun source =>
        SpanSource.filtered (SpanSource.filtered source .emptyPayload) (.minFrequency least.value) := by
    cases hterm : term? g .payloads t [] <;>
      simp [spanSource?, Plan.exactPlaces, Detail.max, hterm]
  have hvisits := exists_visit_term? (g := g) (t := t)
    (f := fun e ss => e = d ∧ least.value ≤ (ss.filter (·.hasEmptyPayload)).length)
    (fun _ h => by
      have hle : least.value ≤ 0 := h.2
      omega)
  simp only [length_filter_postingSpans] at hvisits
  have hshows : (frequentSpan (Plan.exactPlaces t) least).shows g d =
      (((frequentSpan (Plan.exactPlaces t) least).spanSource? g .positions).elim []
        (·.2.docs)).contains d := rfl
  rw [hshows, hsource, List.contains_iff_mem, ← hvisits]
  cases term? g .payloads t [] with
  | none => simp
  | some source =>
    rw [Option.map_some, Option.elim_some, mem_docs]
    simp only [SpanSource.filtered, Option.mem_some_iff, exists_eq_left']
    constructor
    · rintro ⟨v, hv, rfl⟩
      obtain ⟨u, hu, hdoc, hshown, hne⟩ := mem_choosing.1 hv
      obtain ⟨w, hw, hdoc', hshown', -⟩ := mem_choosing.1 hu
      refine ⟨w, hw, hdoc'.trans hdoc, ?_⟩
      by_contra hlt
      have hnil : (SpanFilter.minFrequency least.value).keep u.shown = [] :=
        if_neg (hshown' ▸ hlt)
      exact hne (hshown ▸ hnil)
    · rintro ⟨w, hw, rfl, hle⟩
      have hkeep : SpanFilter.emptyPayload.keep w.shown =
          w.shown.filter (·.hasEmptyPayload) := rfl
      have hne : w.shown.filter (·.hasEmptyPayload) ≠ [] := by
        intro hnil
        rw [hnil, List.length_nil] at hle
        omega
      have hleast : (SpanFilter.minFrequency least.value).keep
          (w.shown.filter (·.hasEmptyPayload)) = w.shown.filter (·.hasEmptyPayload) := if_pos hle
      have hbare : ⟨w.doc, w.shown.filter (·.hasEmptyPayload)⟩ ∈
          source.2.choosing SpanFilter.emptyPayload.keep :=
        mem_choosing.2 ⟨w, hw, rfl, hkeep, hne⟩
      exact ⟨_, mem_choosing.2 ⟨_, hbare, rfl, hleast, hne⟩, rfl⟩

/-- The exact form of a selection, expanded to its terms, matches where one of them occurs without
a payload. -/
theorem shows_exactMultiPlaces {field : String} {ts : List Term} :
    (withoutPayload (spanOr field (ts.map spanTerm))).shows g d = true ↔
      ∃ t ∈ ts, ∃ p ∈ g.postingsOf t, p.doc = d ∧ 0 < p.bareCount := by
  have hsource : (spanOr field (ts.map spanTerm)).spanSource? g .payloads =
      anyOf (ts.filterMap fun t => term? g .payloads t []) := by
    rw [spanSource?, spanSources_eq_filterMap, List.filterMap_map]
    rfl
  rw [shows_withoutPayload, hsource]
  simp only [offers_anyOf, List.mem_filterMap]
  constructor
  · rintro ⟨s, ⟨source, ⟨t, ht, hterm⟩, hoffers⟩, hbare⟩
    obtain ⟨p, hp, hd, hs⟩ := offers_term?.1 (hterm ▸ hoffers)
    exact ⟨t, ht, p, hp, hd, exists_bare_postingSpans.1 ⟨s, hs, hbare⟩⟩
  · rintro ⟨t, ht, p, hp, hd, hcount⟩
    obtain ⟨s, hs, hbare⟩ := exists_bare_postingSpans.2 hcount
    obtain ⟨source, hsource, hvisits⟩ := offers_term?.2 ⟨p, hp, hd, hs⟩
    exact ⟨s, ⟨source, ⟨t, ht, hsource⟩, source, rfl, hvisits⟩, hbare⟩

end Query

end TextSearch
