import TextSearch.Proofs.Search.DocumentScores
import TextSearch.Proofs.Search.Openings
import TextSearch.Proofs.Search.SameDocuments
import TextSearch.Proofs.Search.Screening
import TextSearch.Proofs.Span.Bare

/-!
# Visits with thresholds of one

Every term that a document has occurs in it, and no document is visited for its places
without having some, so that thresholds of one keep everything. A query and the query with
thresholds of one put in come to the same places and the same visits in every segment, and
measure gaps in the same way where scores are needed. Main statements:
`Query.Screened.spanSource?`, `Query.Screened.trail?` and `Query.Screened.opening`.
-/

namespace TextSearch

/-- A threshold of one keeps the postings of terms that occur. -/
theorem gatedVisits_one {ps : List Posting} (h : ∀ p ∈ ps, 0 < p.frequency) :
    gatedVisits [.one] ps = gatedVisits [] ps := by
  refine congrArg Posting.trail (List.filter_congr fun p hp => ?_)
  have hpasses : Threshold.one.value ≤ p.frequency := h p hp
  simp [passes, hpasses]

namespace Query

variable {g : Segment} {plans : List Plan} {scored : Bool} {q q' : Query}

/-! ### Places -/

/-- No document is visited for the places of a query without having some. -/
theorem filled_spanSource? {detail : Detail} {source : SpanSource}
    (h : q.spanSource? g detail = some source) : ∀ v ∈ source.2, v.shown ≠ [] := by
  induction q using byParts generalizing detail source with
  | hboost => cases h
  | hboolean => cases h
  | hdeferred => cases h
  | hspanOr field qs ih =>
    rw [spanSource?] at h
    have hfilled : ∀ t ∈ (spanSources g detail qs).map (·.2), ∀ v ∈ t, v.shown ≠ [] := by
      intro t ht
      obtain ⟨operand, hoperand, rfl⟩ := List.mem_map.1 ht
      rw [spanSources_eq_filterMap] at hoperand
      obtain ⟨q, hq, hsource⟩ := List.mem_filterMap.1 hoperand
      exact ih q hq hsource
    match hsources : spanSources g detail qs, h with
    | [one], h =>
      cases h
      exact hfilled source.2 (by rw [hsources]; exact List.mem_singleton_self _)
    | first :: second :: rest, h =>
      cases h
      rw [hsources] at hfilled
      exact SpanUnion.filled_merged hfilled
  | hspanNear field qs slop inOrder ih =>
    obtain ⟨sources, -, rfl⟩ := Option.map_eq_some_iff.1 h
    exact Trail.filled_choosing _ _
  | hwithoutPayload q =>
    obtain ⟨inner, -, rfl⟩ := Option.map_eq_some_iff.1 h
    exact Trail.filled_choosing _ _
  | hfrequentSpan q least =>
    obtain ⟨inner, -, rfl⟩ := Option.map_eq_some_iff.1 h
    exact Trail.filled_choosing _ _
  | hatom q hq =>
    cases q with
    | spanTerm t =>
      obtain ⟨ps, -, rfl⟩ := Option.map_eq_some_iff.1 h
      exact Trail.filled_choosing _ _
    | frequentSpanTerm t least carried =>
      obtain ⟨ps, -, rfl⟩ := Option.map_eq_some_iff.1 h
      exact Trail.filled_choosing _ _
    | _ => first | (cases hq; done) | cases h

theorem choosing_atLeastOne {t : Trail (List Span)} (h : ∀ v ∈ t, v.shown ≠ []) :
    t.choosing (SpanFilter.minFrequency Threshold.one.value).keep = t := by
  have hkeep : (SpanFilter.minFrequency Threshold.one.value).keep = id :=
    funext (Span.minFrequency_keep_of_le_one (Nat.le_refl 1))
  rw [hkeep, Trail.choosing_eq_showing h, Trail.showing]
  exact List.map_id t

theorem exists_of_mem_spanWidthsAll {qs : List Query} {w : UInt32} (h : w ∈ spanWidthsAll qs) :
    ∃ q ∈ qs, w ∈ q.spanWidths := by
  induction qs with
  | nil => cases h
  | cons q qs ih =>
    rw [spanWidthsAll, List.mem_append] at h
    rcases h with h | h
    · exact ⟨q, List.mem_cons_self .., h⟩
    · obtain ⟨q', hq', hw⟩ := ih h
      exact ⟨q', List.mem_cons_of_mem q hq', hw⟩

/-- A query of unit width takes a single position to go without a gap in every segment. -/
theorem eq_one_of_mem_spanWidths (hq : q.hasUnitWidth = true) {w : UInt32}
    (hw : w ∈ q.spanWidths) : w = 1 := by
  induction q using byParts with
  | hspanOr field qs ih =>
    have hoperands : w ∈ spanWidthsAll qs → w = 1 := by
      intro hw
      obtain ⟨q, hmem, hw⟩ := exists_of_mem_spanWidthsAll hw
      exact ih q hmem (allHaveUnitWidth_iff.1 hq q hmem) hw
    rw [spanWidths] at hw
    split at hw
    · rcases List.mem_cons.1 hw with rfl | hw
      · rfl
      · exact hoperands hw
    · exact hoperands hw
  | hspanNear field qs slop inOrder =>
    have hone : qs.length = 1 := by simpa [hasUnitWidth] using hq
    rw [spanWidths, hone] at hw
    exact List.mem_singleton.1 hw
  | hatom q hatom =>
    cases q <;> first | exact List.mem_singleton.1 hw | cases hatom
  | _ => exact List.mem_singleton.1 hw

/-- Sources with the same places, which measure gaps in the same way if scores are needed. -/
def SameSource (scored : Bool) (a b : SpanSource) : Prop :=
  a.2 = b.2 ∧ (scored = true → a.1 = b.1)

theorem SameSource.refl (scored : Bool) (a : SpanSource) : SameSource scored a a :=
  ⟨rfl, fun _ => rfl⟩

theorem map_snd_eq {sources sources' : List SpanSource}
    (h : List.Forall₂ (SameSource scored) sources sources') :
    sources.map (·.2) = sources'.map (·.2) := by
  induction h with
  | nil => rfl
  | cons hab _ ih => rw [List.map_cons, List.map_cons, hab.1, ih]

theorem sameSource_filtered {a b : Option SpanSource} (h : Option.Rel (SameSource false) a b)
    (filter : SpanFilter) : Option.Rel (SameSource scored) (a.map (SpanSource.filtered · filter))
      (b.map (SpanSource.filtered · filter)) :=
  rel_map_map h fun _ _ hab => ⟨congrArg (Trail.choosing filter.keep) hab.1, fun _ => rfl⟩

variable (hfrequent : ∀ t, ∀ p ∈ g.postingsOf t, 0 < p.frequency)

include hfrequent

theorem gatedVisits_postings {t : Term} {ps : List Posting} (h : g.postings? t = some ps) :
    gatedVisits [.one] ps = gatedVisits [] ps := by
  refine gatedVisits_one fun p hp => hfrequent t p ?_
  rwa [Segment.postingsOf, h, Option.getD_some]

/-- Thresholds of one leave the places of a query as they are. -/
theorem Screened.spanSource? (h : Screened plans scored q q') (detail : Detail) :
    Option.Rel (SameSource scored) (q.spanSource? g detail) (q'.spanSource? g detail) := by
  induction h generalizing detail with
  | refl plans scored q =>
    cases q.spanSource? g detail with
    | none => exact .none
    | some a => exact .some (.refl scored a)
  | term => exact .none
  | multiTerm => exact .none
  | spanMultiTerm => exact .none
  | boost => exact .none
  | boolean => exact .none
  | deferred => exact .none
  | @spanTerm plans scored t =>
    rw [Query.spanSource?, Query.spanSource?, SpanSource.term?, SpanSource.term?]
    cases hps : g.postings? t with
    | none => exact .none
    | some ps =>
      rw [Option.map_some, Option.map_some, gatedVisits_postings hfrequent hps]
      exact .some (.refl scored _)
  | @atLeastOne plans scored q q' hspan hwidth h ih =>
    have hinner := ih detail
    rw [Query.spanSource?]
    generalize hx : q.spanSource? g detail = a at hinner
    generalize hy : q'.spanSource? g detail = b at hinner
    cases hinner with
    | none => exact .none
    | some hab =>
      have hkept := choosing_atLeastOne (filled_spanSource? hy)
      exact .some ⟨hab.1.trans hkept.symm, fun hscored =>
        eq_one_of_mem_spanWidths (hwidth hscored) (mem_spanWidths hx)⟩
  | @spanOr plans scored qs qs' field hlength h ih =>
    have hsources := forall₂_spanSources (forall₂_of_zip hlength fun c hc => ih c hc detail)
    rw [Query.spanSource?, Query.spanSource?]
    generalize spanSources g detail qs = sources at hsources
    generalize spanSources g detail qs' = sources' at hsources
    cases hsources with
    | nil => exact .none
    | cons hfirst hrest =>
      cases hrest with
      | nil => exact .some hfirst
      | cons hsecond hrest =>
        have htrails := map_snd_eq (.cons hfirst (.cons hsecond hrest))
        exact .some ⟨congrArg SpanUnion.merged htrails, fun _ => rfl⟩
  | @spanNear plans scored qs qs' field slop inOrder hlength h ih =>
    have hsources := rel_allSpanSources? (forall₂_of_zip hlength fun c hc => ih c hc detail)
    rw [Query.spanSource?, Query.spanSource?]
    refine rel_map_map hsources fun sources sources' hall => ⟨?_, fun _ => ?_⟩
    · exact congrArg (SpanProximity.matched slop inOrder) (map_snd_eq hall)
    · exact congrArg (fun n : Nat => n.toUInt32) hall.length_eq
  | withoutPayload _ ih =>
    rw [Query.spanSource?, Query.spanSource?]
    exact sameSource_filtered (ih _) _
  | frequentSpan least _ ih =>
    rw [Query.spanSource?, Query.spanSource?]
    exact sameSource_filtered (ih _) _

omit hfrequent

theorem spanTermsAll_congr {qs qs' : List Query}
    (h : List.Forall₂ (fun q q' => q'.spanTerms = q.spanTerms) qs qs') :
    spanTermsAll qs' = spanTermsAll qs := by
  induction h with
  | nil => rfl
  | cons hq _ ih => rw [spanTermsAll, spanTermsAll, hq, ih]

theorem Screened.spanTerms (h : Screened plans scored q q') : q'.spanTerms = q.spanTerms := by
  induction h with
  | spanOr _ hlength _ ih => exact spanTermsAll_congr (forall₂_of_zip hlength ih)
  | spanNear _ _ _ hlength _ ih => exact spanTermsAll_congr (forall₂_of_zip hlength ih)
  | atLeastOne _ _ _ ih => exact ih
  | withoutPayload _ ih => exact ih
  | frequentSpan _ _ ih => exact ih
  | _ => rfl

theorem Screened.spanScorer {R : Type} [ScoreNumber R] (h : Screened plans scored q q')
    (s : Snapshot) (needed : Bool) (boost : R) :
    q'.spanScorer s needed boost = q.spanScorer s needed boost := by
  rw [Query.spanScorer, Query.spanScorer, h.spanField?, h.spanTerms]

/-! ### Visits -/

section Trails

variable {R : Type} [ScoreNumber R] (s : Snapshot)

/-- Trails of the same documents, which are the same trail if scores are needed. -/
def SameVisits (scored : Bool) (t u : Trail (Merit R)) : Prop :=
  Trail.SameDocs t u ∧ (scored = true → t = u)

omit [ScoreNumber R] in
theorem SameVisits.refl (scored : Bool) (t : Trail (Merit R)) : SameVisits scored t t :=
  ⟨rfl, fun _ => rfl⟩

/-- Clauses of the same documents. Those that may be scored come to the same trails if scores are
needed. -/
structure SameParts (scored : Bool) (p p' : TrailParts R) : Prop where
  /-- The documents. -/
  docs : p.SameDocs p'
  /-- The trails of what has to match. -/
  required : scored = true → p.required = p'.required
  /-- The trails of what may match. -/
  optional : scored = true → p.optional = p'.optional

omit [ScoreNumber R] in
theorem SameParts.add {p p' : TrailParts R} (h : SameParts scored p p') {o : Occur}
    {t u : Trail (Merit R)}
    (htu : SameVisits (if o = .mustNot then false else scored) t u) :
    SameParts scored (p.add o t) (p'.add o u) := by
  have hdocs := h.docs.add o htu.1
  cases o with
  | must =>
    refine ⟨hdocs, fun hscored => ?_, h.optional⟩
    rw [TrailParts.add, TrailParts.add, htu.2 hscored, h.required hscored]
  | should =>
    refine ⟨hdocs, h.required, fun hscored => ?_⟩
    rw [TrailParts.add, TrailParts.add, htu.2 hscored, h.optional hscored]
  | mustNot => exact ⟨hdocs, h.required, h.optional⟩

/-- Which documents the clauses that must not match have is all that matters of them. -/
theorem SameParts.combine {p p' : TrailParts R} (h : SameParts scored p p') (needed : Bool) :
    Option.Rel (SameVisits scored) (p.combine needed) (p'.combine needed) := by
  cases scored with
  | false =>
    have hdocs := h.docs.combine needed needed
    generalize p.combine needed = a at hdocs
    generalize p'.combine needed = b at hdocs
    cases hdocs with
    | none => exact .none
    | some htu => exact .some ⟨htu, nofun⟩
  | true =>
    have hpositive : p.positive needed = p'.positive needed := by
      rw [TrailParts.positive, TrailParts.positive, h.required rfl, h.optional rfl]
    have hprohibited := h.docs.prohibited
    have hempty : p.prohibited.isEmpty = p'.prohibited.isEmpty := by
      rw [Bool.eq_iff_iff, List.isEmpty_iff_length_eq_zero, List.isEmpty_iff_length_eq_zero,
        hprohibited.length_eq]
    have hwithout : ∀ t : Trail (Merit R), t.without p.prohibited = t.without p'.prohibited := by
      refine fun t => Trail.without_congr fun v _ => ⟨?_, ?_⟩
      · rintro ⟨n, hn, hmem⟩
        obtain ⟨m, hm, hsame⟩ := exists_mem_of_forall₂ hprohibited.flip hn
        exact ⟨m, hm, hsame ▸ hmem⟩
      · rintro ⟨m, hm, hmem⟩
        obtain ⟨n, hn, hsame⟩ := exists_mem_of_forall₂ hprohibited hm
        exact ⟨n, hn, hsame ▸ hmem⟩
    rw [TrailParts.combine, TrailParts.combine, hpositive, hempty]
    simp only [hwithout]
    generalize Option.map _ (p'.positive needed) = a
    cases a with
    | none => exact .none
    | some t => exact .some (.refl true t)

theorem sameParts_trailParts? {g : Segment} (needed : Bool) {boost : R}
    {clauses clauses' : List (Occur × Query)}
    (h : List.Forall₂ (fun c c' => c.1 = c'.1 ∧ ∀ needed,
      Option.Rel (SameVisits (if c.1 = .mustNot then false else scored))
        (c.2.trail? s g needed boost) (c'.2.trail? s g needed boost)) clauses clauses') :
    Option.Rel (SameParts scored) (trailParts? s g needed boost clauses)
      (trailParts? s g needed boost clauses') := by
  induction h with
  | nil => exact .some ⟨⟨.nil, .nil, .nil⟩, fun _ => rfl, fun _ => rfl⟩
  | @cons c c' clauses clauses' hc _ ih =>
    obtain ⟨o, q⟩ := c
    obtain ⟨o', q'⟩ := c'
    obtain ⟨rfl, hvisits⟩ := hc
    have hfirst := hvisits (if o = .mustNot then false else needed)
    rw [trailParts?, trailParts?]
    generalize q.trail? s g (if o = .mustNot then false else needed) boost = t at hfirst
    generalize q'.trail? s g (if o = .mustNot then false else needed) boost = u at hfirst
    cases hfirst with
    | none =>
      by_cases ho : o = .must
      · simp only [if_pos ho]
        exact .none
      · simp only [if_neg ho]
        exact ih
    | some htu => exact rel_map_map ih fun _ _ hparts => hparts.add htu

/-- Thresholds of one leave the visits of a span query as they are. -/
theorem Screened.trail?_of_isSpan {g : Segment}
    (hfrequent : ∀ t, ∀ p ∈ g.postingsOf t, 0 < p.frequency) (h : Screened plans scored q q')
    (hspan : q.isSpan = true) (needed : Bool) (boost : R) :
    Option.Rel (SameVisits scored) (q.trail? s g needed boost) (q'.trail? s g needed boost) := by
  rw [Query.trail?_of_isSpan s g hspan, Query.trail?_of_isSpan s g (h.isSpan.trans hspan),
    h.spanScorer]
  refine rel_map_map (h.spanSource? hfrequent .positions) fun a b hab => ⟨?_, fun hscored => ?_⟩
  · rw [hab.1]
    exact TrailParts.sameDocs_showing rfl _ _
  · rw [hab.1, hab.2 hscored]

/-- Thresholds of one leave the visits of a query as they are. -/
theorem Screened.trail? {g : Segment} (hfrequent : ∀ t, ∀ p ∈ g.postingsOf t, 0 < p.frequency)
    (h : Screened plans scored q q') (needed : Bool) (boost : R) :
    Option.Rel (SameVisits scored) (q.trail? s g needed boost) (q'.trail? s g needed boost) := by
  induction h generalizing needed boost with
  | refl plans scored q =>
    cases q.trail? s g needed boost with
    | none => exact .none
    | some t => exact .some (.refl scored t)
  | @term plans scored t =>
    rw [Query.trail?, Query.trail?, termTrail?, termTrail?]
    cases hps : g.postings? t with
    | none => exact .none
    | some ps =>
      rw [Option.map_some, Option.map_some, gatedVisits_postings hfrequent hps]
      exact .some (.refl scored _)
  | multiTerm => exact .none
  | spanMultiTerm => exact .none
  | deferred => exact .none
  | boost factor _ ih => exact ih needed _
  | @boolean plans scored clauses clauses' hlength hoccur h ih =>
    have hparts := sameParts_trailParts? s needed (forall₂_of_zip hlength fun c hc =>
      ⟨hoccur c hc, fun needed => ih c hc needed boost⟩)
    rw [Query.trail?, Query.trail?]
    generalize trailParts? s g needed boost clauses = p at hparts
    generalize trailParts? s g needed boost clauses' = p' at hparts
    cases hparts with
    | none => exact .none
    | some hsame => exact hsame.combine needed
  | @spanTerm plans scored t =>
    exact (@Screened.spanTerm plans scored t).trail?_of_isSpan s hfrequent rfl needed boost
  | atLeastOne hspan hwidth h =>
    exact (Screened.atLeastOne hspan hwidth h).trail?_of_isSpan s hfrequent hspan needed boost
  | spanOr field hlength h =>
    exact (Screened.spanOr field hlength h).trail?_of_isSpan s hfrequent rfl needed boost
  | spanNear field slop inOrder hlength h =>
    exact (Screened.spanNear field slop inOrder hlength h).trail?_of_isSpan s hfrequent rfl needed
      boost
  | withoutPayload h =>
    exact (Screened.withoutPayload h).trail?_of_isSpan s hfrequent rfl needed boost
  | frequentSpan least h =>
    exact (Screened.frequentSpan least h).trail?_of_isSpan s hfrequent rfl needed boost

end Trails

/-! ### Openings -/

theorem spanOpeningAny_congr {g : Segment} {qs qs' : List Query}
    (h : List.Forall₂ (fun q q' => q'.spanOpening g = q.spanOpening g) qs qs') :
    spanOpeningAny g qs' = spanOpeningAny g qs := by
  induction h with
  | nil => rfl
  | cons hq _ ih => rw [spanOpeningAny, spanOpeningAny, hq, ih]

theorem spanOpeningAll_congr {g : Segment} {qs qs' : List Query}
    (h : List.Forall₂ (fun q q' => q'.spanOpening g = q.spanOpening g) qs qs') :
    spanOpeningAll g qs' = spanOpeningAll g qs := by
  induction h with
  | nil => rfl
  | cons hq _ ih => rw [spanOpeningAll, spanOpeningAll, hq, ih]

theorem Screened.spanOpening (h : Screened plans scored q q') (g : Segment) :
    q'.spanOpening g = q.spanOpening g := by
  induction h with
  | spanOr _ hlength _ ih => exact spanOpeningAny_congr (forall₂_of_zip hlength ih)
  | spanNear _ _ _ hlength _ ih => exact spanOpeningAll_congr (forall₂_of_zip hlength ih)
  | atLeastOne _ _ _ ih => exact ih
  | withoutPayload _ ih => exact ih
  | frequentSpan _ _ ih => exact ih
  | _ => rfl

theorem clausesOpening_congr {g : Segment} {clauses clauses' : List (Occur × Query)}
    (h : List.Forall₂ (fun c c' => c.1 = c'.1 ∧ c'.2.opening g = c.2.opening g) clauses clauses') :
    clausesOpening g clauses' = clausesOpening g clauses := by
  induction h with
  | nil => rfl
  | @cons c c' clauses clauses' hc _ ih =>
    obtain ⟨o, q⟩ := c
    obtain ⟨o', q'⟩ := c'
    obtain ⟨rfl, hopening⟩ := hc
    rw [clausesOpening, clausesOpening, hopening, ih]

/-- A query with thresholds of one put in can be opened where the query can. -/
theorem Screened.opening (h : Screened plans scored q q') (g : Segment) :
    q'.opening g = q.opening g := by
  induction h with
  | boost _ _ ih => exact ih
  | boolean hlength hoccur _ ih =>
    rw [Query.opening, Query.opening,
      clausesOpening_congr (forall₂_of_zip hlength fun c hc => ⟨hoccur c hc, ih c hc⟩)]
  | atLeastOne hspan _ h =>
    rw [opening_of_isSpan g hspan, ← h.spanOpening g]
    rfl
  | spanOr field hlength h => exact (Screened.spanOr field hlength h).spanOpening g
  | @spanNear plans scored qs qs' field slop inOrder hlength h =>
    exact (@Screened.spanNear plans scored qs qs' field slop inOrder hlength h).spanOpening g
  | withoutPayload h => exact h.spanOpening g
  | frequentSpan least h => exact h.spanOpening g
  | _ => rfl

end Query

end TextSearch
