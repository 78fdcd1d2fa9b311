import TextSearch.Proofs.Cursor.SpanTree
import TextSearch.Proofs.Search.Yields

/-!
# Opening span queries

`Query.spanSource?` says what a grounded span query comes to in a segment: the
trail of its spans, or nothing where the segment lacks the terms for it. Main
statement: `Weighing.bound_of_yields_spanWeight`, that binding such a query and opening
it gives a cursor that walks this trail.
-/

namespace TextSearch

/-- A span cursor as it is seen from outside: how many positions of each span go without a gap,
and the trail that it walks. -/
abbrev SpanSource := UInt32 × Trail (List Span)

namespace SpanSource

/-- The spans of a term in those documents that pass gates. -/
def term? (g : Segment) (detail : Detail) (t : Term) (gates : List Threshold) :
    Option SpanSource :=
  (g.postings? t).map fun ps =>
    (1, (gatedVisits gates ps).choosing (SpanCursor.postingSpans (detail.max .positions)))

/-- The spans of several sources; a single one stands for itself. -/
def anyOf : List SpanSource → Option SpanSource
  | [] => none
  | [source] => some source
  | sources => some (1, SpanUnion.merged (sources.map (·.2)))

/-- The places where all of several sources come near each other. -/
def nearby (sources : List SpanSource) (slop : UInt32) (inOrder : Bool) : SpanSource :=
  (sources.length.toUInt32, SpanProximity.matched slop inOrder (sources.map (·.2)))

/-- The spans that a filter keeps. -/
def filtered (source : SpanSource) (filter : SpanFilter) : SpanSource :=
  (1, source.2.choosing filter.keep)

end SpanSource

namespace Query

mutual

/-- What a grounded span query comes to in a segment. -/
def spanSource? (g : Segment) (detail : Detail) : Query → Option SpanSource
  | spanTerm t => SpanSource.term? g detail t []
  | frequentSpanTerm t least _ => SpanSource.term? g detail t [least]
  | spanOr _ clauses => SpanSource.anyOf (spanSources g detail clauses)
  | spanNear _ clauses slop inOrder =>
    (allSpanSources? g detail clauses).map fun sources => SpanSource.nearby sources slop inOrder
  | withoutPayload q =>
    (spanSource? g (detail.max .payloads) q).map (SpanSource.filtered · .emptyPayload)
  | frequentSpan q least =>
    (spanSource? g detail q).map (SpanSource.filtered · (.minFrequency least.value))
  | _ => none

/-- What those of several queries come to that come to anything. -/
def spanSources (g : Segment) (detail : Detail) : List Query → List SpanSource
  | [] => []
  | q :: rest =>
    (spanSource? g detail q).elim (spanSources g detail rest) (· :: spanSources g detail rest)

/-- What several queries come to if each of them comes to something. -/
def allSpanSources? (g : Segment) (detail : Detail) : List Query → Option (List SpanSource)
  | [] => some []
  | q :: rest =>
    (spanSource? g detail q).bind fun source => (allSpanSources? g detail rest).map (source :: ·)

end

mutual

/-- The terms that a grounded span query looks up. -/
def spanTerms : Query → List Term
  | spanTerm t => [t]
  | frequentSpanTerm t _ _ => [t]
  | spanOr _ clauses => spanTermsAll clauses
  | spanNear _ clauses _ _ => spanTermsAll clauses
  | withoutPayload q => q.spanTerms
  | frequentSpan q _ => q.spanTerms
  | _ => []

/-- The terms that several queries look up. -/
def spanTermsAll : List Query → List Term
  | [] => []
  | q :: rest => q.spanTerms ++ spanTermsAll rest

end

mutual

/-- The lookups that a query carries along, with the terms that it uses them for. -/
def carriedLookups : Query → List (Term × TermLookup)
  | frequentTerm t _ carried => carried.toList.map (t, ·)
  | frequentSpanTerm t _ carried => carried.toList.map (t, ·)
  | boost q _ => q.carriedLookups
  | boolean clauses => carriedByClauses clauses
  | spanOr _ clauses => carriedByAll clauses
  | spanNear _ clauses _ _ => carriedByAll clauses
  | withoutPayload q => q.carriedLookups
  | frequentSpan q _ => q.carriedLookups
  | deferred q _ => q.carriedLookups
  | _ => []

/-- The lookups that clauses carry along. -/
def carriedByClauses : List (Occur × Query) → List (Term × TermLookup)
  | [] => []
  | (_, q) :: rest => q.carriedLookups ++ carriedByClauses rest

/-- The lookups that queries carry along. -/
def carriedByAll : List Query → List (Term × TermLookup)
  | [] => []
  | q :: rest => q.carriedLookups ++ carriedByAll rest

end

/-- Carried lookups that claim to be of a snapshot are what looking their terms up there
gives. -/
def Honest (s : Snapshot) (q : Query) : Prop :=
  ∀ l ∈ q.carriedLookups, l.2.snapshot = s.id → l.2.Faithful s l.1

/-! Queries that come one by one to related sources do so as operands. -/

section Related

variable {g : Segment} {rel : SpanSource → SpanSource → Prop} {detail detail' : Detail}
  {qs qs' : List Query}

theorem forall₂_spanSources (h : List.Forall₂ (fun q q' =>
      Option.Rel rel (q.spanSource? g detail) (q'.spanSource? g detail')) qs qs') :
    List.Forall₂ rel (spanSources g detail qs) (spanSources g detail' qs') := by
  induction h with
  | nil => exact .nil
  | @cons q q' qs qs' hfirst _ ih =>
    rw [spanSources, spanSources]
    generalize q.spanSource? g detail = a at hfirst
    generalize q'.spanSource? g detail' = b at hfirst
    cases hfirst with
    | none => exact ih
    | some hab => exact .cons hab ih

theorem rel_allSpanSources? (h : List.Forall₂ (fun q q' =>
      Option.Rel rel (q.spanSource? g detail) (q'.spanSource? g detail')) qs qs') :
    Option.Rel (List.Forall₂ rel) (allSpanSources? g detail qs)
      (allSpanSources? g detail' qs') := by
  induction h with
  | nil => exact .some .nil
  | @cons q q' qs qs' hfirst _ ih =>
    rw [allSpanSources?, allSpanSources?]
    generalize q.spanSource? g detail = a at hfirst
    generalize q'.spanSource? g detail' = b at hfirst
    generalize allSpanSources? g detail qs = as at ih
    generalize allSpanSources? g detail' qs' = bs at ih
    cases hfirst with
    | none => exact .none
    | some hab =>
      cases ih with
      | none => exact .none
      | some hall => exact .some (.cons hab hall)

end Related

end Query

/-- A cursor walks what a source shows. -/
def SpanCursor.Opens (c : SpanCursor) (source : SpanSource) : Prop :=
  SpanCursor.Walks source.1 c (.before source.2)

namespace SpanWeight

/-- Where opening a bound query in a segment does not fail, it gives what the query comes to. -/
def Opens (g : Segment) (q : Query) (w : SpanWeight) : Prop :=
  ∀ detail opened, w.spans g detail = .ok opened →
    Option.Rel SpanCursor.Opens opened (q.spanSource? g detail)

/-- What binding a span query to a snapshot makes of it. -/
structure Bound (s : Snapshot) (counted : Bool) (q : Query) (w : SpanWeight) : Prop where
  /-- The weight is on the field of the query. -/
  field : q.spanField? = some w.field
  /-- The terms are those of the query. -/
  terms : w.lookups.map (·.1) = q.spanTerms
  /-- Every lookup serves its term. -/
  serves : ∀ l ∈ w.lookups, LookupCache.Serves s l.1 counted l.2
  /-- The weight opens what the query comes to in every segment. -/
  opens : ∀ g ∈ s.segments, w.Opens g q

variable {s : Snapshot} {g : Segment} {counted : Bool}

theorem hasPositions_max (detail : Detail) : (detail.max .positions).hasPositions = true := by
  cases detail <;> rfl

/-- Opening the places of a term opens the spans of its postings. -/
theorem rel_openTerm (hs : s.Numbered) (hsound : g.Sound) (hg : g ∈ s.segments) {t : Term}
    {l : TermLookup} (hl : l.Faithful s t) (least : Option Threshold) {detail : Detail}
    {opened : Option SpanCursor} (h : openTerm t l least g detail = .ok opened) :
    Option.Rel SpanCursor.Opens opened (SpanSource.term? g detail t least.toList) := by
  rw [openTerm, hl.get hs hg, SpanSource.term?] at *
  rcases g.entry?_cases t with ⟨hnone, hentry⟩ | ⟨ps, entry, f, hps, hentry, hf, hpostings⟩
  · rw [hentry] at h
    cases h
    rw [hnone]
    exact .none
  · have hoptions : (g.options? t.field).any (·.hasPositions) = f.options.hasPositions := by
      rw [Segment.options?, hf]
      rfl
    rw [hentry] at h
    simp only [bind, Except.bind, hoptions, hpostings] at h
    cases hpositions : f.options.hasPositions with
    | false => simp [hpositions] at h
    | true =>
      have hsupports : f.options.supports (detail.max .positions) = true := by
        cases detail <;> simp [IndexOptions.supports, Detail.max, hpositions]
      simp only [hpositions, if_true, hsupports, pure, Except.pure] at h
      cases h
      have hplaced := hsound.placed t ps hps (hoptions.trans hpositions)
      have hshowing : ∀ gates, (gatedVisits gates ps).choosing
          (SpanCursor.postingSpans (detail.max .positions)) =
            (gatedVisits gates ps).showing (SpanCursor.postingSpans (detail.max .positions)) := by
        refine fun gates => Trail.choosing_eq_showing fun v hv => ?_
        obtain ⟨p, hp, rfl⟩ := List.mem_map.1 hv
        exact SpanCursor.postingSpans_ne_nil (hplaced p (List.mem_filter.1 hp).1) _
      rw [hps, Option.map_some, hshowing]
      refine .some (SpanCursor.walks_ofPostings (hasPositions_max detail) ?_)
      cases least with
      | none => exact PostingCursor.walks_ofList (hsound.trail t ps hps) _ []
      | some least => exact PostingCursor.walks_ofList (hsound.trail t ps hps) _ [least]

theorem forall₂_spansAny {ws : List SpanWeight} {qs : List Query}
    (hopens : List.Forall₂ (fun w q => w.Opens g q) ws qs) {detail : Detail}
    {cs : List SpanCursor} (h : spansAny g detail ws = .ok cs) :
    List.Forall₂ SpanCursor.Opens cs (Query.spanSources g detail qs) := by
  induction hopens generalizing cs with
  | nil =>
    cases h
    exact .nil
  | @cons w q ws qs hw _ ih =>
    rw [spansAny] at h
    obtain ⟨opened, hopened, h⟩ := except_bind_eq_ok.1 h
    obtain ⟨rest, hrest, h⟩ := except_bind_eq_ok.1 h
    cases h
    have hrel := hw detail opened hopened
    rw [Query.spanSources]
    generalize q.spanSource? g detail = source at hrel
    cases hrel with
    | none => exact ih hrest
    | some hc => exact .cons hc (ih hrest)

theorem rel_spansAll {ws : List SpanWeight} {qs : List Query}
    (hopens : List.Forall₂ (fun w q => w.Opens g q) ws qs) {detail : Detail}
    {opened : Option (List SpanCursor)} (h : spansAll g detail ws = .ok opened) :
    Option.Rel (List.Forall₂ SpanCursor.Opens) opened (Query.allSpanSources? g detail qs) := by
  induction hopens generalizing opened with
  | nil =>
    cases h
    exact .some .nil
  | @cons w q ws qs hw _ ih =>
    rw [spansAll] at h
    obtain ⟨first, hfirst, h⟩ := except_bind_eq_ok.1 h
    have hrel := hw detail first hfirst
    rw [Query.allSpanSources?]
    generalize q.spanSource? g detail = source at hrel
    cases hrel with
    | none =>
      cases h
      exact .none
    | some hc =>
      obtain ⟨rest, hrest, h⟩ := except_bind_eq_ok.1 h
      cases h
      have hrels := ih hrest
      generalize Query.allSpanSources? g detail qs = sources at hrels
      cases hrels with
      | none => exact .none
      | some hcs => exact .some (.cons hc hcs)

theorem opens_union {ws : List SpanWeight} {qs : List Query}
    (hopens : List.Forall₂ (fun w q => w.Opens g q) ws qs) (q : Query) (field : String) :
    (union q field ws).Opens g (.spanOr field qs) := by
  intro detail opened h
  rw [spans] at h
  obtain ⟨cs, hcs, h⟩ := except_bind_eq_ok.1 h
  have hforall := forall₂_spansAny hopens hcs
  rw [Query.spanSource?]
  generalize Query.spanSources g detail qs = sources at hforall
  match cs, sources, hforall, h with
  | [], [], .nil, h =>
    cases h
    exact .none
  | [c], [source], .cons hc .nil, h =>
    cases h
    exact .some hc
  | c₁ :: c₂ :: cs, s₁ :: s₂ :: sources, hforall, h =>
    cases h
    exact .some (SpanCursor.walks_anyOf hforall)

theorem opens_near {ws : List SpanWeight} {qs : List Query}
    (hopens : List.Forall₂ (fun w q => w.Opens g q) ws qs) (q : Query) (field : String)
    (slop : UInt32) (inOrder : Bool) :
    (near q field ws slop inOrder).Opens g (.spanNear field qs slop inOrder) := by
  intro detail opened h
  rw [spans] at h
  obtain ⟨all, hall, h⟩ := except_bind_eq_ok.1 h
  cases h
  have hrel := rel_spansAll hopens hall
  rw [Query.spanSource?]
  generalize Query.allSpanSources? g detail qs = sources at hrel
  cases hrel with
  | none => exact .none
  | some hcs => exact .some (SpanCursor.walks_nearby hcs slop inOrder)

theorem opens_filtered {w : SpanWeight} {q : Query} (hopens : w.Opens g q) (q' : Query)
    {filter : SpanFilter} (within : Detail → Detail) {result : Query}
    (hdetail : ∀ detail, (if filter = .emptyPayload then detail.max .payloads else detail) =
      within detail)
    (hresult : ∀ detail, result.spanSource? g detail =
      (q.spanSource? g (within detail)).map (SpanSource.filtered · filter)) :
    (filtered q' w filter).Opens g result := by
  intro detail opened h
  rw [spans] at h
  obtain ⟨inner, hinner, h⟩ := except_bind_eq_ok.1 h
  cases h
  rw [hdetail] at hinner
  have hrel := hopens _ inner hinner
  rw [hresult]
  generalize q.spanSource? g (within detail) = source at hrel
  cases hrel with
  | none => exact .none
  | some hc => exact .some (SpanCursor.walks_filtered hc filter)

end SpanWeight

namespace Weighing

open SpanWeight

variable {s : Snapshot} {counted : Bool}

/-! ### Binding

A property of span queries and their weights holds of whatever binding gives if it holds of the
weights of terms, and of every other weight if it holds of the parts. -/

/-- A property that the weights of terms have, and others if their parts have it. -/
structure ClosedSpans (s : Snapshot) (counted : Bool) (P : Query → SpanWeight → Prop) : Prop where
  /-- The places of a term, with a lookup that serves it. -/
  term : ∀ {t : Term} {l : TermLookup}, LookupCache.Serves s t counted l →
    P (.spanTerm t) (.term (.spanTerm t) t l none)
  /-- The places of a term that occurs often enough, with a lookup that serves it. -/
  frequentTerm : ∀ {t : Term} {least : Threshold} {carried : Option TermLookup} {l : TermLookup},
    LookupCache.Serves s t counted l →
    P (.frequentSpanTerm t least carried) (.term (.frequentSpanTerm t least carried) t l (some least))
  /-- A union of what the operands are bound to. -/
  union : ∀ {field : String} {qs : List Query} {ws : List SpanWeight},
    List.Forall₂ (fun w q => P q w) ws qs →
    P (.spanOr field qs) (.union (.spanOr field qs) field ws)
  /-- A proximity of what the operands are bound to. -/
  near : ∀ {field : String} {qs : List Query} {slop : UInt32} {inOrder : Bool}
    {ws : List SpanWeight}, List.Forall₂ (fun w q => P q w) ws qs →
    P (.spanNear field qs slop inOrder)
      (.near (.spanNear field qs slop inOrder) field ws slop inOrder)
  /-- Spans without payloads. -/
  withoutPayload : ∀ {q : Query} {w : SpanWeight}, P q w →
    P (.withoutPayload q) (.filtered (.withoutPayload q) w .emptyPayload)
  /-- Documents with enough spans. -/
  frequentSpan : ∀ {q : Query} {least : Threshold} {w : SpanWeight}, P q w →
    P (.frequentSpan q least) (.filtered (.frequentSpan q least) w (.minFrequency least.value))

section Induction

variable {P : Query → SpanWeight → Prop}

mutual

/-- A closed property holds of every weight that binding a span query gives. Binding leaves the
shared lookups sound. -/
theorem spanWeight_induction (hP : ClosedSpans s counted P) :
    ∀ (q : Query) {c c' : LookupCache} {w : SpanWeight}, q.Honest s → c.Sound s →
      Yields (spanWeight s counted q) c w c' → P q w ∧ c'.Sound s
  | .spanTerm t, _, _, _, _, hc, h => by
    rw [spanWeight] at h
    obtain ⟨l, c₁, hl, h⟩ := yields_bind.1 h
    obtain ⟨rfl, rfl⟩ := yields_pure.1 h
    obtain ⟨hserves, hc'⟩ := yields_resolve hc (by rintro l ⟨⟩) hl
    exact ⟨hP.term hserves, hc'⟩
  | .frequentSpanTerm t least carried, _, _, _, hq, hc, h => by
    rw [spanWeight] at h
    obtain ⟨l, c₁, hl, h⟩ := yields_bind.1 h
    obtain ⟨rfl, rfl⟩ := yields_pure.1 h
    have hcarried : TermLookup.Honest s t carried := by
      rintro l rfl hid
      exact hq (t, l) (List.mem_singleton_self _) hid
    obtain ⟨hserves, hc'⟩ := yields_resolve hc hcarried hl
    exact ⟨hP.frequentTerm hserves, hc'⟩
  | .spanOr field qs, _, _, _, hq, hc, h => by
    rw [spanWeight] at h
    obtain ⟨ws, c₁, hws, h⟩ := yields_bind.1 h
    obtain ⟨rfl, rfl⟩ := yields_pure.1 h
    obtain ⟨hall, hc'⟩ := spanWeights_induction hP qs hq hc hws
    exact ⟨hP.union hall, hc'⟩
  | .spanNear field qs slop inOrder, _, _, _, hq, hc, h => by
    rw [spanWeight] at h
    obtain ⟨ws, c₁, hws, h⟩ := yields_bind.1 h
    obtain ⟨rfl, rfl⟩ := yields_pure.1 h
    obtain ⟨hall, hc'⟩ := spanWeights_induction hP qs hq hc hws
    exact ⟨hP.near hall, hc'⟩
  | .withoutPayload q, _, _, _, hq, hc, h => by
    rw [spanWeight] at h
    obtain ⟨w', c₁, hw', h⟩ := yields_bind.1 h
    obtain ⟨rfl, rfl⟩ := yields_pure.1 h
    obtain ⟨hinner, hc'⟩ := spanWeight_induction hP q hq hc hw'
    exact ⟨hP.withoutPayload hinner, hc'⟩
  | .frequentSpan q least, _, _, _, hq, hc, h => by
    rw [spanWeight] at h
    obtain ⟨w', c₁, hw', h⟩ := yields_bind.1 h
    obtain ⟨rfl, rfl⟩ := yields_pure.1 h
    obtain ⟨hinner, hc'⟩ := spanWeight_induction hP q hq hc hw'
    exact ⟨hP.frequentSpan hinner, hc'⟩
  | .spanMultiTerm _, _, _, _, _, _, h => (not_yields_throw h).elim
  | .deferred _ _, _, _, _, _, _, h => (not_yields_throw h).elim
  | .term _, _, _, _, _, _, h => (not_yields_throw h).elim
  | .markedTerm _ _, _, _, _, _, _, h => (not_yields_throw h).elim
  | .frequentTerm _ _ _, _, _, _, _, _, h => (not_yields_throw h).elim
  | .multiTerm _, _, _, _, _, _, h => (not_yields_throw h).elim
  | .boost _ _, _, _, _, _, _, h => (not_yields_throw h).elim
  | .boolean _, _, _, _, _, _, h => (not_yields_throw h).elim
  | .nothing, _, _, _, _, _, h => (not_yields_throw h).elim

/-- A closed property holds of every weight that binding several span queries gives. -/
theorem spanWeights_induction (hP : ClosedSpans s counted P) :
    ∀ (qs : List Query) {c c' : LookupCache} {ws : List SpanWeight},
      (∀ l ∈ Query.carriedByAll qs, l.2.snapshot = s.id → l.2.Faithful s l.1) → c.Sound s →
      Yields (spanWeights s counted qs) c ws c' →
      List.Forall₂ (fun w q => P q w) ws qs ∧ c'.Sound s
  | [], _, _, _, _, hc, h => by
    rw [spanWeights] at h
    obtain ⟨rfl, rfl⟩ := yields_pure.1 h
    exact ⟨.nil, hc⟩
  | q :: qs, _, _, _, hqs, hc, h => by
    rw [spanWeights] at h
    obtain ⟨w, c₁, hw, h⟩ := yields_bind.1 h
    obtain ⟨rest, c₂, hrest, h⟩ := yields_bind.1 h
    obtain ⟨rfl, rfl⟩ := yields_pure.1 h
    rw [Query.carriedByAll] at hqs
    have hboth := List.forall_mem_append.1 hqs
    obtain ⟨hfirst, hc₁⟩ := spanWeight_induction hP q hboth.1 hc hw
    obtain ⟨hothers, hc₂⟩ := spanWeights_induction hP qs hboth.2 hc₁ hrest
    exact ⟨.cons hfirst hothers, hc₂⟩

end

end Induction

/-! ### What is bound -/

theorem bound_term (hs : s.Numbered) (hsound : ∀ g ∈ s.segments, g.Sound) {t : Term}
    {l : TermLookup} (hserves : LookupCache.Serves s t counted l) (q : Query)
    (least : Option Threshold) {result : Query} (hfield : result.spanField? = some t.field)
    (hterms : result.spanTerms = [t])
    (hsource : ∀ g detail, result.spanSource? g detail =
      SpanSource.term? g detail t least.toList) :
    Bound s counted result (.term q t l least) := by
  refine ⟨hfield, hterms.symm, ?_, fun g hg detail opened h => ?_⟩
  · rintro p hp
    obtain rfl := List.mem_singleton.1 hp
    exact hserves
  · rw [hsource]
    exact rel_openTerm hs (hsound g hg) hg hserves.1 least h

/-- What binding several span queries makes of them. -/
structure BoundAll (s : Snapshot) (counted : Bool) (qs : List Query) (ws : List SpanWeight) :
    Prop where
  /-- The terms are those of the queries. -/
  terms : (lookupsAll ws).map (·.1) = Query.spanTermsAll qs
  /-- Every lookup serves its term. -/
  serves : ∀ l ∈ lookupsAll ws, LookupCache.Serves s l.1 counted l.2
  /-- The weights open what the queries come to in every segment. -/
  opens : ∀ g ∈ s.segments, List.Forall₂ (fun w q => w.Opens g q) ws qs

theorem boundAll_of_forall₂ {qs : List Query} {ws : List SpanWeight}
    (h : List.Forall₂ (fun w q => Bound s counted q w) ws qs) : BoundAll s counted qs ws where
  terms := by
    induction h with
    | nil => rfl
    | cons hfirst _ ih => rw [lookupsAll, Query.spanTermsAll, List.map_append, hfirst.terms, ih]
  serves := by
    induction h with
    | nil => simp [lookupsAll]
    | cons hfirst _ ih =>
      rw [lookupsAll]
      exact List.forall_mem_append.2 ⟨hfirst.serves, ih⟩
  opens g hg := h.imp fun _ _ hbound => hbound.opens g hg

theorem closed_bound (hs : s.Numbered) (hsound : ∀ g ∈ s.segments, g.Sound) :
    ClosedSpans s counted (Bound s counted) where
  term hserves := bound_term hs hsound hserves _ none rfl rfl fun _ _ => rfl
  frequentTerm hserves := bound_term hs hsound hserves _ (some _) rfl rfl fun _ _ => rfl
  union hall := by
    have hbound := boundAll_of_forall₂ hall
    exact ⟨rfl, hbound.terms, hbound.serves, fun g hg => opens_union (hbound.opens g hg) _ _⟩
  near hall := by
    have hbound := boundAll_of_forall₂ hall
    exact ⟨rfl, hbound.terms, hbound.serves, fun g hg => opens_near (hbound.opens g hg) _ _ _ _⟩
  withoutPayload hbound := by
    refine ⟨hbound.field, hbound.terms, hbound.serves, fun g hg => ?_⟩
    exact opens_filtered (hbound.opens g hg) _ (fun detail => detail.max .payloads)
      (fun _ => if_pos rfl) fun _ => rfl
  frequentSpan hbound := by
    refine ⟨hbound.field, hbound.terms, hbound.serves, fun g hg => ?_⟩
    exact opens_filtered (hbound.opens g hg) _ (fun detail => detail)
      (fun _ => if_neg (by simp)) fun _ => rfl

/-- Binding a span query leaves the shared lookups sound and gives what the query comes to. -/
theorem bound_of_yields_spanWeight (hs : s.Numbered) (hsound : ∀ g ∈ s.segments, g.Sound)
    (q : Query) {c c' : LookupCache} {w : SpanWeight} (hq : q.Honest s) (hc : c.Sound s)
    (h : Yields (spanWeight s counted q) c w c') : Bound s counted q w ∧ c'.Sound s :=
  spanWeight_induction (closed_bound hs hsound) q hq hc h

end Weighing

end TextSearch
