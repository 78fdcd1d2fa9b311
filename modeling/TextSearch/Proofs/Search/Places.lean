import Mathlib.Data.List.Perm.Basic
import TextSearch.Proofs.Cursor.Listing
import TextSearch.Proofs.Index.Snapshots
import TextSearch.Proofs.Query.Nodes
import TextSearch.Proofs.Query.Satisfaction
import TextSearch.Proofs.Search.Grounding

/-!
# The places that span queries find

In a segment whose documents name no field twice, what a grounded span query lists
in a document are the places that the query has there: `Searcher.listed_perm_places`.
-/

namespace TextSearch

open Trail

/-- No posting list names a document twice. -/
def Segment.NamesOnce (g : Segment) : Prop :=
  ∀ t, (g.postingsOf t).Pairwise fun p q => p.doc < q.doc

namespace SpanSource

/-- What a source lists in a document; nothing if there is no source. -/
def listed (source : Option SpanSource) (d : Nat) : List Span :=
  source.elim [] fun source => source.2.listed d

variable {g : Segment} {detail : Detail}

/-- What the source of a term lists in a document can be read off what the segment says about
the term there. -/
theorem listed_term? (h : g.NamesOnce) (detail : Detail) (t : Term) (gates : List Threshold)
    (d : Nat) : listed (term? g detail t gates) d =
      (((g.view d t).filter (passes gates)).map
        (SpanCursor.postingSpans (detail.max .positions))).getD [] := by
  have hpostings := h t
  have hunder : ∀ o : Option Posting,
      ((o.map (Posting.under 0)).filter (passes gates)).map
          (SpanCursor.postingSpans (detail.max .positions)) =
        (o.filter (passes gates)).map (SpanCursor.postingSpans (detail.max .positions)) := by
    intro o
    cases o with
    | none => rfl
    | some p =>
      have hsame : passes gates (p.under 0) = passes gates p := rfl
      rw [Option.map_some, Option.filter_some, Option.filter_some, hsame]
      split <;> rfl
  rw [Segment.view, hunder, Segment.postingsOf] at *
  rw [term?]
  cases hps : g.postings? t with
  | none => rfl
  | some ps =>
    rw [hps, Option.getD_some] at hpostings
    rw [Option.getD_some, ← at?_gatedVisits hpostings]
    exact listed_choosing (nodup_docs_gatedVisits hpostings gates) _ d

theorem tidy_term? (hsound : g.Sound) (h : g.NamesOnce) {t : Term} {gates : List Threshold}
    {source : SpanSource} (hsource : term? g detail t gates = some source) : source.2.Tidy := by
  obtain ⟨ps, hps, rfl⟩ := Option.map_eq_some_iff.1 hsource
  have hpostings := h t
  rw [Segment.postingsOf, hps, Option.getD_some] at hpostings
  refine tidy_choosing ?_ (nodup_docs_gatedVisits hpostings gates) _
  exact (hsound.trail t ps hps).sublist (List.filter_sublist.map _)

theorem tidy_anyOf {sources : List SpanSource} (h : ∀ source ∈ sources, source.2.Tidy)
    {source : SpanSource} (hsource : anyOf sources = some source) : source.2.Tidy := by
  match sources, h, hsource with
  | [one], h, hsource =>
    cases hsource
    exact h _ (List.mem_cons_self ..)
  | first :: second :: rest, h, hsource =>
    cases hsource
    refine SpanUnion.tidy_merged fun t ht => ?_
    obtain ⟨source, hmem, rfl⟩ := List.mem_map.1 ht
    exact h source hmem

/-- What several sources list together is what each of them lists. -/
theorem listed_anyOf {sources : List SpanSource} (h : ∀ source ∈ sources, source.2.Tidy) (d : Nat) :
    (listed (anyOf sources) d).Perm (sources.flatMap fun source => source.2.listed d) := by
  match sources, h with
  | [], _ => exact .nil
  | [one], _ => rw [List.flatMap_singleton]; exact .refl _
  | first :: second :: rest, h =>
    have hsound : ∀ t ∈ (first :: second :: rest).map (·.2), t.Sound := by
      intro t ht
      obtain ⟨source, hmem, rfl⟩ := List.mem_map.1 ht
      exact (h source hmem).sound
    have hlisted := SpanUnion.listed_merged hsound d
    rw [List.flatMap_map] at hlisted
    exact (List.Perm.of_eq hlisted).trans (Span.sorted_perm _)

theorem listed_filtered {source : SpanSource} (h : source.2.Tidy) (filter : SpanFilter) (d : Nat) :
    (filtered source filter).2.listed d = filter.keep (source.2.listed d) :=
  listed_choosing_keep h.once filter d

end SpanSource

namespace Query

open SpanSource

variable {g : Segment}

theorem spanSources_eq_filterMap (g : Segment) (detail : Detail) (qs : List Query) :
    spanSources g detail qs = qs.filterMap (spanSource? g detail) := by
  induction qs with
  | nil => rfl
  | cons q qs ih =>
    rw [spanSources, List.filterMap_cons, ih]
    cases q.spanSource? g detail <;> rfl

theorem allSpanSources?_eq_some {detail : Detail} {qs : List Query} {sources : List SpanSource}
    (h : allSpanSources? g detail qs = some sources) :
    List.Forall₂ (fun q source => q.spanSource? g detail = some source) qs sources := by
  induction qs generalizing sources with
  | nil =>
    cases h
    exact .nil
  | cons q qs ih =>
    rw [allSpanSources?] at h
    obtain ⟨source, hsource, h⟩ := Option.bind_eq_some_iff.1 h
    obtain ⟨rest, hrest, rfl⟩ := Option.map_eq_some_iff.1 h
    exact .cons hsource (ih hrest)

theorem allSpanSources?_eq_none {detail : Detail} {qs : List Query}
    (h : allSpanSources? g detail qs = none) : ∃ q ∈ qs, q.spanSource? g detail = none := by
  induction qs with
  | nil => cases h
  | cons q qs ih =>
    rw [allSpanSources?] at h
    cases hsource : q.spanSource? g detail with
    | none => exact ⟨q, List.mem_cons_self .., hsource⟩
    | some source =>
      rw [hsource, Option.bind_some, Option.map_eq_none_iff] at h
      obtain ⟨q', hq', hnone⟩ := ih h
      exact ⟨q', List.mem_cons_of_mem _ hq', hnone⟩

mutual

/-- The trails of span queries are tidy over documents that name no field twice. -/
theorem tidy_spanSource? (hsound : g.Sound) (h : g.NamesOnce) :
    ∀ (q : Query) {detail : Detail} {source : SpanSource},
      q.spanSource? g detail = some source → source.2.Tidy
  | .spanTerm t, _, _, hsource => tidy_term? hsound h hsource
  | .frequentSpanTerm t least _, _, _, hsource => tidy_term? hsound h hsource
  | .spanOr _ clauses, _, _, hsource =>
    tidy_anyOf (tidy_spanSources hsound h clauses) hsource
  | .spanNear _ clauses slop inOrder, detail, _, hsource => by
    obtain ⟨sources, hall, rfl⟩ := Option.map_eq_some_iff.1 hsource
    refine SpanProximity.tidy_matched (fun t ht => ?_) slop inOrder
    obtain ⟨source, hmem, rfl⟩ := List.mem_map.1 ht
    have hsources : source ∈ spanSources g detail clauses := by
      rw [spanSources_eq_filterMap, List.mem_filterMap]
      exact exists_mem_of_forall₂ (allSpanSources?_eq_some hall) hmem
    exact (tidy_spanSources hsound h clauses source hsources).toSimple
  | .withoutPayload q, _, _, hsource => by
    obtain ⟨inner, hinner, rfl⟩ := Option.map_eq_some_iff.1 hsource
    have htidy := tidy_spanSource? hsound h q hinner
    exact tidy_choosing htidy.sound htidy.once _
  | .frequentSpan q least, _, _, hsource => by
    obtain ⟨inner, hinner, rfl⟩ := Option.map_eq_some_iff.1 hsource
    have htidy := tidy_spanSource? hsound h q hinner
    exact tidy_choosing htidy.sound htidy.once _
  | .term _, _, _, hsource => by cases hsource
  | .markedTerm _ _, _, _, hsource => by cases hsource
  | .frequentTerm _ _ _, _, _, hsource => by cases hsource
  | .multiTerm _, _, _, hsource => by cases hsource
  | .boost _ _, _, _, hsource => by cases hsource
  | .boolean _, _, _, hsource => by cases hsource
  | .spanMultiTerm _, _, _, hsource => by cases hsource
  | .deferred _ _, _, _, hsource => by cases hsource
  | .nothing, _, _, hsource => by cases hsource

theorem tidy_spanSources (hsound : g.Sound) (h : g.NamesOnce) :
    ∀ (qs : List Query) {detail : Detail}, ∀ source ∈ spanSources g detail qs, source.2.Tidy
  | [], _, _, hsource => by cases hsource
  | q :: qs, detail, source, hsource => by
    rw [spanSources] at hsource
    cases hq : q.spanSource? g detail with
    | none =>
      rw [hq] at hsource
      exact tidy_spanSources hsound h qs source hsource
    | some first =>
      rw [hq] at hsource
      rcases List.mem_cons.1 hsource with rfl | hsource
      · exact tidy_spanSource? hsound h q hq
      · exact tidy_spanSources hsound h qs source hsource

end

/-- What a union lists in a document is what its operands list there. -/
theorem listed_spanOr (hsound : g.Sound) (h : g.NamesOnce) (field : String) (qs : List Query)
    (detail : Detail) (d : Nat) :
    (listed ((spanOr field qs).spanSource? g detail) d).Perm
      (qs.flatMap fun q => listed (q.spanSource? g detail) d) := by
  have hflat : (spanSources g detail qs).flatMap (fun source => source.2.listed d) =
      qs.flatMap fun q => listed (q.spanSource? g detail) d := by
    rw [spanSources_eq_filterMap]
    induction qs with
    | nil => rfl
    | cons q qs ih =>
      rw [List.filterMap_cons, List.flatMap_cons, ← ih]
      cases q.spanSource? g detail <;> rfl
  rw [spanSource?, ← hflat]
  exact listed_anyOf (tidy_spanSources hsound h qs) d

/-- What a proximity lists in a document are the matches of what its operands list there. -/
theorem listed_spanNear (hsound : g.Sound) (h : g.NamesOnce) (field : String) (qs : List Query)
    (slop : UInt32) (inOrder : Bool) (detail : Detail) (d : Nat) :
    listed ((spanNear field qs slop inOrder).spanSource? g detail) d =
      Span.near slop inOrder (qs.map fun q => listed (q.spanSource? g detail) d) := by
  rw [spanSource?]
  cases hall : allSpanSources? g detail qs with
  | none =>
    obtain ⟨q, hq, hnone⟩ := allSpanSources?_eq_none hall
    have hmem : [] ∈ qs.map fun q => listed (q.spanSource? g detail) d :=
      List.mem_map.2 ⟨q, hq, by rw [hnone]; rfl⟩
    rw [SpanProximity.near_of_nil_mem hmem]
    rfl
  | some sources =>
    have hforall := allSpanSources?_eq_some hall
    have hsimple : ∀ t ∈ sources.map (·.2), t.Simple := by
      intro t ht
      obtain ⟨source, hmem, rfl⟩ := List.mem_map.1 ht
      obtain ⟨q, -, hsource⟩ := exists_mem_of_forall₂ hforall hmem
      exact (tidy_spanSource? hsound h q hsource).toSimple
    have hsame : (sources.map (·.2)).map (Trail.listed d) =
        qs.map fun q => listed (q.spanSource? g detail) d := by
      clear hall hsimple
      induction hforall with
      | nil => rfl
      | cons hsource _ ih => rw [List.map_cons, List.map_cons, List.map_cons, ih, hsource]; rfl
    rw [← hsame]
    exact SpanProximity.listed_matched hsimple slop inOrder d

/-- What a filter lists in a document is what it keeps of the places there. -/
theorem listed_filtered {q : Query} (hsound : g.Sound) (h : g.NamesOnce) (filter : SpanFilter)
    (detail : Detail) (d : Nat) :
    listed ((q.spanSource? g detail).map (SpanSource.filtered · filter)) d =
      filter.keep (listed (q.spanSource? g detail) d) := by
  cases hsource : q.spanSource? g detail with
  | none => cases filter <;> simp [SpanSource.listed, SpanFilter.keep]
  | some source => exact SpanSource.listed_filtered (tidy_spanSource? hsound h q hsource) filter d

end Query

/-- A segment of a snapshot has a document under a number. -/
structure Snapshot.HasDocument (s : Snapshot) (declared : Dictionary IndexOptions) (g : Segment)
    (i : Nat) (doc : Document) : Prop where
  /-- The posting lists of the segment can be walked. -/
  sound : g.Sound
  /-- No posting list names a document twice. -/
  once : g.NamesOnce
  /-- The segment says about the document what it says itself. -/
  view : ∀ t, g.view i t = doc.posting? declared t
  /-- The texts of the document are selected with those of the snapshot. -/
  select : ∀ m text, m.selects text = true → text ∈ doc.texts m.field → text ∈ (s.select m).keys

theorem Document.hasText_of_mem_texts {doc : Document} {field text : String}
    (h : text ∈ doc.texts field) : doc.HasText field text := by
  obtain ⟨t, ht, htext⟩ := List.mem_map.1 (List.mem_dedup.1 h)
  cases hlookup : doc.lookup field with
  | none => rw [Document.tokens, hlookup] at ht; cases ht
  | some tokens =>
    rw [Document.tokens, hlookup, Option.getD_some] at ht
    refine ⟨tokens, List.mem_map.2 ⟨(field, tokens), List.mem_filter.2 ⟨?_, ?_⟩, rfl⟩, t, ht, htext⟩
    · obtain ⟨before, after, hdoc, -⟩ := List.lookup_eq_some_iff.1 hlookup
      rw [hdoc]
      exact List.mem_append_right _ (List.mem_cons_self ..)
    · cases tokens with
      | nil => cases ht
      | cons _ _ => simp

/-- A snapshot has the documents that it holds. -/
theorem Snapshot.Holds.hasDocument {declared : Dictionary IndexOptions}
    {parts : List (List Document)} {s : Snapshot} (h : s.Holds declared parts)
    (hcount : parts.flatten.length ≤ endOfDocs) (honce : ∀ doc ∈ parts.flatten, doc.NamesOnce)
    {g : Segment} (hg : g ∈ s.segments) {docs : List Document} (hdocs : docs ∈ parts)
    (hholds : g.Holds declared docs) {i : Nat} {doc : Document} (hdoc : docs[i]? = some doc) :
    s.HasDocument declared g i doc := by
  have hnames : ∀ doc ∈ docs, doc.NamesOnce := fun doc hmem =>
    honce doc (List.mem_flatten.2 ⟨docs, hdocs, hmem⟩)
  refine ⟨h.sound hcount g hg, hholds.pairwise_postingsOf hnames, fun t => ?_, ?_⟩
  · rw [hholds.view hnames, hdoc]
    rfl
  · intro m text hselects htext
    have hmem := List.mem_flatten.2 ⟨docs, hdocs, List.mem_of_getElem? hdoc⟩
    exact h.mem_select.2 ⟨hselects, doc, hmem, Document.hasText_of_mem_texts htext⟩

namespace Searcher

open SpanSource

variable {s : Searcher} {declared : Dictionary IndexOptions} {g : Segment} {i : Nat}
  {doc : Document}

/-- Where a function gives anything for the members of one list only that are members of another
one, and the other way round, it gives the same for both. -/
theorem flatMap_perm_of_mem_iff {α β : Type} [DecidableEq α] {f : α → List β} {as bs : List α}
    (has : as.Nodup) (hbs : bs.Nodup) (h : ∀ a, f a ≠ [] → (a ∈ as ↔ a ∈ bs)) :
    (as.flatMap f).Perm (bs.flatMap f) := by
  have hfilter : ∀ as : List α, (as.filter fun a => !(f a).isEmpty).flatMap f = as.flatMap f := by
    intro as
    induction as with
    | nil => rfl
    | cons a as ih =>
      rw [List.filter_cons]
      cases hf : f a with
      | nil => simpa [hf] using ih
      | cons b bs => simpa [hf] using ih
  rw [← hfilter as, ← hfilter bs]
  refine List.Perm.flatMap_right f
    ((List.perm_ext_iff_of_nodup (has.filter _) (hbs.filter _)).2 fun a => ?_)
  rw [List.mem_filter, List.mem_filter]
  constructor
  · rintro ⟨ha, hne⟩
    exact ⟨(h a (by simpa using hne)).1 ha, hne⟩
  · rintro ⟨ha, hne⟩
    exact ⟨(h a (by simpa using hne)).2 ha, hne⟩

theorem listed_term?_perm (h : s.snapshot.HasDocument declared g i doc) (detail : Detail)
    (t : Term) (least : Option Threshold) :
    (listed (term? g detail t least.toList) i).Perm
      (doc.termPlaces declared detail.hasPayloads least t) := by
  have hpayloads : (detail.max .positions).hasPayloads = detail.hasPayloads := by
    cases detail <;> rfl
  rw [listed_term? h.once, h.view, ← hpayloads]
  exact doc.postingSpans_perm_termPlaces declared _ least t

theorem spanSource?_selectedSpanTerm (g : Segment) (detail : Detail) (m : MultiTerm) (t : Term) :
    (selectedSpanTerm m t).spanSource? g detail = term? g detail t m.least.toList := by
  rw [selectedSpanTerm]
  cases m.least <;> rfl

/-- The selected terms list in a document the places of those that it has. -/
theorem listed_selection_perm (h : s.snapshot.HasDocument declared g i doc) (detail : Detail)
    (m : MultiTerm) :
    (listed ((Query.spanOr m.field (((s.snapshot.select m).keys.map fun x => ⟨m.field, x⟩).map
      (selectedSpanTerm m))).spanSource? g detail) i).Perm
        ((Query.spanMultiTerm m).places declared doc detail.hasPayloads) := by
  refine (Query.listed_spanOr h.sound h.once ..).trans ?_
  rw [List.flatMap_map, List.flatMap_map]
  have hplaces : ((s.snapshot.select m).keys.flatMap fun x =>
      listed ((selectedSpanTerm m ⟨m.field, x⟩).spanSource? g detail) i).Perm
        ((s.snapshot.select m).keys.flatMap fun x =>
          doc.termPlaces declared detail.hasPayloads m.least ⟨m.field, x⟩) := by
    refine List.Perm.flatMap_left _ fun x _ => ?_
    rw [spanSource?_selectedSpanTerm]
    exact listed_term?_perm h detail _ m.least
  refine hplaces.trans ?_
  refine flatMap_perm_of_mem_iff (Dictionary.nodup_keys _) ((List.nodup_dedup _).filter _)
    fun x hx => ?_
  have htexts := Document.mem_texts_of_termPlaces hx
  rw [List.mem_filter]
  constructor
  · intro hkeys
    exact ⟨htexts, (Snapshot.mem_keys_select.1 hkeys).1⟩
  · rintro ⟨_, hselects⟩
    exact h.select m x hselects htexts

mutual

/-- A grounded span query lists in a document the places that the query has there. -/
theorem listed_perm_places (h : s.snapshot.HasDocument declared g i doc) :
    ∀ (q : Query) {r : Query} (detail : Detail), q.defersNothing = true → s.Grounds q r →
      (listed (r.spanSource? g detail) i).Perm (q.places declared doc detail.hasPayloads)
  | .spanTerm t, r, detail, _, hr => by
    rw [hr.eq_of_done rfl]
    exact listed_term?_perm h detail t none
  | .frequentSpanTerm t least _, r, detail, _, hr => by
    rw [hr.eq_of_done rfl]
    exact listed_term?_perm h detail t (some least)
  | .spanMultiTerm m, r, detail, _, hr => by
    obtain ⟨ts, hts, rfl⟩ := hr.spanMultiTerm
    rw [expand_eq_ok hts]
    exact listed_selection_perm h detail m
  | .spanOr field qs, r, detail, hq, hr => by
    obtain ⟨rs, rfl, hrs⟩ := hr.spanOr
    have hall := forall₂_listed_perm_places h qs detail hq hrs
    refine (Query.listed_spanOr h.sound h.once field rs detail i).trans ?_
    exact perm_flatten_of_forall₂ hall
  | .spanNear field qs slop inOrder, r, detail, hq, hr => by
    obtain ⟨rs, ⟨field', rfl⟩, hrs⟩ := hr.spanNear
    have hall := forall₂_listed_perm_places h qs detail hq hrs
    rw [Query.listed_spanNear h.sound h.once]
    exact Span.near_perm hall
  | .withoutPayload q, r, detail, hq, hr => by
    obtain ⟨r', rfl, hr'⟩ := hr.withoutPayload
    have hinner := listed_perm_places h q (detail.max .payloads) hq hr'
    have hpayloads : (detail.max .payloads).hasPayloads = true := by cases detail <;> rfl
    rw [hpayloads] at hinner
    rw [Query.spanSource?, Query.listed_filtered h.sound h.once]
    exact hinner.filter _
  | .frequentSpan q least, r, detail, hq, hr => by
    obtain ⟨r', rfl, hr'⟩ := hr.frequentSpan
    have hinner := listed_perm_places h q detail hq hr'
    rw [Query.spanSource?, Query.listed_filtered h.sound h.once, Query.places, SpanFilter.keep]
    simp only [hinner.length_eq]
    split
    · exact hinner
    · exact .nil
  | .term _, r, _, _, hr => by
    rw [hr.eq_of_done rfl]
    exact .nil
  | .markedTerm _ _, r, _, _, hr => by
    rw [hr.eq_of_done rfl]
    exact .nil
  | .frequentTerm _ _ _, r, _, _, hr => by
    rw [hr.eq_of_done rfl]
    exact .nil
  | .nothing, r, _, _, hr => by
    rw [hr.eq_of_done rfl]
    exact .nil
  | .multiTerm m, r, _, _, hr => by
    obtain ⟨ts, -, rfl⟩ := hr.multiTerm
    rw [expansion]
    split <;> exact .nil
  | .boost _ _, r, _, _, hr => by
    obtain ⟨r', rfl, -⟩ := hr.boost
    exact .nil
  | .boolean _, r, _, _, hr => by
    obtain ⟨rs, rfl, -⟩ := hr.boolean
    exact .nil
  | .deferred _ _, _, _, hq, _ => by cases hq

/-- Grounded span queries list in a document the places that each of the queries has there. -/
theorem forall₂_listed_perm_places (h : s.snapshot.HasDocument declared g i doc) :
    ∀ (qs : List Query) {rs : List Query} (detail : Detail), Query.allDeferNothing qs = true →
      s.GroundsAll qs rs → List.Forall₂ List.Perm
        (rs.map fun r => listed (r.spanSource? g detail) i)
        (Query.placesAll declared doc detail.hasPayloads qs)
  | [], _, _, _, hrs => by
    cases hrs
    exact .nil
  | q :: qs, _, detail, hqs, hrs => by
    rw [Query.allDeferNothing, Bool.and_eq_true] at hqs
    cases hrs with
    | cons hr hrest =>
      exact .cons (listed_perm_places h q detail hqs.1 hr)
        (forall₂_listed_perm_places h qs detail hqs.2 hrest)

end

end Searcher

end TextSearch
