import TextSearch.Proofs.Score.Exact
import TextSearch.Proofs.Search.Matching
import TextSearch.Proofs.Search.Succeeding

/-!
# The answers to searches

A search over an index answers with the documents that satisfy its query. For one
segment this is `Searcher.docsOf_trail?`; the index may have been built in any order
of additions and closings, and `Searcher.finds_satisfying` speaks of the whole.
-/

namespace TextSearch

open SpanSource

namespace Searcher

variable {s : Searcher} {declared : Dictionary IndexOptions} {g : Segment} {i : Nat}
  {doc : Document}

theorem any_eq_any_find? {ps : List Posting} (h : ps.Pairwise fun p q => p.doc < q.doc) (d : Nat)
    (f : Posting → Bool) :
    (ps.any fun p => p.doc == d && f p) = (ps.find? fun p => p.doc == d).any f := by
  induction ps with
  | nil => rfl
  | cons p ps ih =>
    obtain ⟨hp, hps⟩ := List.pairwise_cons.1 h
    rw [List.any_cons, List.find?_cons, ih hps]
    by_cases hd : p.doc = d
    · have hnone := Trail.find?_eq_none_of_lt fun q hq => hd ▸ hp q hq
      simp [hd, hnone]
    · simp [beq_eq_false_iff_ne.2 hd]

/-- A posting list has a document that reaches a minimum if the document says so. -/
theorem any_postingsOf (h : s.snapshot.HasDocument declared g i doc) (t : Term)
    (least : Option Threshold) :
    ((g.postingsOf t).any fun p => p.doc == i && passes least.toList p) =
      doc.reaches declared least t := by
  have hunder : ∀ o : Option Posting, (o.map (Posting.under 0)).any (passes least.toList) =
      o.any (passes least.toList) := by
    intro o
    cases o <;> rfl
  rw [any_eq_any_find? (h.once t), ← hunder, ← Document.any_passes_posting?, ← h.view]
  rfl

theorem shows_selectedTerm (h : s.snapshot.HasDocument declared g i doc) (m : MultiTerm)
    (t : Term) : (selectedTerm m t).shows g i = doc.reaches declared m.least t := by
  rw [← any_postingsOf h, selectedTerm]
  cases m.least <;> simp [Query.shows, passes]

/-- A selection matches a document if a selected term that it has reaches the minimum. -/
theorem shows_selection (h : s.snapshot.HasDocument declared g i doc) (m : MultiTerm) :
    (expansion m ((s.snapshot.select m).keys.map fun x => ⟨m.field, x⟩)).shows g i =
      (Query.multiTerm m).satisfiedBy declared doc := by
  rw [shows_expansion, List.any_map, Query.satisfiedBy, Bool.eq_iff_iff, List.any_eq_true,
    List.any_eq_true]
  constructor
  · rintro ⟨x, hx, hshows⟩
    have hreaches : doc.reaches declared m.least ⟨m.field, x⟩ = true := by
      rw [← shows_selectedTerm h]
      exact hshows
    have hoccurs : doc.occurrences declared ⟨m.field, x⟩ ≠ [] := by
      intro hnil
      rw [Document.reaches, hnil] at hreaches
      cases hreaches
    exact ⟨x, Document.mem_texts.2 hoccurs,
      Bool.and_eq_true_iff.2 ⟨(Snapshot.mem_keys_select.1 hx).1, hreaches⟩⟩
  · rintro ⟨x, hx, hboth⟩
    obtain ⟨hselects, hreaches⟩ := Bool.and_eq_true_iff.1 hboth
    refine ⟨x, h.select m x hselects hx, ?_⟩
    rw [← shows_selectedTerm h] at hreaches
    exact hreaches

/-- A grounded span query matches a document in which the query has a place. -/
theorem shows_spans (h : s.snapshot.HasDocument declared g i doc) {q r : Query}
    (hq : q.defersNothing = true) (hr : s.Grounds q r)
    (hshows : r.shows g i = ((r.spanSource? g .positions).elim [] (·.2.docs)).contains i)
    (hsatisfied : q.satisfiedBy declared doc = !(q.places declared doc false).isEmpty) :
    r.shows g i = q.satisfiedBy declared doc := by
  have hperm := listed_perm_places h q .positions hq hr
  have hplaces : (q.places declared doc false).isEmpty =
      (listed (r.spanSource? g .positions) i).isEmpty := by
    rw [Bool.eq_iff_iff, List.isEmpty_iff, List.isEmpty_iff, ← List.length_eq_zero_iff,
      ← List.length_eq_zero_iff, hperm.length_eq]
    exact Iff.rfl
  rw [hshows, hsatisfied, hplaces]
  cases hsource : r.spanSource? g .positions with
  | none => rfl
  | some source =>
    have hdocs := (Query.tidy_spanSource? h.sound h.once r hsource).mem_docs_iff (d := i)
    rw [Bool.eq_iff_iff, Option.elim_some, List.contains_iff_mem, hdocs]
    simp [listed]

mutual

/-- A grounded query matches a document of a segment if the document satisfies the query. -/
theorem shows_eq_satisfiedBy (h : s.snapshot.HasDocument declared g i doc) :
    ∀ (q : Query) {r : Query}, q.defersNothing = true → s.Grounds q r →
      r.shows g i = q.satisfiedBy declared doc
  | .term t, r, _, hr => by
    rw [hr.eq_of_done rfl, Query.satisfiedBy, ← any_postingsOf h]
    simp [Query.shows, passes]
  | .markedTerm t _, r, _, hr => by
    rw [hr.eq_of_done rfl, Query.satisfiedBy, ← any_postingsOf h]
    simp [Query.shows, passes]
  | .frequentTerm t least _, r, _, hr => by
    rw [hr.eq_of_done rfl, Query.satisfiedBy, ← any_postingsOf h]
    simp [Query.shows, passes]
  | .multiTerm m, r, _, hr => by
    obtain ⟨ts, hts, rfl⟩ := hr.multiTerm
    rw [expand_eq_ok hts]
    exact shows_selection h m
  | .boost q _, r, hq, hr => by
    obtain ⟨r', rfl, hr'⟩ := hr.boost
    rw [Query.shows, Query.satisfiedBy]
    exact shows_eq_satisfiedBy h q hq hr'
  | .boolean clauses, r, hq, hr => by
    obtain ⟨rs, rfl, hrs⟩ := hr.boolean
    exact congrArg Occur.admits (clausesShow_eq_clausesSatisfiedBy h clauses hq hrs)
  | .nothing, r, _, hr => by
    rw [hr.eq_of_done rfl]
    rfl
  | .spanTerm _, r, hq, hr => by
    refine shows_spans h hq hr ?_ rfl
    rw [hr.eq_of_done rfl]
    rfl
  | .frequentSpanTerm _ _ _, r, hq, hr => by
    refine shows_spans h hq hr ?_ rfl
    rw [hr.eq_of_done rfl]
    rfl
  | .spanMultiTerm _, r, hq, hr => by
    refine shows_spans h hq hr ?_ rfl
    obtain ⟨_, -, rfl⟩ := hr.spanMultiTerm
    rfl
  | .spanOr _ _, r, hq, hr => by
    refine shows_spans h hq hr ?_ rfl
    obtain ⟨_, rfl, -⟩ := hr.spanOr
    rfl
  | .spanNear _ _ _ _, r, hq, hr => by
    refine shows_spans h hq hr ?_ rfl
    obtain ⟨_, ⟨_, rfl⟩, -⟩ := hr.spanNear
    rfl
  | .withoutPayload _, r, hq, hr => by
    refine shows_spans h hq hr ?_ rfl
    obtain ⟨_, rfl, -⟩ := hr.withoutPayload
    rfl
  | .frequentSpan _ _, r, hq, hr => by
    refine shows_spans h hq hr ?_ rfl
    obtain ⟨_, rfl, -⟩ := hr.frequentSpan
    rfl
  | .deferred _ _, _, hq, _ => by cases hq

/-- Grounded clauses match a document of a segment if the document satisfies them. -/
theorem clausesShow_eq_clausesSatisfiedBy (h : s.snapshot.HasDocument declared g i doc) :
    ∀ (clauses : List (Occur × Query)) {rs : List (Occur × Query)},
      Query.clausesDeferNothing clauses = true → s.GroundsClauses clauses rs →
        Query.clausesShow g i rs = Query.clausesSatisfiedBy declared doc clauses
  | [], _, _, hrs => by
    cases hrs
    rfl
  | (o, q) :: clauses, _, hclauses, hrs => by
    rw [Query.clausesDeferNothing, Bool.and_eq_true] at hclauses
    cases hrs with
    | @cons _ c' _ rs hc hrest =>
      obtain ⟨o', r⟩ := c'
      obtain ⟨rfl, hr⟩ := hc
      rw [Query.clausesShow, Query.clausesSatisfiedBy, shows_eq_satisfiedBy h q hclauses.1 hr,
        clausesShow_eq_clausesSatisfiedBy h clauses hclauses.2 hrest]

end

end Searcher

/-! ### Documents without tokens -/

namespace Query

theorem combinations_of_all_nil {slop : UInt32} {inOrder : Bool} {clauses : List (List Span)}
    (h : ∀ ss ∈ clauses, ss = []) : Span.combinations slop inOrder clauses = [] := by
  refine List.eq_nil_iff_forall_not_mem.2 fun s hs => ?_
  obtain ⟨pick, hpick, -, hcombine⟩ := Span.mem_combinations.1 hs
  cases hpick with
  | nil => cases hcombine
  | cons hmem =>
    rw [h _ (List.mem_cons_self ..)] at hmem
    cases hmem

mutual

/-- A document without fields has no places. -/
theorem places_nil (declared : Dictionary IndexOptions) :
    ∀ (q : Query) (payloads : Bool), q.places declared [] payloads = []
  | .spanTerm t, payloads => by
    rw [places, Document.termPlaces]
    split <;> rfl
  | .frequentSpanTerm t least _, payloads => by
    rw [places, Document.termPlaces]
    split <;> rfl
  | .spanMultiTerm m, payloads => rfl
  | .spanOr _ clauses, payloads => by
    rw [places, List.flatten_eq_nil_iff]
    exact placesAll_nil declared clauses payloads
  | .spanNear _ clauses slop inOrder, payloads => by
    rw [places]
    exact combinations_of_all_nil (placesAll_nil declared clauses payloads)
  | .withoutPayload q, payloads => by rw [places, places_nil declared q]; rfl
  | .frequentSpan q least, payloads => by
    rw [places, places_nil declared q]
    exact if_neg (Nat.not_le.2 least.positive)
  | .term _, _ => rfl
  | .markedTerm _ _, _ => rfl
  | .frequentTerm _ _ _, _ => rfl
  | .multiTerm _, _ => rfl
  | .boost _ _, _ => rfl
  | .boolean _, _ => rfl
  | .deferred _ _, _ => rfl
  | .nothing, _ => rfl

theorem placesAll_nil (declared : Dictionary IndexOptions) :
    ∀ (qs : List Query) (payloads : Bool), ∀ ss ∈ placesAll declared [] payloads qs, ss = []
  | [], _, _, hss => by cases hss
  | q :: qs, payloads, ss, hss => by
    rcases List.mem_cons.1 hss with rfl | hss
    · exact places_nil declared q payloads
    · exact placesAll_nil declared qs payloads ss hss

end

theorem not_admits_of_not_satisfied {clauses : List (Occur × Bool)}
    (h : ∀ c ∈ clauses, c.2 = false) : Occur.admits clauses = false := by
  rw [Occur.admits, Bool.eq_false_iff]
  intro hadmits
  obtain ⟨hallows, hbacks⟩ := Bool.and_eq_true_iff.1 hadmits
  obtain ⟨⟨o, satisfied⟩, hmem, hback⟩ := List.any_eq_true.1 hbacks
  have hallow := List.all_eq_true.1 hallows _ hmem
  cases h _ hmem
  cases o <;> cases hback
  cases hallow

theorem spans_nil {declared : Dictionary IndexOptions} {q : Query}
    (h : q.satisfiedBy declared [] = !(q.places declared [] false).isEmpty) :
    q.satisfiedBy declared [] = false := by
  rw [h, places_nil]
  rfl

mutual

/-- A document without fields satisfies no query. -/
theorem satisfiedBy_nil (declared : Dictionary IndexOptions) :
    ∀ q : Query, q.satisfiedBy declared [] = false
  | .term _ => rfl
  | .markedTerm _ _ => rfl
  | .frequentTerm _ _ _ => rfl
  | .multiTerm _ => rfl
  | .boost q _ => satisfiedBy_nil declared q
  | .boolean clauses => not_admits_of_not_satisfied (clausesSatisfiedBy_nil declared clauses)
  | .nothing => rfl
  | .spanTerm _ => spans_nil rfl
  | .frequentSpanTerm _ _ _ => spans_nil rfl
  | .spanMultiTerm _ => spans_nil rfl
  | .spanOr _ _ => spans_nil rfl
  | .spanNear _ _ _ _ => spans_nil rfl
  | .withoutPayload _ => spans_nil rfl
  | .frequentSpan _ _ => spans_nil rfl
  | .deferred _ _ => rfl

theorem clausesSatisfiedBy_nil (declared : Dictionary IndexOptions) :
    ∀ clauses : List (Occur × Query), ∀ c ∈ clausesSatisfiedBy declared [] clauses, c.2 = false
  | [], _, hc => by cases hc
  | (_, q) :: clauses, c, hc => by
    rcases List.mem_cons.1 hc with rfl | hc
    · exact satisfiedBy_nil declared q
    · exact clausesSatisfiedBy_nil declared clauses c hc

end

end Query

/-! ### Segments and snapshots -/

/-- Numbers in ascending order are known from their members. -/
theorem eq_of_pairwise_lt {l m : List Nat} (hl : l.Pairwise (· < ·)) (hm : m.Pairwise (· < ·))
    (h : ∀ n, n ∈ l ↔ n ∈ m) : l = m := by
  have hnodup : ∀ {l : List Nat}, l.Pairwise (· < ·) → l.Nodup := fun hl => hl.imp Nat.ne_of_lt
  refine List.Perm.eq_of_pairwise (fun a b _ _ hab hba => ?_) hl hm
    ((List.perm_ext_iff_of_nodup (hnodup hl) (hnodup hm)).2 h)
  exact absurd hab (Nat.lt_asymm hba)

namespace Searcher

variable {R : Type} [ScoreNumber R] {s : Searcher} {declared : Dictionary IndexOptions}
  {parts : List (List Document)}

/-- The documents of a segment that a grounded query matches are those that satisfy the query. -/
theorem docsOf_trail? (h : s.snapshot.Holds declared parts)
    (hcount : parts.flatten.length ≤ endOfDocs) (honce : ∀ doc ∈ parts.flatten, doc.NamesOnce)
    {q r : Query} (hq : q.defersNothing = true) (hr : s.Grounds q r) {g : Segment}
    (hg : g ∈ s.snapshot.segments) {docs : List Document} (hdocs : docs ∈ parts)
    (hholds : g.Holds declared docs) (scored : Bool) (b : R) :
    docsOf (r.trail? s.snapshot g scored b) =
      idsWhere (fun doc => q.satisfiedBy declared doc) 0 docs := by
  have hsound := h.sound hcount g hg
  have hnames : g.NamesOnce := hholds.pairwise_postingsOf fun doc hmem =>
    honce doc (List.mem_flatten.2 ⟨docs, hdocs, hmem⟩)
  refine eq_of_pairwise_lt ?_ (pairwise_idsWhere ..) fun i => ?_
  · cases htrail : r.trail? s.snapshot g scored b with
    | none => exact .nil
    | some t => exact (Query.simple_trail? hsound hnames s.snapshot r htrail).pairwise_docs
  · rw [Query.mem_docs_trail?, mem_idsWhere]
    cases hdoc : docs[i]? with
    | some doc =>
      rw [shows_eq_satisfiedBy (h.hasDocument hcount honce hg hdocs hholds hdoc) q hq hr]
      simp
    | none =>
      -- a number that no document has is as good as that of a document without fields
      have hempty : s.snapshot.HasDocument declared g i [] := by
        refine ⟨hsound, hnames, fun t => ?_, fun m text _ htext => ?_⟩
        · rw [hholds.view (fun doc hmem => honce doc (List.mem_flatten.2 ⟨docs, hdocs, hmem⟩)),
            hdoc]
          rfl
        · cases htext
      rw [shows_eq_satisfiedBy hempty q hq hr, Query.satisfiedBy_nil]
      simp

theorem segmentDocs_eq (h : s.snapshot.Holds declared parts)
    (hcount : parts.flatten.length ≤ endOfDocs) (honce : ∀ doc ∈ parts.flatten, doc.NamesOnce)
    {q r : Query} (hq : q.defersNothing = true) (hr : s.Grounds q r) {g : Segment}
    (hg : g ∈ s.snapshot.segments) {docs : List Document} (hdocs : docs ∈ parts)
    (hholds : g.Holds declared docs) :
    r.segmentDocs R s.snapshot g =
      idsWhere (fun doc => q.satisfiedBy declared doc) g.docBase docs := by
  have htrail := docsOf_trail? h hcount honce hq hr hg hdocs hholds true (ScoreNumber.one : R)
  rw [idsWhere_eq_map, ← htrail, Query.segmentDocs, Query.segmentHits]
  cases r.trail? s.snapshot g true (ScoreNumber.one : R) with
  | none => rfl
  | some t =>
    rw [Option.elim_some, docsOf, Option.elim_some, Trail.docs, List.map_map, List.map_map]
    rfl

/-- The hits of all segments are the documents that satisfy the query. -/
theorem docs_flatten_segmentHits (h : s.snapshot.Holds declared parts)
    (hcount : parts.flatten.length ≤ endOfDocs) (honce : ∀ doc ∈ parts.flatten, doc.NamesOnce)
    {q r : Query} (hq : q.defersNothing = true) (hr : s.Grounds q r) :
    (s.snapshot.segments.map (r.segmentHits (R := R) s.snapshot)).flatten.map (·.doc) =
      idsWhere (fun doc => q.satisfiedBy declared doc) 0 parts.flatten := by
  rw [← SegmentsHold.flatMap_eq h (fun _ => rfl) (idsWhere_append _) fun g hg docs hdocs hholds =>
    segmentDocs_eq (R := R) h hcount honce hq hr hg hdocs hholds, List.map_flatten, List.map_map]
  rfl

/-- A search answers with the documents that satisfy the query: it counts them, and lists each of
them once if as many may be listed. -/
theorem answers_of_holds (h : s.snapshot.Holds declared parts)
    (hcount : parts.flatten.length ≤ endOfDocs) (honce : ∀ doc ∈ parts.flatten, doc.NamesOnce)
    {q : Query} (hq : q.defersNothing = true) (hhonest : q.Honest s.snapshot) {c c' : LookupCache}
    (hc : c.Sound s.snapshot) {size : Nat} {top : TopDocs R}
    (hsearch : Weighing.Yields (s.search size q) c top c') :
    top.totalHits = (idsWhere (fun doc => q.satisfiedBy declared doc) 0 parts.flatten).length ∧
      (top.totalHits ≤ size → (top.hits.map (·.doc)).Perm
        (idsWhere (fun doc => q.satisfiedBy declared doc) 0 parts.flatten)) := by
  obtain ⟨r, hground, hrest⟩ := topDocs_of_yields_search h.numbered (h.sound hcount) hc hsearch
  have hr := grounds_of_grounded hground
  obtain ⟨rfl, -⟩ := hrest (hr.honest hhonest)
  have hdocs := docs_flatten_segmentHits (R := R) h hcount honce hq hr
  have hlength : (s.snapshot.segments.map (r.segmentHits (R := R) s.snapshot)).flatten.length =
      (idsWhere (fun doc => q.satisfiedBy declared doc) 0 parts.flatten).length := by
    rw [← hdocs, List.length_map]
  have hseen := TopHits.seen_ofParts size (s.snapshot.segments.map (r.segmentHits (R := R) s.snapshot))
  refine ⟨hseen.trans hlength, fun hsize => ?_⟩
  rw [← hdocs]
  exact (TopHits.kept_ofParts_perm (hseen ▸ hsize)).map _

/-- A query that grounds to one that asks for places only where they are stored is answered. -/
theorem exists_answers (h : s.snapshot.Holds declared parts)
    (hcount : parts.flatten.length ≤ endOfDocs) (honce : ∀ doc ∈ parts.flatten, doc.NamesOnce)
    {q : Query} (hq : q.defersNothing = true) (hhonest : q.Honest s.snapshot)
    (hruns : (s.grounded q).toOption.any
      (·.runs fun field => (declaredOptions declared field).hasPositions) = true)
    {c : LookupCache} (hc : c.Sound s.snapshot) (size : Nat) :
    ∃ (top : TopDocs R) (c' : LookupCache), Weighing.Yields (s.search size q) c top c' ∧
      top.totalHits = (idsWhere (fun doc => q.satisfiedBy declared doc) 0 parts.flatten).length ∧
        (top.totalHits ≤ size → (top.hits.map (·.doc)).Perm
          (idsWhere (fun doc => q.satisfiedBy declared doc) 0 parts.flatten)) := by
  cases hground : s.grounded q with
  | error e =>
    rw [hground] at hruns
    cases hruns
  | ok r =>
    rw [hground] at hruns
    obtain ⟨top, c', hsearch⟩ := exists_yields_search (R := R) h.numbered (h.sound hcount)
      h.positioned hground hruns ((grounds_of_grounded hground).honest hhonest) hc size
    exact ⟨top, c', hsearch, answers_of_holds h hcount honce hq hhonest hc hsearch⟩

open IndexBuilder (accepted)

/-- A search that is carried out over an index lists the documents that satisfy the query. -/
theorem exists_search_perm (fields : List (String × IndexOptions)) (steps : List BuilderStep)
    (id : Nat) (settings : Settings)
    (hcount : (accepted (.ofList fields) steps).length ≤ endOfDocs)
    (honce : ∀ doc ∈ accepted (.ofList fields) steps, doc.NamesOnce)
    {q : Query} (hq : q.defersNothing = true) (hhonest : q.Honest (.ofSteps fields steps id))
    (hruns : (grounded ⟨.ofSteps fields steps id, settings⟩ q).toOption.any
      (·.runs fun field => (declaredOptions (.ofList fields) field).hasPositions) = true)
    (docs : List Nat) (hdocs : idsWhere (fun doc => q.satisfiedBy (.ofList fields) doc) 0
      (accepted (.ofList fields) steps) = docs) (size : Nat) (hsize : docs.length ≤ size) :
    ∃ (top : TopDocs R) (c' : LookupCache),
      Weighing.Yields (search ⟨.ofSteps fields steps id, settings⟩ size q) .empty top c' ∧
        top.totalHits = docs.length ∧ (top.hits.map (·.doc)).Perm docs := by
  have hholds := IndexBuilder.holds_build fields steps id
  rw [← IndexBuilder.flatten_ofSteps] at hcount honce hdocs
  obtain ⟨top, c', hsearch, htotal, hhits⟩ := exists_answers (R := R)
    (s := ⟨.ofSteps fields steps id, settings⟩) hholds hcount honce hq hhonest hruns
    (LookupCache.sound_empty _) size
  rw [hdocs] at htotal hhits
  exact ⟨top, c', hsearch, htotal, hhits (htotal.le.trans hsize)⟩

end Searcher

end TextSearch
