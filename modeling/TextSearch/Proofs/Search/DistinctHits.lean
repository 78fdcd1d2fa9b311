import TextSearch.Proofs.Index.DistinctPostings
import TextSearch.Proofs.Score.Exact
import TextSearch.Proofs.Search.Matching
import TextSearch.Proofs.Search.OpenedCursors

/-!
# Hits that come once

Over posting lists in which no document comes twice, every cursor and every matcher visits
documents of its segment, and none of them twice. So a search lists no document twice, whatever
lookups it is carried out with: `Searcher.lists_no_document_twice`. A document that has a text in
two lists of tokens for one field is listed twice.
-/

namespace TextSearch

open Trail

variable {R : Type}

/-! ### Trails below a limit -/

namespace Trail

variable {β γ : Type} {limit : Nat}

/-- No document is visited twice, and none from a limit on. -/
structure SimpleBelow (limit : Nat) (t : Trail β) : Prop extends Simple t where
  /-- All documents are below the limit. -/
  below : ∀ d ∈ t.docs, d < limit

theorem SimpleBelow.showing {t : Trail β} (h : t.SimpleBelow limit) (f : β → γ) :
    (t.showing f).SimpleBelow limit :=
  ⟨h.toSimple.showing f, by rw [docs_showing]; exact h.below⟩

theorem SimpleBelow.choosing {t : Trail β} (h : t.SimpleBelow limit) (f : β → List γ) :
    (t.choosing f).SimpleBelow limit :=
  ⟨(tidy_choosing h.sound h.once f).toSimple,
    fun d hd => h.below d ((docs_choosing_sublist f t).subset hd)⟩

theorem simpleBelow_union {ts : List (Trail β)} (h : ∀ t ∈ ts, t.SimpleBelow limit) :
    (union ts).SimpleBelow limit := by
  refine ⟨simple_union fun t ht => (h t ht).toSimple, fun d hd => ?_⟩
  obtain ⟨t, ht, hd⟩ := mem_docs_union.1 hd
  exact (h t ht).below d hd

theorem simpleBelow_meet {ts : List (Trail β)} (h : ∀ t ∈ ts, t.SimpleBelow limit) :
    (meet ts).SimpleBelow limit := by
  refine ⟨simple_meet fun t ht => (h t ht).toSimple, fun d hd => ?_⟩
  obtain ⟨hne, hd⟩ := mem_docs_meet.1 hd
  obtain ⟨t, ht⟩ := List.exists_mem_of_ne_nil ts hne
  exact (h t ht).below d (hd t ht)

/-- What gates leave of a posting list in which no document comes twice. -/
theorem simpleBelow_gatedVisits {ps : List Posting} (hsound : (Posting.trail ps).Sound)
    (hascending : ps.Pairwise fun p q => p.doc < q.doc) (hbelow : ∀ p ∈ ps, p.doc < limit)
    (gates : List Threshold) : (gatedVisits gates ps).SimpleBelow limit where
  sound := hsound.sublist (List.filter_sublist.map _)
  once := nodup_docs_gatedVisits hascending gates
  below d hd := by
    obtain ⟨v, hv, rfl⟩ := mem_docs.1 hd
    obtain ⟨p, hp, rfl⟩ := List.mem_map.1 hv
    exact hbelow p (List.mem_of_mem_filter hp)

end Trail

/-- The posting lists of a segment can be walked, and list documents of it, none of them twice. -/
structure Segment.ListsOnce (g : Segment) : Prop where
  /-- The posting lists can be walked. -/
  sound : g.Sound
  /-- No document comes twice. -/
  once : g.NamesOnce
  /-- All documents are documents of the segment. -/
  below : ∀ t, ∀ p ∈ g.postingsOf t, p.doc < g.maxDoc

theorem Segment.ListsOnce.simpleBelow {g : Segment} (h : g.ListsOnce) {t : Term}
    {ps : List Posting} (hps : g.postings? t = some ps) (gates : List Threshold) :
    (gatedVisits gates ps).SimpleBelow g.maxDoc := by
  have hof : g.postingsOf t = ps := by rw [Segment.postingsOf, hps, Option.getD_some]
  exact simpleBelow_gatedVisits (h.sound.trail t ps hps) (hof ▸ h.once t) (hof ▸ h.below t) gates

/-! ### Cursors and matchers -/

namespace SpanCursor

/-- A cursor in front of a trail that visits no document twice, and none from a limit on. -/
def FreshBelow (limit : Nat) (c : SpanCursor) : Prop :=
  ∃ width t, c.Walks width (.before t) ∧ t.SimpleBelow limit

/-- Every cursor that is opened in a segment visits documents of it, none of them twice. -/
theorem closed_freshBelow {g : Segment} (h : g.ListsOnce) : Closed g (FreshBelow g.maxDoc) where
  postings {t ps detail} hps hpos gates :=
    ⟨_, _, walks_ofPostings hpos (PostingCursor.walks_ofList (h.sound.trail t ps hps) detail gates),
      (h.simpleBelow hps gates).showing _⟩
  filtered := by
    rintro c ⟨width, t, hwalks, hsimple⟩ filter
    exact ⟨_, _, walks_filtered hwalks filter, hsimple.choosing _⟩
  anyOf hcs := by
    obtain ⟨sources, hwalks, hsimple⟩ := exists_sources hcs
    exact ⟨_, _, walks_anyOf hwalks, (simpleBelow_union hsimple).showing _⟩
  nearby hcs slop inOrder := by
    obtain ⟨sources, hwalks, hsimple⟩ := exists_sources hcs
    exact ⟨_, _, walks_nearby hwalks slop inOrder, (simpleBelow_meet hsimple).choosing _⟩

end SpanCursor

variable [ScoreNumber R]

namespace TrailParts

variable {limit : Nat}

/-- No clause visits a document twice, or one from a limit on. -/
structure SimpleBelow (limit : Nat) (p : TrailParts R) : Prop where
  /-- What has to match. -/
  required : ∀ t ∈ p.required, t.SimpleBelow limit
  /-- What may match. -/
  optional : ∀ t ∈ p.optional, t.SimpleBelow limit

omit [ScoreNumber R] in
theorem SimpleBelow.add {p : TrailParts R} (h : p.SimpleBelow limit) (o : Occur)
    {t : Trail (Merit R)} (ht : t.SimpleBelow limit) : (p.add o t).SimpleBelow limit := by
  cases o with
  | must => exact ⟨List.forall_mem_cons.2 ⟨ht, h.required⟩, h.optional⟩
  | should => exact ⟨h.required, List.forall_mem_cons.2 ⟨ht, h.optional⟩⟩
  | mustNot => exact ⟨h.required, h.optional⟩

/-- A combination visits documents that its clauses visit. -/
theorem SimpleBelow.combine {p : TrailParts R} (h : p.SimpleBelow limit) {scored : Bool}
    {t : Trail (Merit R)} (ht : p.combine scored = some t) : t.SimpleBelow limit := by
  have hsimple : p.Simple :=
    ⟨fun t ht => (h.required t ht).toSimple, fun t ht => (h.optional t ht).toSimple⟩
  refine ⟨hsimple.combine ht, fun d hd => ?_⟩
  have hmem : d ∈ docsOf (p.combine scored) := by rwa [ht]
  obtain ⟨⟨hrequired, -⟩, hbacks⟩ := mem_docsOf_combine.1 hmem
  rcases hbacks with hne | ⟨t, ht, hd⟩
  · obtain ⟨t, ht⟩ := List.exists_mem_of_ne_nil p.required hne
    exact (h.required t ht).below d (hrequired t ht)
  · exact (h.optional t ht).below d hd

end TrailParts

namespace Weight

variable {g : Segment}

/-- A matcher that has documents of a segment ahead, none of them twice. -/
def OpensOnce (g : Segment) (m : Matcher R) : Prop :=
  ∃ t, m.Walks t ∧ t.SimpleBelow g.maxDoc

theorem opensOnce_openTerm (hg : g.ListsOnce) {t : Term} {lookup : TermLookup}
    {scorer : Option (BM25 R)} {least : Option Threshold} {m : Matcher R}
    (h : openTerm t lookup scorer least g = .ok (some m)) : OpensOnce g m := by
  obtain ⟨found, -, h⟩ := except_bind_eq_ok.1 h
  cases found with
  | none => cases h
  | some entry =>
    obtain ⟨cursor, hcursor, h⟩ := except_bind_eq_ok.1 h
    cases h
    obtain ⟨u, ps, hps, rfl⟩ := Segment.exists_postings?_of_postings hcursor
    rw [PostingCursor.gatedBy_ofList]
    exact ⟨_, Matcher.walks_ofPostings
      (PostingCursor.walks_ofList (hg.sound.trail u ps hps) .frequencies least.toList) scorer,
      (hg.simpleBelow hps _).showing _⟩

theorem opensOnce_openSpans (hg : g.ListsOnce) {w : SpanWeight} {scorer : Option (BM25 R)}
    {m : Matcher R} (h : openSpans w scorer g = .ok (some m)) : OpensOnce g m := by
  obtain ⟨opened, hopened, h⟩ := except_bind_eq_ok.1 h
  cases opened with
  | none => cases h
  | some cursor =>
    obtain ⟨width, t, hwalks, hsimple⟩ :=
      SpanWeight.closed_spans (SpanCursor.closed_freshBelow hg) w hopened
    obtain ⟨m', hm', hwalks⟩ := Matcher.walks_ofSpans hwalks scorer
    simp only [hm'] at h
    cases h
    exact ⟨_, hwalks, hsimple.showing _⟩

mutual

/-- Every weight opens a matcher for documents of the segment, none of them twice. -/
theorem opensOnce_matcher (hg : g.ListsOnce) : ∀ (w : Weight R) {m : Matcher R},
    w.matcher g = .ok (some m) → OpensOnce g m
  | term _ _ _ _ _, _, h => opensOnce_openTerm hg h
  | spans _ _ _, _, h => opensOnce_openSpans hg h
  | boolean _ clauses scored, m, h => by
    obtain ⟨opened, hopened, h⟩ := except_bind_eq_ok.1 h
    cases opened with
    | none => cases h
    | some p =>
      obtain ⟨q, hwalks, hbelow⟩ := opensOnce_parts hg clauses hopened
      obtain ⟨o, ho, hrel⟩ := MatcherParts.rel_combine hwalks scored
      obtain rfl : o = some m := Except.ok.inj (ho.symm.trans h)
      generalize hcombine : q.combine scored = t at hrel
      cases hrel with
      | some hm => exact ⟨_, hm, hbelow.combine hcombine⟩
  | nothing _, _, h => by cases h

/-- Every clause opens a matcher for documents of the segment, none of them twice. -/
theorem opensOnce_parts (hg : g.ListsOnce) : ∀ (clauses : List (Occur × Weight R))
    {p : MatcherParts R}, parts g clauses = .ok (some p) →
      ∃ q, p.Walks q ∧ q.SimpleBelow g.maxDoc
  | [], _, h => by
    cases h
    exact ⟨.empty, MatcherParts.walks_empty, List.forall_mem_nil _, List.forall_mem_nil _⟩
  | (o, w) :: rest, p, h => by
    obtain ⟨opened, hopened, h⟩ := except_bind_eq_ok.1 h
    cases opened with
    | none =>
      simp only at h
      split at h
      · cases h
      · exact opensOnce_parts hg rest h
    | some m =>
      obtain ⟨others, hothers, h⟩ := except_bind_eq_ok.1 h
      cases others with
      | none => cases h
      | some p' =>
        cases h
        obtain ⟨t, hm, ht⟩ := opensOnce_matcher hg w hopened
        obtain ⟨q, hwalks, hbelow⟩ := opensOnce_parts hg rest hothers
        exact ⟨q.add o t, hwalks.add o hm, hbelow.add o ht⟩

end

/-- The hits of a weight in a segment are documents of it, none of them twice. -/
theorem docs_hits (hg : g.ListsOnce) {w : Weight R} {hs : List (Hit R)} (h : w.hits g = .ok hs) :
    (hs.map (·.doc)).Nodup ∧
      ∀ doc ∈ hs.map (·.doc), g.docBase ≤ doc ∧ doc < g.docBase + g.maxDoc := by
  obtain ⟨opened, hopened, h⟩ := except_bind_eq_ok.1 h
  cases opened with
  | none =>
    cases h
    exact ⟨List.nodup_nil, List.forall_mem_nil _⟩
  | some m =>
    obtain ⟨t, hwalks, hbelow⟩ := opensOnce_matcher hg w hopened
    have hdocs : hs.map (·.doc) = t.docs.map (g.docBase + ·) := by
      simp only [hwalks.hits, bind, Except.bind, pure, Except.pure, Except.ok.injEq] at h
      rw [← h, Matcher.hitsOf, docs, List.map_map, List.map_map, List.map_map]
      rfl
    rw [hdocs]
    refine ⟨hbelow.once.map fun a b heq => Nat.add_left_cancel heq, List.forall_mem_map.2 ?_⟩
    exact fun d hd => ⟨Nat.le_add_right .., Nat.add_lt_add_left (hbelow.below d hd) _⟩

end Weight

/-! ### Searches -/

/-- The hits of all segments are documents that these hold, none of them twice. -/
theorem SegmentsHold.docs_flatten {declared : Dictionary IndexOptions}
    {snapshot ord docBase : Nat} {parts : List (List Document)} {gs : List Segment}
    (h : SegmentsHold declared snapshot ord docBase parts gs) (hlists : ∀ g ∈ gs, g.ListsOnce)
    {w : Weight R} {found : List (List (Hit R))}
    (hfound : List.Forall₂ (fun g hs => w.hits g = .ok hs) gs found) :
    (found.flatten.map (·.doc)).Nodup ∧ ∀ doc ∈ found.flatten.map (·.doc),
      docBase ≤ doc ∧ doc < docBase + parts.flatten.length := by
  induction h generalizing found with
  | nil =>
    cases hfound
    exact ⟨List.nodup_nil, List.forall_mem_nil _⟩
  | @cons ord docBase docs parts g gs hord hsnapshot hbase hholds hrest ih =>
    cases hfound with
    | @cons _ hs _ found hhits hfound =>
      obtain ⟨hg, hgs⟩ := List.forall_mem_cons.1 hlists
      obtain ⟨hfirst, hwithin⟩ := Weight.docs_hits hg hhits
      obtain ⟨hothers, hbeyond⟩ := ih hgs hfound
      have hmaxDoc := hholds.maxDoc
      rw [List.flatten_cons, List.map_append, List.flatten_cons, List.length_append]
      refine ⟨List.nodup_append.2 ⟨hfirst, hothers, fun d hd e he heq => ?_⟩, fun doc hdoc => ?_⟩
      · have hlt := (hwithin d hd).2
        have hle := (hbeyond e he).1
        omega
      · rcases List.mem_append.1 hdoc with hdoc | hdoc
        · have hin := hwithin doc hdoc
          omega
        · have hin := hbeyond doc hdoc
          omega

/-- What a snapshot finds are documents, each of them once. -/
structure Snapshot.FindsOnce (R : Type) [ScoreNumber R] (s : Snapshot) : Prop where
  /-- A search lists documents of the snapshot, none of them twice, and finds no more than there
  are, whatever lookups it is carried out with. -/
  search : ∀ (settings : Settings) (size : Nat) (q : Query) (c c' : LookupCache) (top : TopDocs R),
    Weighing.Yields (Searcher.search ⟨s, settings⟩ size q) c top c' →
      (top.hits.map (·.doc)).Nodup ∧ (∀ hit ∈ top.hits, hit.doc < s.maxDoc) ∧
        top.totalHits ≤ s.maxDoc
  /-- A count comes to no more than there are. -/
  count : ∀ (settings : Settings) (q : Query) (c c' : LookupCache) (n : Nat),
    Weighing.Yields (Searcher.count ⟨s, settings⟩ q) c n c' → n ≤ s.maxDoc

namespace Snapshot.Holds

open Weighing

variable {declared : Dictionary IndexOptions} {parts : List (List Document)} {s : Snapshot}

theorem listsOnce (h : s.Holds declared parts) (hcount : parts.flatten.length ≤ endOfDocs)
    (hshares : ∀ doc ∈ parts.flatten, doc.SharesNoText) : ∀ g ∈ s.segments, g.ListsOnce := by
  intro g hg
  obtain ⟨docs, hdocs, hholds⟩ := h.exists_part g hg
  exact ⟨h.sound hcount g hg, h.pairwise_postingsOf_iff.2 hshares g hg,
    fun _ _ hp => hholds.doc_lt_maxDoc hp⟩

/-- What is found in all segments are documents of the snapshot, none of them twice. -/
theorem docs_found (h : s.Holds declared parts) (hlists : ∀ g ∈ s.segments, g.ListsOnce)
    {w : Weight R} {c c' : LookupCache} {found : List (List (Hit R))}
    (hfound : Yields (s.segments.mapM fun g => (w.hits g : Weighing (List (Hit R)))) c found c') :
    (found.flatten.map (·.doc)).Nodup ∧ (∀ hit ∈ found.flatten, hit.doc < s.maxDoc) ∧
      found.flatten.length ≤ s.maxDoc := by
  obtain ⟨hnodup, hwithin⟩ := SegmentsHold.docs_flatten h hlists (yields_mapM_lift hfound).1
  rw [Nat.zero_add, ← h.maxDoc_eq] at hwithin
  have hlt : ∀ doc ∈ found.flatten.map (·.doc), doc < s.maxDoc := fun doc hdoc =>
    (hwithin doc hdoc).2
  have hlength := length_le_of_nodup_of_lt hnodup hlt
  rw [List.length_map] at hlength
  exact ⟨hnodup, List.forall_mem_map.1 hlt, hlength⟩

theorem findsOnce (h : s.Holds declared parts) (hcount : parts.flatten.length ≤ endOfDocs)
    (hshares : ∀ doc ∈ parts.flatten, doc.SharesNoText) : s.FindsOnce R := by
  have hlists := h.listsOnce hcount hshares
  refine ⟨?_, ?_⟩
  · intro settings size q c c' top hsearch
    rw [Searcher.search] at hsearch
    obtain ⟨w, c₁, -, hsearch⟩ := yields_bind.1 hsearch
    obtain ⟨found, c₂, hfound, hsearch⟩ := yields_bind.1 hsearch
    obtain ⟨rfl, -⟩ := yields_pure.1 hsearch
    obtain ⟨hnodup, hlt, hlength⟩ := h.docs_found hlists hfound
    -- what is kept is some of what was found, and each hit as often as it was found
    obtain ⟨kept, hperm, hsublist⟩ := TopHits.kept_ofParts_subperm size found
    refine ⟨(hperm.map (·.doc)).nodup_iff.1 (hnodup.sublist (hsublist.map _)),
      fun hit hhit => hlt hit (TopHits.mem_of_mem_kept hhit), ?_⟩
    exact Nat.le_trans (Nat.le_of_eq (TopHits.seen_ofParts size found)) hlength
  · intro settings q c c' n hcounted
    rw [Searcher.count] at hcounted
    obtain ⟨w, c₁, -, hcounted⟩ := yields_bind.1 hcounted
    obtain ⟨found, c₂, hfound, hcounted⟩ := yields_bind.1 hcounted
    obtain ⟨rfl, -⟩ := yields_pure.1 hcounted
    exact Nat.le_trans (Nat.le_of_eq List.length_flatten.symm) (h.docs_found hlists hfound).2.2

end Snapshot.Holds

namespace Searcher

open IndexBuilder (accepted)
open Weighing

/-- Whatever the order in which an index was built, no posting list names a document twice exactly
if no accepted document has a text in two lists of tokens for one field; one that names no field
twice has not. Then no term is counted in more documents than there are, and no search lists a
document twice, unless there are more documents than ids. -/
theorem lists_no_document_twice (fields : List (String × IndexOptions)) (steps : List BuilderStep)
    (id : Nat) :
    ((∀ g ∈ (Snapshot.ofSteps fields steps id).segments, ∀ t,
        (g.postingsOf t).Pairwise fun p q => p.doc < q.doc) ↔
      ∀ doc ∈ accepted (.ofList fields) steps, doc.SharesNoText) ∧
    (∀ doc : Document, doc.NamesOnce → doc.SharesNoText) ∧
    ((∀ doc ∈ accepted (.ofList fields) steps, doc.SharesNoText) →
      (Snapshot.ofSteps fields steps id).CountsOnce ∧
        ((accepted (.ofList fields) steps).length ≤ endOfDocs →
          (Snapshot.ofSteps fields steps id).FindsOnce R)) := by
  have hholds := IndexBuilder.holds_build fields steps id
  rw [← IndexBuilder.flatten_ofSteps]
  have hiff := hholds.pairwise_postingsOf_iff
  exact ⟨hiff, fun _ honce => honce.sharesNoText, fun hshares =>
    ⟨hholds.countsOnce (hiff.2 hshares), fun hcount => hholds.findsOnce hcount hshares⟩⟩

/-- A document that names a field twice, with different texts, in the second of two segments. -/
theorem lists_no_document_twice_two_fields :
    let fields : List (String × IndexOptions) := [("body", .positions)]
    let steps : List BuilderStep :=
      [.add [("body", [⟨"a", 0, none⟩, ⟨"a", 1, none⟩])], .commit,
        .add [("body", [⟨"a", 0, none⟩]), ("body", [⟨"b", 1, none⟩])]]
    (∀ g ∈ (Snapshot.ofSteps fields steps 0).segments, ∀ t,
        (g.postingsOf t).Pairwise fun p q => p.doc < q.doc) ∧
      (Snapshot.ofSteps fields steps 0).CountsOnce ∧
      (Snapshot.ofSteps fields steps 0).FindsOnce ℚ := by
  intro fields steps
  have hshares : ∀ doc ∈ accepted (.ofList fields) steps, doc.SharesNoText := by decide +kernel
  have hcount : (accepted (.ofList fields) steps).length ≤ endOfDocs := by decide +kernel
  obtain ⟨hiff, -, hreports⟩ := lists_no_document_twice (R := ℚ) fields steps 0
  obtain ⟨hcounts, hfinds⟩ := hreports hshares
  exact ⟨hiff.2 hshares, hcounts, hfinds hcount⟩

/-- A document that names a field twice, with the same text, comes twice in the posting list. Its
term is counted in two documents where there is one, and a search lists the document twice. -/
theorem lists_no_document_twice_same_text :
    let s : Snapshot := .ofSteps [("body", .positions)]
      [.add [("body", [⟨"a", 0, none⟩]), ("body", [⟨"a", 1, none⟩])]] 0
    (¬ ∀ g ∈ s.segments, ∀ t, (g.postingsOf t).Pairwise fun p q => p.doc < q.doc) ∧
      s.maxDoc = 1 ∧ (TermLookup.ofSnapshot s ⟨"body", "a"⟩ true).docFreq = 2 ∧
      (∃ (top : TopDocs ℚ) (c' : LookupCache),
        Yields (search ⟨s, default⟩ 10 (.term ⟨"body", "a"⟩)) .empty top c' ∧
          top.totalHits = 2 ∧ top.hits.map (·.doc) = [0, 0]) ∧
      ((count ⟨s, default⟩ (.term ⟨"body", "a"⟩)).run.run .empty).1.toOption = some 2 := by
  intro s
  refine ⟨fun hall => ?_, by decide +kernel, by decide +kernel, ?_, by decide +kernel⟩
  · have hterm : ∀ g ∈ s.segments,
        (g.postingsOf ⟨"body", "a"⟩).Pairwise fun p q => p.doc < q.doc := fun g hg => hall g hg _
    revert hterm
    decide +kernel
  · exact exists_yields_search_eq _ _ _ _ _ _ (by decide +kernel)

end Searcher

end TextSearch
