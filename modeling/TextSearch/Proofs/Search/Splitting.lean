import TextSearch.Proofs.Search.DocumentScores

/-!
# Splitting an index into segments

Where segments are closed while an index is built does not matter for what is found in
it: searches ground a query in the same way, count the same documents and, where scores are
exact and gaps are measured in the same way in all segments, list the same hits with the
same scores. Main statement: `Searcher.split_agrees`.
-/

namespace TextSearch

open Trail

/-! ### Grounding -/

namespace Searcher

/-- Two searchers select the same texts, within the same limits. -/
structure SelectsSame (s s' : Searcher) : Prop where
  /-- The limits. -/
  settings : s.settings = s'.settings
  /-- The texts that are selected. -/
  keys : ∀ m, (s.snapshot.select m).keys = (s'.snapshot.select m).keys

namespace SelectsSame

variable {s s' : Searcher}

theorem expand_eq (h : s.SelectsSame s') (m : MultiTerm) :
    expand s.snapshot s.settings.maxClauseCount m =
      expand s'.snapshot s'.settings.maxClauseCount m := by
  rw [expand, expand, h.settings, h.keys m]

/-- Selections are all that a step of grounding needs of an index. -/
theorem groundStep_eq (h : s.SelectsSame s') (q : Query) : s.groundStep q = s'.groundStep q := by
  induction q using Query.byParts with
  | hboost q factor ih => rw [groundStep, groundStep, ih]
  | hboolean clauses ih =>
    have hclauses : changeAll (changeClause s.groundStep) clauses =
        changeAll (changeClause s'.groundStep) clauses := by
      refine changeAll_congr fun c hc => ?_
      rw [changeClause, changeClause, ih c hc]
    rw [groundStep_boolean, groundStep_boolean, hclauses]
  | hspanOr field qs ih => rw [groundStep_spanOr, groundStep_spanOr, changeAll_congr ih]
  | hspanNear field qs slop inOrder ih =>
    rw [groundStep_spanNear, groundStep_spanNear, changeAll_congr ih]
  | hwithoutPayload q ih => rw [groundStep, groundStep, ih]
  | hfrequentSpan q least ih => rw [groundStep, groundStep, ih]
  | hdeferred q plan ih => rw [groundStep, groundStep, ih]
  | hatom q hatom =>
    by_cases hselects : q.isSelection = false
    · rw [groundStep_atom s hatom hselects, groundStep_atom s' hatom hselects]
    · cases q with
      | multiTerm m => rw [groundStep, groundStep, expandTerms, expandTerms, h.expand_eq]
      | spanMultiTerm m =>
        rw [groundStep, groundStep, expandSpanTerms, expandSpanTerms, h.expand_eq]
      | _ => exact absurd rfl hselects

theorem groundWithin_eq (h : s.SelectsSame s') (given : Query) (passes : Nat) (q : Query) :
    s.groundWithin given passes q = s'.groundWithin given passes q := by
  induction passes generalizing q with
  | zero => rw [groundWithin, groundWithin, h.settings]
  | succ passes ih =>
    rw [groundWithin, groundWithin, h.groundStep_eq]
    simp only [ih]

/-- Where the same texts are selected, queries are grounded to the same queries. -/
theorem grounded_eq (h : s.SelectsSame s') (q : Query) : s.grounded q = s'.grounded q := by
  rw [grounded, grounded, ground, ground, h.settings, h.groundWithin_eq]

end SelectsSame

end Searcher

/-- The same documents are selected from, however they are distributed. -/
theorem Snapshot.Holds.keys_select_eq {declared : Dictionary IndexOptions}
    {parts parts' : List (List Document)} {s s' : Snapshot} (h : s.Holds declared parts)
    (h' : s'.Holds declared parts') (hsame : parts.flatten = parts'.flatten) (m : MultiTerm) :
    (s.select m).keys = (s'.select m).keys := by
  refine Dictionary.keys_eq_of_mem_iff fun text => ?_
  rw [h.mem_select, h'.mem_select, hsame]

/-! ### Hits -/

namespace Query

variable {R : Type} [ScoreNumber R]

/-- The hits for a grounded query among documents that are numbered from a base on. -/
def hitsIn (s : Snapshot) (declared : Dictionary IndexOptions) (q : Query) (base : Nat)
    (docs : List Document) : List (Hit R) :=
  (docs.zipIdx base).filterMap fun d =>
    (q.scoreIn? s declared d.1 ScoreNumber.one).map fun score => ⟨d.2, score⟩

theorem hitsIn_append (s : Snapshot) (declared : Dictionary IndexOptions) (q : Query) (base : Nat)
    (docs rest : List Document) : (q.hitsIn s declared base (docs ++ rest) : List (Hit R)) =
      q.hitsIn s declared base docs ++ q.hitsIn s declared (base + docs.length) rest := by
  rw [hitsIn, List.zipIdx_append, List.filterMap_append, hitsIn, hitsIn]

theorem hitsIn_of_sameStatistics {s s' : Snapshot} (h : s.SameStatistics s')
    (declared : Dictionary IndexOptions) (q : Query) (base : Nat) (docs : List Document) :
    (q.hitsIn s declared base docs : List (Hit R)) = q.hitsIn s' declared base docs := by
  rw [hitsIn, hitsIn]
  simp only [scoreIn?_of_sameStatistics h]

/-- The hits of a segment are the documents that the trail visits, with their scores there. -/
theorem segmentHits_eq_filterMap {s : Snapshot} {g : Segment} {q : Query}
    (honce : ∀ t, q.trail? s g true (ScoreNumber.one : R) = some t → t.docs.Nodup) :
    (q.segmentHits s g : List (Hit R)) =
      (docsOf (q.trail? s g true (ScoreNumber.one : R))).filterMap fun i =>
        ((q.trail? s g true (ScoreNumber.one : R)).bind (scoreAt? i)).map fun score =>
          ⟨g.docBase + i, score⟩ := by
  rw [segmentHits]
  cases htrail : q.trail? s g true (ScoreNumber.one : R) with
  | none => rfl
  | some t =>
    have hat : ∀ v ∈ t, t.scoreAt? v.doc = some v.shown.score := fun v hv => by
      rw [scoreAt?, at?_of_mem (honce t htrail) hv]
      rfl
    rw [Option.elim_some, docsOf, Option.elim_some, Trail.docs, List.filterMap_map,
      ← List.filterMap_eq_map]
    refine List.filterMap_congr fun v hv => ?_
    rw [Function.comp, Function.comp, Option.bind_some, hat v hv]
    rfl

end Query

namespace Searcher

variable {R : Type} [ScoreNumber R] [ExactSum R] {s s' : Searcher}
  {declared : Dictionary IndexOptions} {parts parts' : List (List Document)}

/-- The hits of a segment are those among its documents. -/
theorem segmentHits_eq_hitsIn (h : s.snapshot.Holds declared parts)
    (hcount : parts.flatten.length ≤ endOfDocs) (honce : ∀ doc ∈ parts.flatten, doc.NamesOnce)
    {q : Query} (hq : q.hasNode Query.isUnbound = false) (hsteady : q.isSteady = true) {g : Segment}
    (hg : g ∈ s.snapshot.segments) {docs : List Document} (hdocs : docs ∈ parts)
    (hholds : g.Holds declared docs) :
    (q.segmentHits s.snapshot g : List (Hit R)) =
      q.hitsIn s.snapshot declared g.docBase docs := by
  have hr : s.Grounds q q := grounds_self hq
  have hdefers := Query.defersNothing_of_bound hq
  have hnames : g.NamesOnce := hholds.pairwise_postingsOf fun doc hmem =>
    honce doc (List.mem_flatten.2 ⟨docs, hdocs, hmem⟩)
  have hsimple : ∀ t, q.trail? s.snapshot g true (ScoreNumber.one : R) = some t → t.docs.Nodup :=
    fun t ht => (Query.simple_trail? (h.sound hcount g hg) hnames s.snapshot q ht).once
  rw [Query.segmentHits_eq_filterMap hsimple,
    docsOf_trail? h hcount honce hdefers hr hg hdocs hholds, idsWhere, List.filterMap_map,
    List.filterMap_filter, Query.hitsIn, zipIdx_eq_map docs g.docBase, List.filterMap_map]
  refine List.filterMap_congr fun d hd => ?_
  have hdoc : docs[d.2]? = some d.1 := List.mem_zipIdx_iff_getElem?.1 hd
  have hhas := h.hasDocument hcount honce hg hdocs hholds hdoc
  have hscore := scoreAt?_eq_scoreIn? hhas hq hsteady (ScoreNumber.one : R)
  have hvisits := Query.mem_docs_trail? s.snapshot g d.2 q true (ScoreNumber.one : R)
  rw [shows_eq_satisfiedBy hhas q hdefers hr] at hvisits
  rw [Function.comp, Function.comp, hscore]
  split
  · rfl
  · next hnot =>
    -- a document that does not satisfy the query is not visited, and has no score
    have hnone : q.scoreIn? s.snapshot declared d.1 (ScoreNumber.one : R) = none := by
      rw [← hscore]
      cases htrail : q.trail? s.snapshot g true (ScoreNumber.one : R) with
      | none => rfl
      | some t =>
        rw [htrail, docsOf, Option.elim_some, ← isSome_scoreAt?_iff] at hvisits
        exact Option.not_isSome_iff_eq_none.1 (mt hvisits.1 hnot)
    rw [hnone]
    rfl

/-- The hits of all segments are those among all documents. -/
theorem flatten_segmentHits (h : s.snapshot.Holds declared parts)
    (hcount : parts.flatten.length ≤ endOfDocs) (honce : ∀ doc ∈ parts.flatten, doc.NamesOnce)
    {q : Query} (hq : q.hasNode Query.isUnbound = false) (hsteady : q.isSteady = true) :
    (s.snapshot.segments.map (q.segmentHits (R := R) s.snapshot)).flatten =
      q.hitsIn s.snapshot declared 0 parts.flatten :=
  SegmentsHold.flatMap_eq h (fun _ => rfl) (Query.hitsIn_append s.snapshot declared q)
    fun _ hg _ hdocs hholds => segmentHits_eq_hitsIn h hcount honce hq hsteady hg hdocs hholds

/-- A collector keeps the best hits, whatever lists they come in. -/
theorem ofParts_eq_of_flatten_eq (size : Nat) {hss hss' : List (List (Hit R))}
    (h : hss.flatten = hss'.flatten) (hdocs : (hss.flatten.map (·.doc)).Nodup) :
    (TopHits.ofParts size hss).topDocs = (TopHits.ofParts size hss').topDocs := by
  have horder : Std.TransCmp (ScoreNumber.order : R → R → Ordering) := ExactScore.order
  have hkept := TopHits.kept_ofParts size hdocs
  have hkept' := TopHits.kept_ofParts size (h ▸ hdocs)
  rw [TopHits.topDocs, TopHits.topDocs, hkept, hkept', TopHits.seen_ofParts,
    TopHits.seen_ofParts, h]

omit [ExactSum R] in
/-- A search for a query that is grounded already collects the hits of this query. -/
theorem topDocs_of_bound (h : s.snapshot.Holds declared parts)
    (hcount : parts.flatten.length ≤ endOfDocs) {q : Query}
    (hq : q.hasNode Query.isUnbound = false) (hhonest : q.Honest s.snapshot) {c c' : LookupCache}
    (hc : c.Sound s.snapshot) {size : Nat} {top : TopDocs R}
    (hsearch : Weighing.Yields (s.search size q) c top c') :
    top = (TopHits.ofParts size (s.snapshot.segments.map (q.segmentHits s.snapshot))).topDocs := by
  obtain ⟨r, hground, hrest⟩ := topDocs_of_yields_search h.numbered (h.sound hcount) hc hsearch
  have hr := (grounds_of_grounded hground).eq_of_done (groundStep_of_bound hq)
  subst hr
  exact (hrest hhonest).1

/-- What is collected are the best hits among all documents, whatever segments these are in. -/
theorem topDocs_segmentHits (h : s.snapshot.Holds declared parts)
    (hcount : parts.flatten.length ≤ endOfDocs) (honce : ∀ doc ∈ parts.flatten, doc.NamesOnce)
    {q : Query} (hq : q.hasNode Query.isUnbound = false) (hsteady : q.isSteady = true) (size : Nat) :
    (TopHits.ofParts size (s.snapshot.segments.map (q.segmentHits (R := R) s.snapshot))).topDocs =
      (TopHits.ofParts size [q.hitsIn s.snapshot declared 0 parts.flatten]).topDocs := by
  have hdocs := docs_flatten_segmentHits (R := R) h hcount honce (Query.defersNothing_of_bound hq)
    (grounds_self hq)
  refine ofParts_eq_of_flatten_eq size ?_ ?_
  · rw [flatten_segmentHits h hcount honce hq hsteady, List.flatten_singleton]
  · rw [hdocs]
    exact (pairwise_idsWhere _ _ _).imp Nat.ne_of_lt

/-- Searches over the same documents agree, however these are distributed to segments. -/
theorem agree_of_holds (h : s.snapshot.Holds declared parts) (h' : s'.snapshot.Holds declared parts')
    (hsame : parts.flatten = parts'.flatten) (hsettings : s.settings = s'.settings)
    (hcount : parts.flatten.length ≤ endOfDocs) (honce : ∀ doc ∈ parts.flatten, doc.NamesOnce)
    {q : Query} (hhonest : q.Honest s.snapshot) (hhonest' : q.Honest s'.snapshot)
    {c c' c₁ c₁' : LookupCache} (hc : c.Sound s.snapshot) (hc' : c'.Sound s'.snapshot) {size : Nat}
    {top top' : TopDocs R} (hsearch : Weighing.Yields (s.search size q) c top c₁)
    (hsearch' : Weighing.Yields (s'.search size q) c' top' c₁') :
    top.totalHits = top'.totalHits ∧
      (top.totalHits ≤ size → (top.hits.map (·.doc)).Perm (top'.hits.map (·.doc))) ∧
      ((∀ r, s.grounded q = .ok r → r.isSteady = true) → top = top') := by
  have hcount' : parts'.flatten.length ≤ endOfDocs := hsame ▸ hcount
  have honce' : ∀ doc ∈ parts'.flatten, doc.NamesOnce := hsame ▸ honce
  have hselects : s.SelectsSame s' := ⟨hsettings, h.keys_select_eq h' hsame⟩
  obtain ⟨r, hground, hrest⟩ := topDocs_of_yields_search h.numbered (h.sound hcount) hc hsearch
  obtain ⟨r', hground', hrest'⟩ :=
    topDocs_of_yields_search h'.numbered (h'.sound hcount') hc' hsearch'
  have hr : r' = r := by
    rw [hselects.grounded_eq q, hground'] at hground
    exact Except.ok.inj hground
  subst hr
  obtain ⟨htop, -⟩ := hrest ((grounds_of_grounded hground).honest hhonest)
  obtain ⟨htop', -⟩ := hrest' ((grounds_of_grounded hground').honest hhonest')
  have hbound := bound_of_grounded hground
  have hdefers := Query.defersNothing_of_bound hbound
  -- both searches see the documents that satisfy the grounded query
  have hdocs := docs_flatten_segmentHits (R := R) h hcount honce hdefers (grounds_self hbound)
  have hdocs' := docs_flatten_segmentHits (R := R) h' hcount' honce' hdefers (grounds_self hbound)
  rw [← hsame] at hdocs'
  have hseen := TopHits.seen_ofParts size
    (s.snapshot.segments.map (r'.segmentHits (R := R) s.snapshot))
  have hseen' := TopHits.seen_ofParts size
    (s'.snapshot.segments.map (r'.segmentHits (R := R) s'.snapshot))
  have hlength := congrArg List.length (hdocs.trans hdocs'.symm)
  rw [List.length_map, List.length_map, ← hseen, ← hseen'] at hlength
  refine ⟨by rw [htop, htop']; exact hlength, fun hsize => ?_, fun hsteady => ?_⟩
  · rw [htop] at hsize
    have hkept := (TopHits.kept_ofParts_perm (Nat.le_trans hseen.ge hsize)).map (·.doc)
    have hkept' := (TopHits.kept_ofParts_perm
      (Nat.le_trans hseen'.ge (Nat.le_trans hlength.ge hsize))).map (·.doc)
    rw [hdocs] at hkept
    rw [hdocs'] at hkept'
    rw [htop, htop']
    exact hkept.trans hkept'.symm
  · have hstatistics := h.sameStatistics h' hsame
    rw [htop, htop', topDocs_segmentHits h hcount honce hbound (hsteady _ hground),
      topDocs_segmentHits h' hcount' honce' hbound (hsteady _ hground),
      Query.hitsIn_of_sameStatistics hstatistics, hsame]

open IndexBuilder (accepted)

/-- Where segments are closed while documents are added does not matter for a search: it counts
the same documents, and it lists the same hits with the same scores if gaps are measured in the
same way in all segments. If as many may be listed the documents are the same in any case. The
documents have to be few enough to be numbered, none may name a field twice, and lookups that
the query or the caches bring along have to be what they claim to be. -/
theorem split_agrees (fields : List (String × IndexOptions)) (steps steps' : List BuilderStep)
    (hsame : accepted (.ofList fields) steps = accepted (.ofList fields) steps') (id id' : Nat)
    (settings : Settings) (hcount : (accepted (.ofList fields) steps).length ≤ endOfDocs)
    (honce : ∀ doc ∈ accepted (.ofList fields) steps, doc.NamesOnce) {q : Query}
    (hhonest : q.Honest (.ofSteps fields steps id))
    (hhonest' : q.Honest (.ofSteps fields steps' id')) {c c' c₁ c₁' : LookupCache}
    (hc : c.Sound (.ofSteps fields steps id)) (hc' : c'.Sound (.ofSteps fields steps' id'))
    {size : Nat} {top top' : TopDocs R}
    (hsearch : Weighing.Yields (search ⟨.ofSteps fields steps id, settings⟩ size q) c top c₁)
    (hsearch' :
      Weighing.Yields (search ⟨.ofSteps fields steps' id', settings⟩ size q) c' top' c₁') :
    top.totalHits = top'.totalHits ∧
      (top.totalHits ≤ size → (top.hits.map (·.doc)).Perm (top'.hits.map (·.doc))) ∧
      ((∀ r, grounded ⟨.ofSteps fields steps id, settings⟩ q = .ok r → r.isSteady = true) →
        top = top') := by
  have hholds := IndexBuilder.holds_build fields steps id
  have hholds' := IndexBuilder.holds_build fields steps' id'
  rw [← IndexBuilder.flatten_ofSteps, ← IndexBuilder.flatten_ofSteps] at hsame
  rw [← IndexBuilder.flatten_ofSteps] at hcount honce
  refine agree_of_holds hholds hholds' hsame ?_ hcount honce hhonest hhonest' hc hc' hsearch hsearch'
  rfl

/-- A search for two terms near each other, or for a term with a prefix, over three documents
in one segment and in two. -/
theorem split_agrees_near :
    let fields : List (String × IndexOptions) := [("body", .positions)]
    let near : Document := [("body", [⟨"quick", 0, none⟩, ⟨"brown", 1, none⟩, ⟨"fox", 2, none⟩])]
    let far : Document := [("body", [⟨"fox", 0, none⟩, ⟨"quick", 5, none⟩])]
    let slow : Document := [("body", [⟨"slow", 0, none⟩, ⟨"fox", 1, none⟩, ⟨"quick", 2, none⟩])]
    let steps : List BuilderStep := [.add near, .add far, .add slow]
    let steps' : List BuilderStep := [.add near, .commit, .add far, .add slow, .commit]
    let q : Query := .boolean
      [(.should, .spanNear "body" [.spanTerm ⟨"body", "quick"⟩, .spanTerm ⟨"body", "fox"⟩] 1 false),
        (.should, .multiTerm ⟨"body", .beginning "s", none⟩)]
    ∃ (top : TopDocs ℚ) (c c' : LookupCache),
      Weighing.Yields (search ⟨.ofSteps fields steps 0, default⟩ 10 q) .empty top c ∧
        Weighing.Yields (search ⟨.ofSteps fields steps' 1, default⟩ 10 q) .empty top c' := by
  intro fields near far slow steps steps' q
  obtain ⟨top, c, hsearch⟩ := Weighing.exists_yields
    (m := search (R := ℚ) ⟨.ofSteps fields steps 0, default⟩ 10 q) (c := .empty)
    (by decide +kernel)
  obtain ⟨top', c', hsearch'⟩ := Weighing.exists_yields
    (m := search (R := ℚ) ⟨.ofSteps fields steps' 1, default⟩ 10 q) (c := .empty)
    (by decide +kernel)
  obtain ⟨-, -, hagree⟩ := split_agrees fields steps steps' (by decide +kernel) 0 1 default
    (by decide +kernel) (by decide +kernel) (by rintro l ⟨⟩) (by rintro l ⟨⟩)
    (LookupCache.sound_empty _) (LookupCache.sound_empty _) hsearch hsearch'
  let r : Query := .boolean
    [(.should, .spanNear "body" [.spanTerm ⟨"body", "quick"⟩, .spanTerm ⟨"body", "fox"⟩] 1 false),
      (.should, .boolean [(.should, .term ⟨"body", "slow"⟩)])]
  have hground : grounded ⟨.ofSteps fields steps 0, default⟩ q = .ok r := by cbv
  have hsteady : r.isSteady = true := by decide +kernel
  have hsame : top = top' := hagree fun r' hr => by
    rw [hground] at hr
    cases hr
    exact hsteady
  exact ⟨top, c, c', hsearch, hsame ▸ hsearch'⟩

/-- A union of a proximity and of a term is not steady. Where a segment has no document with the
term the proximity stands for the union, and its matches have no gaps; in a segment with both
the same match has a gap. -/
theorem split_disagrees_union :
    let fields : List (String × IndexOptions) := [("body", .positions)]
    let first : Document := [("body", [⟨"quick", 0, none⟩, ⟨"fox", 1, none⟩])]
    let second : Document := [("body", [⟨"slow", 0, none⟩])]
    let steps : List BuilderStep := [.add first, .add second]
    let steps' : List BuilderStep := [.add first, .commit, .add second]
    let q : Query := .spanOr "body" [.spanNear "body"
      [.spanTerm ⟨"body", "quick"⟩, .spanTerm ⟨"body", "fox"⟩] 0 true, .spanTerm ⟨"body", "slow"⟩]
    accepted (.ofList fields) steps = accepted (.ofList fields) steps' ∧
      ∃ (top top' : TopDocs ℚ) (c c' : LookupCache),
        Weighing.Yields (search ⟨.ofSteps fields steps 0, default⟩ 10 q) .empty top c ∧
          Weighing.Yields (search ⟨.ofSteps fields steps' 1, default⟩ 10 q) .empty top' c' ∧
            top.hits.map (fun hit => (hit.doc, hit.score)) = [(1, 3), (0, 33 / 17)] ∧
              top'.hits.map (fun hit => (hit.doc, hit.score)) = [(0, 3), (1, 3)] := by
  intro fields first second steps steps' q
  have hspan : q.isSpan = true := rfl
  have hsorted : Term.sorted q.spanTerms =
      [⟨"body", "fox"⟩, ⟨"body", "quick"⟩, ⟨"body", "slow"⟩] := by cbv
  obtain ⟨top, c, hsearch⟩ := Weighing.exists_yields
    (m := search (R := ℚ) ⟨.ofSteps fields steps 0, default⟩ 10 q) (c := .empty)
    (by decide +kernel)
  obtain ⟨top', c', hsearch'⟩ := Weighing.exists_yields
    (m := search (R := ℚ) ⟨.ofSteps fields steps' 1, default⟩ 10 q) (c := .empty)
    (by decide +kernel)
  refine ⟨by decide +kernel, top, top', c, c', hsearch, hsearch', ?_, ?_⟩
  · rw [topDocs_of_bound (IndexBuilder.holds_build fields steps 0) (by decide +kernel) rfl
      (by rintro l ⟨⟩) (LookupCache.sound_empty _) hsearch]
    unfold Query.segmentHits
    simp only [Query.trail?_of_isSpan _ _ hspan, Query.spanScorer, hsorted]
    decide +kernel
  · rw [topDocs_of_bound (IndexBuilder.holds_build fields steps' 1) (by decide +kernel) rfl
      (by rintro l ⟨⟩) (LookupCache.sound_empty _) hsearch']
    unfold Query.segmentHits
    simp only [Query.trail?_of_isSpan _ _ hspan, Query.spanScorer, hsorted]
    decide +kernel

end Searcher

end TextSearch
