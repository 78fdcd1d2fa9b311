import TextSearch.Proofs.Cursor.Comparison

/-!
# Whether a cursor that has found a document shows a span

A filter and a proximity pass over the documents in which nothing is left of the spans below them.
A term stops at every posting that passes its gates, also at one that stores no occurrence, and a
union stops where its operands do. So a posting is *exposed* if only unions are above its list.
Main statement: `SpanTree.shows_spans_unless_exposed`, that a cursor which has found a document
shows a span there, except where an exposed posting without occurrences belongs to the document.
-/

namespace TextSearch

/-- A posting list that is read with positions, document by document. Postings need not store any
occurrence. -/
structure Posting.Positioned (ps : List Posting) (detail : Detail) : Prop where
  /-- The list is opened with positions. -/
  positions : detail.hasPositions = true
  /-- The documents never fall. -/
  ascending : ps.Pairwise fun p q => p.doc ≤ q.doc
  /-- No document is the mark of the end. -/
  bounded : ∀ p ∈ ps, p.doc < endOfDocs

/-- No document comes up twice in a posting list. -/
def Posting.Distinct (ps : List Posting) (_ : Detail) : Prop :=
  ps.Pairwise fun p q => p.doc < q.doc

instance (ps : List Posting) (detail : Detail) : Decidable (Posting.Distinct ps detail) :=
  inferInstanceAs (Decidable (ps.Pairwise _))

theorem Posting.Positioned.sound_trail {ps : List Posting} {detail : Detail}
    (h : Posting.Positioned ps detail) : (Posting.trail ps).Sound :=
  ⟨List.pairwise_map.2 h.ascending, List.forall_mem_map.2 h.bounded⟩

/-! ### What a run shows -/

theorem Place.left_subset {β : Type} (place : Place β) (move : Move) :
    place.left move ⊆ place.pending := by
  cases move with
  | next =>
    cases place with
    | before t => exact List.Subset.refl _
    | on v t => exact List.subset_cons_self v t
  | skipTo target => exact (Trail.since_sublist target _).subset

/-- Where a union shows no span, one of its trails has come to the document and shows none. -/
theorem SpanUnion.exists_of_mem_merged {ts : List (Trail (List Span))} {v : Visit (List Span)}
    (hv : v ∈ merged ts) (hnil : v.shown = []) : ∃ t ∈ ts, ⟨v.doc, []⟩ ∈ t := by
  obtain ⟨u, hu, rfl⟩ := List.mem_map.1 hv
  have hflatten : u.shown.flatten = [] := not_not.1 fun hne => sorted_ne_nil hne hnil
  obtain ⟨ss, hss⟩ := List.exists_mem_of_ne_nil _ (Trail.shown_ne_nil_of_mem_union u hu)
  have hempty : ss = [] := List.flatten_eq_nil_iff.1 hflatten ss hss
  subst hempty
  exact Trail.exists_visit_union.1 ⟨u, hu, rfl, hss⟩

namespace SpanCursor

variable {t : Trail (List Span)} {c : SpanCursor} {width : UInt32}

/-- A cursor has visits of a trail ahead, or it has found nothing. -/
inductive Amid (t : Trail (List Span)) (c : SpanCursor) : Prop
  /-- The visits that are still to be made are visits of the trail. -/
  | walking {width : UInt32} {place : Place (List Span)} (hwalks : c.Walks width place)
    (hpending : place.pending ⊆ t)
  /-- The cursor is spent. -/
  | spent (hspent : c.Spent)

/-- What a move finds is a visit of a trail. -/
def FindsVisit (t : Trail (List Span)) (outcome : Bool × SpanCursor) : Prop :=
  outcome.1 = true → ⟨outcome.2.doc, outcome.2.spans⟩ ∈ t

/-- A move goes through, finds nothing but visits of the trail, and stays amid it. -/
theorem Amid.moved (h : c.Amid t) (move : Move) :
    ∃ outcome, c.moved move = .ok outcome ∧ FindsVisit t outcome ∧ outcome.2.Amid t := by
  cases h with
  | spent hspent =>
    obtain ⟨c', hc', hspent'⟩ := hspent.moved move
    exact ⟨(false, c'), hc', nofun, .spent hspent'⟩
  | @walking width place hwalks hpending =>
    obtain ⟨⟨found, c'⟩, hmove, harrived⟩ := hwalks.moved move
    have hleft : place.left move ⊆ t := List.Subset.trans (place.left_subset move) hpending
    refine ⟨(found, c'), hmove, ?_⟩
    generalize place.left move = u at harrived hleft
    cases u with
    | nil =>
      have hfound : found = false := harrived
      subst hfound
      exact ⟨nofun, .spent (hwalks.spent_of_moved hmove)⟩
    | cons v rest =>
      refine ⟨fun _ => ?_, .walking harrived.2 hleft⟩
      rw [harrived.2.doc, harrived.2.spans]
      exact hleft (List.mem_cons_self ..)

/-- Every run goes through and finds nothing but visits of the trail that the cursor was in
front of. -/
theorem Amid.run (h : c.Amid t) (moves : List Move) :
    ∃ outcomes, watch SpanCursor.moved id moves c = .ok outcomes ∧
      ∀ outcome ∈ outcomes, FindsVisit t outcome := by
  induction moves generalizing c with
  | nil => exact ⟨[], rfl, List.forall_mem_nil _⟩
  | cons move moves ih =>
    obtain ⟨outcome, hmove, hfinds, hamid⟩ := h.moved move
    obtain ⟨later, hlater, hall⟩ := ih hamid
    refine ⟨outcome :: later, ?_, List.forall_mem_cons.2 ⟨hfinds, hall⟩⟩
    rw [watch, hmove]
    show (watch SpanCursor.moved id moves outcome.2).bind _ = _
    rw [hlater]
    rfl

/-- A skip to a document finds the first visit to it. -/
theorem Walks.skipTo_finds (h : c.Walks width (.before t)) {d : Nat} {ss : List Span}
    (hat : t.at? d = some ss) :
    ∃ c', c.skipTo d = .ok (true, c') ∧ c'.doc = d ∧ c'.spans = ss := by
  obtain ⟨⟨found, c'⟩, hskip, harrived⟩ := h.skipTo d
  rw [Place.pending_before] at harrived
  have hsince : (t.since d).at? d = some ss := by rw [Trail.at?_since (Nat.le_refl d), hat]
  cases hleft : t.since d with
  | nil =>
    rw [hleft] at hsince
    cases hsince
  | cons v rest =>
    rw [hleft] at harrived hsince
    obtain ⟨hfound, hwalks⟩ := harrived
    have hfound : found = true := hfound
    subst hfound
    have hsound : (t.since d).Sound := h.sound.since d
    have hdoc : v.doc = d := by
      refine Nat.le_antisymm ?_ ?_
      · rw [hleft] at hsound
        exact hsound.head_le (Trail.mem_of_at?_eq_some hsince)
      · exact Trail.le_of_mem_since h.sound (hleft ▸ List.mem_cons_self ..)
    rw [Trail.at?_cons, if_pos hdoc, Option.some.injEq] at hsince
    exact ⟨c', hskip, hwalks.doc.trans hdoc, hwalks.spans.trans hsince⟩

end SpanCursor

namespace SpanTree

/-! ### Trees, list by list -/

/-- An induction over trees whose hypotheses for unions and proximities are about the members of
their lists. -/
theorem induction_on {motive : SpanTree → Prop}
    (term : ∀ ps detail gates, motive (term ps detail gates))
    (filtered : ∀ tree filter, motive tree → motive (filtered tree filter))
    (anyOf : ∀ trees, (∀ tree ∈ trees, motive tree) → motive (anyOf trees))
    (nearby : ∀ trees slop inOrder, (∀ tree ∈ trees, motive tree) →
      motive (nearby trees slop inOrder)) (tree : SpanTree) : motive tree := by
  refine @SpanTree.rec motive (fun trees => ∀ tree ∈ trees, motive tree) term filtered anyOf nearby
    (List.forall_mem_nil _) (fun _ _ htree htrees => ?_) tree
  exact List.forall_mem_cons.2 ⟨htree, htrees⟩

mutual

/-- What the cursor of a tree would show if it were walked to its end. -/
def trail : SpanTree → Trail (List Span)
  | term ps detail gates => (gatedVisits gates ps).showing (SpanCursor.postingSpans detail)
  | filtered tree filter => tree.trail.choosing filter.keep
  | anyOf trees => SpanUnion.merged (trails trees)
  | nearby trees slop inOrder => SpanProximity.matched slop inOrder (trails trees)

/-- What the cursors of trees would show. -/
def trails : List SpanTree → List (Trail (List Span))
  | [] => []
  | tree :: trees => tree.trail :: trails trees

end

mutual

/-- Whether all posting lists at the leaves are of some kind. -/
def AllLists (kind : List Posting → Detail → Prop) : SpanTree → Prop
  | term ps detail _ => kind ps detail
  | filtered tree _ => tree.AllLists kind
  | anyOf trees => AllListsOf kind trees
  | nearby trees _ _ => AllListsOf kind trees

/-- Whether all posting lists at the leaves of trees are of some kind. -/
def AllListsOf (kind : List Posting → Detail → Prop) : List SpanTree → Prop
  | [] => True
  | tree :: trees => tree.AllLists kind ∧ AllListsOf kind trees

end

mutual

/-- The postings at which a cursor stops whether they store an occurrence or not: those that pass
the gates of their list, if no filter and no proximity is above it. -/
def exposed : SpanTree → List Posting
  | term ps _ gates => ps.filter (passes gates)
  | filtered _ _ => []
  | anyOf trees => exposedByAny trees
  | nearby _ _ _ => []

/-- The exposed postings of trees. -/
def exposedByAny : List SpanTree → List Posting
  | [] => []
  | tree :: trees => tree.exposed ++ exposedByAny trees

end

variable {kind : List Posting → Detail → Prop} {trees : List SpanTree}

theorem trails_eq_map (trees : List SpanTree) : trails trees = trees.map trail := by
  induction trees with
  | nil => rfl
  | cons tree trees ih => rw [trails, ih, List.map_cons]

theorem spansInEach_eq_map (d : Nat) (trees : List SpanTree) :
    spansInEach d trees = trees.map (spansIn d) := by
  induction trees with
  | nil => rfl
  | cons tree trees ih => rw [spansInEach, ih, List.map_cons]

theorem allListsOf_iff : AllListsOf kind trees ↔ ∀ tree ∈ trees, tree.AllLists kind := by
  induction trees with
  | nil => exact iff_of_true trivial (List.forall_mem_nil _)
  | cons tree trees ih => rw [AllListsOf, ih, List.forall_mem_cons]

theorem mem_exposedByAny {p : Posting} :
    p ∈ exposedByAny trees ↔ ∃ tree ∈ trees, p ∈ tree.exposed := by
  induction trees with
  | nil => simp [exposedByAny]
  | cons tree trees ih => rw [exposedByAny, List.mem_append, ih, List.exists_mem_cons_iff]

/-! ### Trees over lists that are read with positions -/

/-- Cursors that walk their trails do so list by list. -/
theorem exists_sources_trails {trees : List SpanTree}
    (h : ∀ tree ∈ trees, ∃ width, tree.cursor.Walks width (.before tree.trail)) :
    ∃ sources : List (UInt32 × Trail (List Span)),
      List.Forall₂ (fun c source => SpanCursor.Walks source.1 c (.before source.2))
        (cursors trees) sources ∧ sources.map (·.2) = trails trees := by
  induction trees with
  | nil => exact ⟨[], .nil, rfl⟩
  | cons tree trees ih =>
    obtain ⟨⟨width, hwalks⟩, htrees⟩ := List.forall_mem_cons.1 h
    obtain ⟨sources, hsources, htrails⟩ := ih htrees
    refine ⟨(width, tree.trail) :: sources, .cons hwalks hsources, ?_⟩
    rw [List.map_cons, htrails, trails]

/-- The cursor of a tree walks the trail of the tree. -/
theorem exists_walks_trail (tree : SpanTree) (h : tree.AllLists Posting.Positioned) :
    ∃ width, tree.cursor.Walks width (.before tree.trail) := by
  induction tree using induction_on with
  | term ps detail gates =>
    have hps : Posting.Positioned ps detail := h
    exact ⟨_, SpanCursor.walks_ofPostings hps.positions
      (PostingCursor.walks_ofList hps.sound_trail detail gates)⟩
  | filtered tree filter ih =>
    obtain ⟨width, hwalks⟩ := ih h
    exact ⟨_, SpanCursor.walks_filtered hwalks filter⟩
  | anyOf trees ih =>
    have htrees := allListsOf_iff.1 h
    obtain ⟨sources, hwalks, htrails⟩ :=
      exists_sources_trails fun tree htree => ih tree htree (htrees tree htree)
    rw [trail, ← htrails]
    exact ⟨_, SpanCursor.walks_anyOf hwalks⟩
  | nearby trees slop inOrder ih =>
    have htrees := allListsOf_iff.1 h
    obtain ⟨sources, hwalks, htrails⟩ :=
      exists_sources_trails fun tree htree => ih tree htree (htrees tree htree)
    rw [trail, ← htrails]
    exact ⟨_, SpanCursor.walks_nearby hwalks slop inOrder⟩

theorem postingSpans_eq_nil {p : Posting} {detail : Detail}
    (h : SpanCursor.postingSpans detail p = []) : p.occurrences.getD [] = [] :=
  not_not.1 fun hne => SpanCursor.postingSpans_ne_nil hne detail h

/-- A visit that shows no span is to the document of an exposed posting without occurrences. -/
theorem exists_exposed_of_mem_trail {tree : SpanTree} {v : Visit (List Span)}
    (hv : v ∈ tree.trail) (hnil : v.shown = []) :
    ∃ p ∈ tree.exposed, p.doc = v.doc ∧ p.occurrences.getD [] = [] := by
  induction tree using induction_on generalizing v with
  | term ps detail gates =>
    obtain ⟨u, hu, rfl⟩ := List.mem_map.1 hv
    obtain ⟨p, hp, rfl⟩ := List.mem_map.1 hu
    exact ⟨p, hp, rfl, postingSpans_eq_nil hnil⟩
  | filtered tree filter ih => exact absurd hnil (Trail.filled_choosing _ _ v hv)
  | nearby trees slop inOrder ih => exact absurd hnil (Trail.filled_choosing _ _ v hv)
  | anyOf trees ih =>
    obtain ⟨t, ht, hvisit⟩ := SpanUnion.exists_of_mem_merged hv hnil
    rw [trails_eq_map] at ht
    obtain ⟨tree, htree, rfl⟩ := List.mem_map.1 ht
    obtain ⟨p, hp, hbare⟩ := ih tree htree hvisit rfl
    exact ⟨p, mem_exposedByAny.2 ⟨tree, htree, hp⟩, hbare⟩

/-- A cursor stops at the document of every exposed posting. -/
theorem doc_mem_docs_trail {tree : SpanTree} {p : Posting} (hp : p ∈ tree.exposed) :
    p.doc ∈ tree.trail.docs := by
  induction tree using induction_on with
  | term ps detail gates =>
    rw [trail, Trail.docs_showing]
    exact Trail.mem_docs.2 ⟨p.visit, List.mem_map_of_mem hp, rfl⟩
  | filtered tree filter ih => cases hp
  | nearby trees slop inOrder ih => cases hp
  | anyOf trees ih =>
    obtain ⟨tree, htree, hp⟩ := mem_exposedByAny.1 hp
    rw [trail, SpanUnion.merged, Trail.docs_showing, Trail.mem_docs_union, trails_eq_map]
    exact ⟨tree.trail, List.mem_map_of_mem htree, ih tree htree hp⟩

/-! ### Trees over lists in which no document comes up twice -/

/-- A trail visits no document twice, and lists the spans of a tree. -/
structure ListedBy (tree : SpanTree) (t : Trail (List Span)) : Prop where
  /-- The documents ascend. -/
  simple : t.Simple
  /-- What is listed are the spans of the tree; there may be a visit for nothing. -/
  listed : ∀ d, t.listed d = tree.spansIn d

theorem forall_simple_trails (h : ∀ tree ∈ trees, tree.ListedBy tree.trail) :
    ∀ t ∈ trails trees, t.Simple := by
  rw [trails_eq_map]
  exact List.forall_mem_map.2 fun tree htree => (h tree htree).simple

theorem map_listed_trails (h : ∀ tree ∈ trees, tree.ListedBy tree.trail) (d : Nat) :
    (trails trees).map (Trail.listed d) = spansInEach d trees := by
  rw [trails_eq_map, spansInEach_eq_map, List.map_map]
  exact List.map_congr_left fun tree htree => (h tree htree).listed d

theorem listedBy_term {ps : List Posting} {detail : Detail} (h : Posting.Positioned ps detail)
    (hdistinct : Posting.Distinct ps detail) (gates : List Threshold) :
    (term ps detail gates).ListedBy (term ps detail gates).trail := by
  have hsimple : (gatedVisits gates ps).Simple :=
    ⟨h.sound_trail.sublist (List.filter_sublist.map _),
      Trail.nodup_docs_gatedVisits hdistinct gates⟩
  refine ⟨hsimple.showing _, fun d => ?_⟩
  rw [trail, Trail.listed, Trail.at?_showing, Trail.at?_gatedVisits hdistinct, spansIn]
  cases (ps.find? fun p => p.doc == d).filter (passes gates) <;> rfl

/-- The trail of a tree lists the spans of the tree. -/
theorem listedBy_trail (tree : SpanTree) (h : tree.AllLists Posting.Positioned)
    (hdistinct : tree.AllLists Posting.Distinct) : tree.ListedBy tree.trail := by
  induction tree using induction_on with
  | term ps detail gates => exact listedBy_term h hdistinct gates
  | filtered tree filter ih =>
    obtain ⟨hsimple, hlisted⟩ := ih h hdistinct
    refine ⟨(Trail.tidy_choosing hsimple.sound hsimple.once _).toSimple, fun d => ?_⟩
    rw [trail, Trail.listed_choosing_keep hsimple.once, hlisted, spansIn]
  | anyOf trees ih =>
    have hall : ∀ tree ∈ trees, tree.ListedBy tree.trail := fun tree htree =>
      ih tree htree (allListsOf_iff.1 h tree htree) (allListsOf_iff.1 hdistinct tree htree)
    have hsimple := forall_simple_trails hall
    rw [trail]
    refine ⟨(Trail.simple_union hsimple).showing _, fun d => ?_⟩
    rw [SpanUnion.listed_merged fun t ht => (hsimple t ht).sound, spansIn,
      ← map_listed_trails hall, List.flatMap_def]
  | nearby trees slop inOrder ih =>
    have hall : ∀ tree ∈ trees, tree.ListedBy tree.trail := fun tree htree =>
      ih tree htree (allListsOf_iff.1 h tree htree) (allListsOf_iff.1 hdistinct tree htree)
    have hsimple := forall_simple_trails hall
    rw [trail]
    refine ⟨(SpanProximity.tidy_matched hsimple slop inOrder).toSimple, fun d => ?_⟩
    rw [SpanProximity.listed_matched hsimple, spansIn, ← map_listed_trails hall]

/-- A visit shows the spans that the tree has in the document. -/
theorem ListedBy.shown_eq {tree : SpanTree} {t : Trail (List Span)} (h : tree.ListedBy t) {d : Nat}
    {ss : List Span} (hat : t.at? d = some ss) : ss = tree.spansIn d := by
  rw [← h.listed, Trail.listed, hat, Option.getD_some]

/-! ### Runs of moves -/

/-- The cursor of a tree over posting lists that are read with positions has found a document:
then it shows a span there, in every run of moves, unless the document is that of an exposed
posting without occurrences. So it always shows one behind a filter or a proximity. If no
document comes up twice in a list, the documents at which some run shows none are exactly those
of exposed postings in which the tree has no span. -/
theorem shows_spans_unless_exposed (tree : SpanTree) (h : tree.AllLists Posting.Positioned) :
    (∀ moves, ∃ outcomes, watch SpanCursor.moved id moves tree.cursor = .ok outcomes ∧
      ∀ outcome ∈ outcomes, outcome.1 = true → outcome.2.spans ≠ [] ∨
        ∃ p ∈ tree.exposed, p.doc = outcome.2.doc ∧ p.occurrences.getD [] = []) ∧
    (tree.AllLists Posting.Distinct → ∀ d,
      (∃ moves outcomes c, watch SpanCursor.moved id moves tree.cursor = .ok outcomes ∧
        (true, c) ∈ outcomes ∧ c.doc = d ∧ c.spans = []) ↔
      tree.spansIn d = [] ∧ ∃ p ∈ tree.exposed, p.doc = d) := by
  obtain ⟨width, hwalks⟩ := exists_walks_trail tree h
  have hrun := (SpanCursor.Amid.walking hwalks (List.Subset.refl _)).run
  refine ⟨fun moves => ?_, fun hdistinct d => ⟨?_, ?_⟩⟩
  · obtain ⟨outcomes, hwatch, hfinds⟩ := hrun moves
    refine ⟨outcomes, hwatch, fun outcome houtcome hfound => ?_⟩
    by_cases hnil : outcome.2.spans = []
    · exact .inr (exists_exposed_of_mem_trail (hfinds outcome houtcome hfound) hnil)
    · exact .inl hnil
  · rintro ⟨moves, outcomes, c, hwatch, hmem, rfl, hnil⟩
    obtain ⟨outcomes', hwatch', hfinds⟩ := hrun moves
    cases hwatch.symm.trans hwatch'
    have hvisit : ⟨c.doc, c.spans⟩ ∈ tree.trail := hfinds _ hmem rfl
    obtain ⟨p, hp, hdoc, -⟩ := exists_exposed_of_mem_trail hvisit hnil
    refine ⟨?_, p, hp, hdoc⟩
    have hlists := listedBy_trail tree h hdistinct
    rw [← hlists.shown_eq (Trail.at?_of_mem hlists.simple.once hvisit)]
    exact hnil
  · rintro ⟨hnil, p, hp, rfl⟩
    obtain ⟨ss, hat⟩ := Option.isSome_iff_exists.1 (Trail.isSome_at?_iff.2 (doc_mem_docs_trail hp))
    obtain ⟨c, hskip, hdoc, hspans⟩ := hwalks.skipTo_finds hat
    have hspans : c.spans = [] :=
      (hspans.trans ((listedBy_trail tree h hdistinct).shown_eq hat)).trans hnil
    refine ⟨[.skipTo p.doc], [(true, c)], c, ?_, List.mem_cons_self .., hdoc, hspans⟩
    simp only [watch, SpanCursor.moved, hskip, bind, Except.bind, id]

/-- A union covers what one of its lists leaves bare: it shows a span in document 0, which only its
second list has, and none in document 3. -/
theorem shows_spans_unless_exposed_covered :
    let tree : SpanTree := .anyOf
      [.term [.ofDoc 0, .ofDoc 3] .positions [],
        .term [.ofOccurrences 0 [⟨4, none⟩]] .positions []]
    (∃ moves outcomes c, watch SpanCursor.moved id moves tree.cursor = .ok outcomes ∧
      (true, c) ∈ outcomes ∧ c.doc = 3 ∧ c.spans = []) ∧
    ¬ ∃ moves outcomes c, watch SpanCursor.moved id moves tree.cursor = .ok outcomes ∧
      (true, c) ∈ outcomes ∧ c.doc = 0 ∧ c.spans = [] := by
  intro tree
  have hpositioned : tree.AllLists Posting.Positioned := by
    refine ⟨⟨?_, ?_, ?_⟩, ⟨?_, ?_, ?_⟩, trivial⟩ <;> decide
  have hdistinct : tree.AllLists Posting.Distinct := by
    refine ⟨show Posting.Distinct _ _ from ?_, show Posting.Distinct _ _ from ?_, trivial⟩ <;>
      decide
  have hbare := (tree.shows_spans_unless_exposed hpositioned).2 hdistinct
  refine ⟨(hbare 3).2 ⟨by cbv, .ofDoc 3, by decide, rfl⟩, fun hshows => ?_⟩
  have hspans : tree.spansIn 0 = [⟨4, 5, []⟩] := by cbv
  have hnil : tree.spansIn 0 = [] := ((hbare 0).1 hshows).1
  rw [hspans] at hnil
  cases hnil

/-- A term over a posting that stores no occurrence stops at its document without a span, which no
filter and no proximity does. -/
theorem stops_without_span :
    let tree : SpanTree := .term [.ofDoc 0, .ofOccurrences 1 [⟨3, none⟩]] .positions []
    let sights := fun tree : SpanTree =>
      watch SpanCursor.moved SpanCursor.sight [.next, .next] tree.cursor
    tree.AllLists Posting.Positioned ∧ tree.AllLists Posting.Distinct ∧
      sights tree = .ok [some (0, []), some (1, [⟨3, 4, []⟩])] ∧
      sights (.filtered tree .emptyPayload) = .ok [some (1, [⟨3, 4, []⟩]), none] ∧
      sights (.nearby [tree] 0 true) = .ok [some (1, [⟨3, 4, []⟩]), none] := by
  refine ⟨⟨?_, ?_, ?_⟩, show Posting.Distinct _ _ from ?_, by cbv, by cbv, by cbv⟩ <;> decide

end SpanTree

end TextSearch
