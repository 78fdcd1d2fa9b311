import Mathlib
import TextSearch.Proofs.Cursor.Listing
import TextSearch.Proofs.Cursor.Runs
import TextSearch.Proofs.Cursor.SpentTree

/-!
# Trees of span cursors as cursors

A `SpanTree` says how span cursors are put together: the occurrences of terms at the leaves,
filters, unions and proximities above them. The spans that a tree has in a document are told
without any cursor. Main statement: `SpanTree.spans_run_plainly`, that the cursor of a tree is a
plain cursor over the documents in which the tree has spans, and shows all of these.
-/

namespace TextSearch

/-- How a tree of span cursors is put together. -/
inductive SpanTree where
  /-- The occurrences of a term in the postings that pass its gates. -/
  | term (ps : List Posting) (detail : Detail) (gates : List Threshold)
  /-- What a filter keeps of the spans of a tree. -/
  | filtered (tree : SpanTree) (filter : SpanFilter)
  /-- The spans of any of several trees. -/
  | anyOf (trees : List SpanTree)
  /-- The places where all of several trees come near each other. -/
  | nearby (trees : List SpanTree) (slop : UInt32) (inOrder : Bool)

/-- A posting list that can be read occurrence by occurrence. -/
structure Posting.Readable (ps : List Posting) (detail : Detail) : Prop where
  /-- The list is opened with positions. -/
  positions : detail.hasPositions = true
  /-- The documents ascend. -/
  ascending : ps.Pairwise fun p q => p.doc < q.doc
  /-- No document is the mark of the end. -/
  bounded : ∀ p ∈ ps, p.doc < endOfDocs
  /-- Every posting lists an occurrence. -/
  placed : ∀ p ∈ ps, p.occurrences.getD [] ≠ []

namespace SpanTree

mutual

/-- Whether the posting lists at the leaves can be read. -/
def IsReadable : SpanTree → Prop
  | term ps detail _ => Posting.Readable ps detail
  | filtered tree _ => tree.IsReadable
  | anyOf trees => AllReadable trees
  | nearby trees _ _ => AllReadable trees

/-- Whether the posting lists at the leaves of trees can be read. -/
def AllReadable : List SpanTree → Prop
  | [] => True
  | tree :: trees => tree.IsReadable ∧ AllReadable trees

end

mutual

/-- The cursor of a tree, in front of its documents. -/
def cursor : SpanTree → SpanCursor
  | term ps detail gates => .ofPostings ⟨.ofList ps detail, gates⟩
  | filtered tree filter => tree.cursor.filtered filter
  | anyOf trees => .anyOf (cursors trees)
  | nearby trees slop inOrder => .nearby (cursors trees) slop inOrder

/-- The cursors of trees. -/
def cursors : List SpanTree → List SpanCursor
  | [] => []
  | tree :: trees => tree.cursor :: cursors trees

end

mutual

/-- The spans of a tree in a document. -/
def spansIn (d : Nat) : SpanTree → List Span
  | term ps detail gates =>
    ((ps.find? fun p => p.doc == d).filter (passes gates)).elim [] (SpanCursor.postingSpans detail)
  | filtered tree filter => filter.keep (spansIn d tree)
  | anyOf trees => Span.sorted (spansInEach d trees).flatten
  | nearby trees slop inOrder => Span.near slop inOrder (spansInEach d trees)

/-- The spans of each of several trees in a document. -/
def spansInEach (d : Nat) : List SpanTree → List (List Span)
  | [] => []
  | tree :: trees => spansIn d tree :: spansInEach d trees

end

mutual

/-- The documents of the posting lists at the leaves. -/
def mentioned : SpanTree → List Nat
  | term ps _ _ => ps.map (·.doc)
  | filtered tree _ => tree.mentioned
  | anyOf trees => mentionedByAny trees
  | nearby trees _ _ => mentionedByAny trees

/-- The documents of the posting lists at the leaves of trees. -/
def mentionedByAny : List SpanTree → List Nat
  | [] => []
  | tree :: trees => tree.mentioned ++ mentionedByAny trees

end

/-- The documents in which a tree has spans. -/
def documents (tree : SpanTree) : Finset Nat :=
  tree.mentioned.toFinset.filter fun d => tree.spansIn d ≠ []

/-! ### The documents of trees -/

mutual

/-- A tree has spans only in documents that its posting lists mention. -/
theorem mem_mentioned {d : Nat} : ∀ {tree : SpanTree}, tree.spansIn d ≠ [] → d ∈ tree.mentioned
  | term ps detail gates, h => by
    rw [mentioned, List.mem_map]
    rw [spansIn] at h
    cases hfind : ps.find? fun p => p.doc == d with
    | none =>
      rw [hfind] at h
      exact absurd rfl h
    | some p => exact ⟨p, List.mem_of_find?_eq_some hfind, by simpa using List.find?_some hfind⟩
  | filtered tree filter, h => by
    have hinner : tree.spansIn d ≠ [] := fun hnil => h <| by
      rw [spansIn, hnil]
      cases filter <;> simp [SpanFilter.keep]
    have hmem : d ∈ tree.mentioned := mem_mentioned hinner
    exact hmem
  | anyOf trees, h => by
    refine mem_mentionedByAny fun hall => h ?_
    rw [spansIn, List.flatten_eq_nil_iff.2 hall, Span.sorted_nil]
  | nearby trees slop inOrder, h => by
    refine mem_mentionedByAny fun hall => h ?_
    rw [spansIn]
    cases heach : spansInEach d trees with
    | nil => exact Span.near_nil slop inOrder
    | cons ss each =>
      have hss : ss = [] := hall ss (heach ▸ List.mem_cons_self ..)
      exact SpanProximity.near_of_nil_mem (hss ▸ List.mem_cons_self ..)

/-- Where trees do not all lack spans, their posting lists mention the document. -/
theorem mem_mentionedByAny {d : Nat} : ∀ {trees : List SpanTree},
    (¬ ∀ ss ∈ spansInEach d trees, ss = []) → d ∈ mentionedByAny trees
  | [], h => absurd (List.forall_mem_nil _) h
  | tree :: trees, h => by
    rw [mentionedByAny, List.mem_append]
    by_cases hnil : tree.spansIn d = []
    · refine .inr (mem_mentionedByAny fun hall => h ?_)
      exact List.forall_mem_cons.2 ⟨hnil, hall⟩
    · exact .inl (mem_mentioned hnil)

end

theorem mem_documents {tree : SpanTree} {d : Nat} :
    d ∈ tree.documents ↔ tree.spansIn d ≠ [] := by
  rw [documents, Finset.mem_filter, List.mem_toFinset]
  exact and_iff_right_of_imp mem_mentioned

/-- The spans of a tree in a document are listed in their order. -/
theorem inOrder_spansIn (d : Nat) : ∀ tree : SpanTree, Span.InOrder (tree.spansIn d)
  | term ps detail gates => by
    rw [spansIn]
    cases (ps.find? fun p => p.doc == d).filter (passes gates) with
    | none => exact .nil
    | some p => exact Span.inOrder_sorted _
  | filtered tree filter => by
    rw [spansIn]
    have hinner := inOrder_spansIn d tree
    cases filter with
    | emptyPayload => exact hinner.filter _
    | minFrequency least =>
      rw [SpanFilter.keep]
      split
      · exact hinner
      · exact .nil
  | anyOf trees => Span.inOrder_sorted _
  | nearby trees slop inOrder => Span.inOrder_distinct _

/-! ### The trails of trees -/

/-- A trail lists the spans of a tree, document by document. -/
structure Describes (tree : SpanTree) (t : Trail (List Span)) : Prop where
  /-- The documents ascend, and something is listed in each. -/
  tidy : t.Tidy
  /-- What is listed are the spans of the tree. -/
  listed : ∀ d, t.listed d = tree.spansIn d

namespace Describes

variable {tree : SpanTree} {t : Trail (List Span)}

theorem docs_eq (h : tree.Describes t) : t.docs = tree.documents.sort :=
  h.tidy.docs_eq_sort fun d => by rw [h.tidy.mem_docs_iff, h.listed, mem_documents]

theorem shown_eq (h : tree.Describes t) {v : Visit (List Span)} (hv : v ∈ t) :
    v.shown = tree.spansIn v.doc := by
  rw [← h.listed, Trail.listed, Trail.at?_of_mem h.tidy.once hv, Option.getD_some]

end Describes

variable {trees : List SpanTree} {ts : List (Trail (List Span))}

theorem forall_tidy (h : List.Forall₂ Describes trees ts) : ∀ t ∈ ts, t.Tidy := by
  induction h with
  | nil => exact List.forall_mem_nil _
  | cons htree _ ih => exact List.forall_mem_cons.2 ⟨htree.tidy, ih⟩

theorem map_listed (h : List.Forall₂ Describes trees ts) (d : Nat) :
    ts.map (Trail.listed d) = spansInEach d trees := by
  induction h with
  | nil => rfl
  | cons htree _ ih => rw [List.map_cons, htree.listed, ih, spansInEach]

theorem describes_term {ps : List Posting} {detail : Detail} (h : Posting.Readable ps detail)
    (gates : List Threshold) : (term ps detail gates).Describes
      ((gatedVisits gates ps).showing (SpanCursor.postingSpans detail)) := by
  have honce := Trail.nodup_docs_gatedVisits h.ascending gates
  have hsound : (gatedVisits gates ps).Sound :=
    (Posting.sound_trail h.ascending h.bounded).sublist (List.filter_sublist.map _)
  have hsame : (gatedVisits gates ps).choosing (SpanCursor.postingSpans detail) =
      (gatedVisits gates ps).showing (SpanCursor.postingSpans detail) := by
    refine Trail.choosing_eq_showing fun v hv => ?_
    obtain ⟨p, hp, rfl⟩ := List.mem_map.1 hv
    exact SpanCursor.postingSpans_ne_nil (h.placed p (List.mem_filter.1 hp).1) detail
  rw [← hsame]
  refine ⟨Trail.tidy_choosing hsound honce _, fun d => ?_⟩
  rw [Trail.listed_choosing honce, Trail.at?_gatedVisits h.ascending, spansIn]
  cases (ps.find? fun p => p.doc == d).filter (passes gates) <;> rfl

theorem Describes.filtered {tree : SpanTree} {t : Trail (List Span)} (h : tree.Describes t)
    (filter : SpanFilter) : (tree.filtered filter).Describes (t.choosing filter.keep) := by
  refine ⟨Trail.tidy_choosing h.tidy.sound h.tidy.once _, fun d => ?_⟩
  rw [Trail.listed_choosing_keep h.tidy.once, h.listed, spansIn]

theorem describes_anyOf (h : List.Forall₂ Describes trees ts) :
    (anyOf trees).Describes (SpanUnion.merged ts) := by
  have htidy := forall_tidy h
  refine ⟨SpanUnion.tidy_merged htidy, fun d => ?_⟩
  rw [SpanUnion.listed_merged fun t ht => (htidy t ht).sound, spansIn, ← map_listed h,
    List.flatMap_def]

theorem describes_nearby (h : List.Forall₂ Describes trees ts) (slop : UInt32) (inOrder : Bool) :
    (nearby trees slop inOrder).Describes (SpanProximity.matched slop inOrder ts) := by
  have hsimple : ∀ t ∈ ts, t.Simple := fun t ht => (forall_tidy h t ht).toSimple
  refine ⟨SpanProximity.tidy_matched hsimple slop inOrder, fun d => ?_⟩
  rw [SpanProximity.listed_matched hsimple, spansIn, ← map_listed h]

mutual

/-- The cursor of a tree walks a trail that describes the tree. -/
theorem exists_walks : ∀ tree : SpanTree, tree.IsReadable →
    ∃ width t, SpanCursor.Walks width tree.cursor (.before t) ∧ tree.Describes t
  | term ps detail gates, h => by
    have hcursor := PostingCursor.walks_ofList (Posting.sound_trail h.ascending h.bounded) detail
      gates
    exact ⟨_, _, SpanCursor.walks_ofPostings h.positions hcursor, describes_term h gates⟩
  | filtered tree filter, h => by
    obtain ⟨width, t, hwalks, hdescribes⟩ := exists_walks tree h
    exact ⟨_, _, SpanCursor.walks_filtered hwalks filter, hdescribes.filtered filter⟩
  | anyOf trees, h => by
    obtain ⟨sources, hwalks, hdescribe⟩ := exists_walksAll trees h
    exact ⟨_, _, SpanCursor.walks_anyOf hwalks, describes_anyOf hdescribe⟩
  | nearby trees slop inOrder, h => by
    obtain ⟨sources, hwalks, hdescribe⟩ := exists_walksAll trees h
    exact ⟨_, _, SpanCursor.walks_nearby hwalks slop inOrder, describes_nearby hdescribe slop inOrder⟩

/-- The cursors of trees walk trails that describe the trees. -/
theorem exists_walksAll : ∀ trees : List SpanTree, AllReadable trees →
    ∃ sources : List (UInt32 × Trail (List Span)),
      List.Forall₂ (fun c source => SpanCursor.Walks source.1 c (.before source.2))
        (cursors trees) sources ∧ List.Forall₂ Describes trees (sources.map (·.2))
  | [], _ => ⟨[], .nil, .nil⟩
  | tree :: trees, h => by
    obtain ⟨width, t, hwalk, hdescribes⟩ := exists_walks tree h.1
    obtain ⟨sources, hwalks, hdescribe⟩ := exists_walksAll trees h.2
    exact ⟨(width, t) :: sources, .cons hwalk hwalks, .cons hdescribes hdescribe⟩

end

end SpanTree

/-! ### Runs -/

/-- What is left of a trail by a move from a place. -/
def Place.left {β : Type} : Move → Place β → Trail β
  | .next, place => place.ahead
  | .skipTo target, place => place.pending.since target

/-- A plain cursor at a place of a trail. -/
def PlainCursor.ofPlace {β : Type} : Place β → PlainCursor
  | .before t => ⟨false, t.docs⟩
  | .on v t => ⟨true, v.doc :: t.docs⟩

theorem PlainCursor.left_ofPlace {β : Type} (move : Move) (place : Place β) :
    left move (ofPlace place) = (place.left move).docs := by
  cases place with
  | before t =>
    cases move with
    | next => rfl
    | skipTo target => exact (Trail.docs_since target t).symm
  | on v t =>
    cases move with
    | next => rfl
    | skipTo target => exact (Trail.docs_since target (v :: t)).symm

namespace SpanCursor

/-- Whether a move finds a document, and the cursor after it. -/
def moved : Move → SpanCursor → Except Fault (Bool × SpanCursor)
  | .next, c => c.next
  | .skipTo target, c => c.skipTo target

/-- What can be seen after a move: the document that it has found, and its spans. -/
def sight (outcome : Bool × SpanCursor) : Option (Nat × List Span) :=
  if outcome.1 then some (outcome.2.doc, outcome.2.spans) else none

variable {width : UInt32} {c : SpanCursor} {place : Place (List Span)}

theorem Walks.moved (h : Walks width c place) (move : Move) :
    Arrives (Walks width) (c.moved move) (place.left move) := by
  cases move with
  | next => exact h.next
  | skipTo target => exact h.skipTo target

theorem Walks.spent_of_moved (h : Walks width c place) {move : Move} {c' : SpanCursor}
    (heq : c.moved move = .ok (false, c')) : c'.Spent := by
  cases move with
  | next => exact h.spent_of_next heq
  | skipTo target => exact h.spent_of_skipTo heq

theorem Spent.moved (h : c.Spent) (move : Move) : FindsNothing Spent (c.moved move) := by
  cases move with
  | next => exact h.next
  | skipTo target => exact h.skipTo target

end SpanCursor

namespace SpanTree

/-- What there is to see of a tree after a move of a plain cursor. -/
def sightAt (tree : SpanTree) (outcome : Bool × PlainCursor) : Option (Nat × List Span) :=
  if outcome.1 then some (outcome.2.doc, tree.spansIn outcome.2.doc) else none

/-- A cursor stands where a plain cursor does. A cursor that has found nothing need not walk a
trail any more. -/
inductive StandsAt (tree : SpanTree) (c : SpanCursor) : PlainCursor → Prop
  /-- The cursor is at some place of a trail of spans of the tree. -/
  | walking {width : UInt32} {place : Place (List Span)} (hwalks : c.Walks width place)
    (hshown : ∀ v ∈ place.pending, v.shown = tree.spansIn v.doc) : StandsAt tree c (.ofPlace place)
  /-- The cursor is spent. -/
  | spent (hspent : c.Spent) : StandsAt tree c ⟨true, []⟩

/-- A move takes a cursor to where it takes a plain cursor. -/
theorem StandsAt.moved {tree : SpanTree} {c : SpanCursor} {p : PlainCursor}
    (h : tree.StandsAt c p) (move : Move) :
    ∃ outcome, c.moved move = .ok outcome ∧
      SpanCursor.sight outcome = tree.sightAt (p.moved move) ∧
      tree.StandsAt outcome.2 (p.moved move).2 := by
  cases h with
  | spent hspent =>
    obtain ⟨c', hc', hspent'⟩ := hspent.moved move
    refine ⟨(false, c'), hc', ?_, ?_⟩
    · rw [PlainCursor.moved_of_spent]
      rfl
    · rw [PlainCursor.moved_of_spent]
      exact .spent hspent'
  | @walking width place hwalks hshown =>
    obtain ⟨⟨found, c'⟩, hmove, harrived⟩ := hwalks.moved move
    have hleft : ∀ v ∈ place.left move, v.shown = tree.spansIn v.doc := by
      refine fun v hv => hshown v ?_
      cases move with
      | next =>
        cases place with
        | before t => exact hv
        | on u t => exact List.mem_cons_of_mem _ hv
      | skipTo target => exact (Trail.since_sublist target _).subset hv
    refine ⟨(found, c'), hmove, ?_⟩
    rw [PlainCursor.moved, PlainCursor.left_ofPlace]
    generalize place.left move = t at harrived hleft
    cases t with
    | nil =>
      have hfound : found = false := harrived
      subst hfound
      exact ⟨rfl, .spent (hwalks.spent_of_moved hmove)⟩
    | cons v t =>
      obtain ⟨hfound, hwalks'⟩ := harrived
      have hfound : found = true := hfound
      subst hfound
      refine ⟨?_, .walking hwalks' hleft⟩
      have hdoc := hwalks'.doc
      have hspans := hwalks'.spans
      rw [hleft v (List.mem_cons_self ..)] at hspans
      simp only [SpanCursor.sight, if_true, hdoc, hspans]
      rfl

/-- The cursor of a tree over posting lists that can be read is a plain cursor over the
documents in which the tree has spans, and starts in front of them. Every run of moves goes
through, with the answers and the documents of the plain cursor, and nothing is found after a
move that has found nothing. Where a document is found, what is shown are the spans of the tree
there: some, in their order, whatever moves have led there. -/
theorem spans_run_plainly (tree : SpanTree) (h : tree.IsReadable) (moves : List Move) :
    ∃ shown, watch SpanCursor.moved SpanCursor.sight moves tree.cursor = .ok shown ∧
      shown = (PlainCursor.run moves ⟨false, tree.documents.sort⟩).map tree.sightAt ∧
      (shown.Pairwise fun earlier later => earlier = none → later = none) ∧
      ∀ d ss, some (d, ss) ∈ shown →
        d ∈ tree.documents ∧ ss = tree.spansIn d ∧ ss ≠ [] ∧ Span.InOrder ss := by
  obtain ⟨width, t, hwalks, hdescribes⟩ := exists_walks tree h
  have hstands : tree.StandsAt tree.cursor ⟨false, tree.documents.sort⟩ := by
    rw [← hdescribes.docs_eq]
    exact .walking hwalks fun v hv => hdescribes.shown_eq hv
  refine ⟨_, watch_eq (S := tree.StandsAt) (fun move a c hS => hS.moved move) hstands moves, rfl,
    ?_, fun d ss hmem => ?_⟩
  · refine List.pairwise_map.2 ((PlainCursor.pairwise_run moves _).imp ?_)
    rintro ⟨found, earlier⟩ ⟨found', later⟩ hstays hnone
    cases found with
    | true => cases hnone
    | false =>
      have hfound : found' = false := hstays rfl
      subst hfound
      rfl
  · obtain ⟨⟨found, c⟩, hrun, hsight⟩ := List.mem_map.1 hmem
    cases found with
    | false => cases hsight
    | true =>
      cases hsight
      have hd : c.doc ∈ tree.documents :=
        (Finset.mem_sort _).1 (PlainCursor.doc_mem_of_mem_run hrun rfl)
      exact ⟨hd, rfl, mem_documents.1 hd, inOrder_spansIn _ tree⟩

/-- A proximity that is skipped before it has moved, then back, and gives up while one of its
operands stands on a document. -/
theorem spans_run_plainly_uneven :
    let list := fun ps : List (Nat × List UInt32) => SpanTree.term
      (ps.map fun p => .ofOccurrences p.1 (p.2.map (⟨·, none⟩))) .positions []
    let tree : SpanTree := .nearby [list [(1, [0, 7]), (4, [2]), (6, [1])],
      .filtered (.anyOf [list [(1, [1]), (6, [9])], list [(4, [3]), (5, [1])]])
        (.minFrequency 1)] 0 true
    let moves : List Move := [.skipTo 2, .skipTo 0, .next, .next, .skipTo 1]
    watch SpanCursor.moved SpanCursor.sight moves tree.cursor =
      .ok [some (4, [⟨2, 4, []⟩]), some (4, [⟨2, 4, []⟩]), none, none, none] := by
  intro list tree moves
  have hreadable : tree.IsReadable := by
    refine ⟨⟨?_, ?_, ?_, ?_⟩, ⟨⟨?_, ?_, ?_, ?_⟩, ⟨?_, ?_, ?_, ?_⟩, trivial⟩, trivial⟩ <;> decide
  have hdocs : tree.documents.sort = [1, 4] := by
    rw [show tree.documents = [1, 4].toFinset from by cbv]
    exact (List.toFinset_sort (· ≤ ·) (by decide)).2 (by decide)
  obtain ⟨shown, hwatch, hshown, -⟩ := tree.spans_run_plainly hreadable moves
  rw [hwatch, hshown, hdocs]
  cbv

end SpanTree

end TextSearch
