import Mathlib.Data.List.Perm.Basic
import TextSearch.Proofs.Cursor.Comparison
import TextSearch.Proofs.Index.Lookup
import TextSearch.Proofs.Index.Runs
import TextSearch.Proofs.Score.Exact
import TextSearch.Proofs.Span.Bare
import TextSearch.Proofs.Span.Coverage

/-!
# The order of the clauses of a proximity

Where the clauses of a proximity may match in any order, it makes no difference in which order
they are listed, but for the order of the payloads of a match. This is so for the matches
of one document (`Span.near_reordered`) and for every run of moves of the cursors, whichever clause
leads them: `SpanTree.clause_order_irrelevant`. It takes clauses that visit no document twice.
-/

namespace TextSearch

namespace Span

/-- Spans in the same places; the same spans altogether where none of them has a payload. -/
structure Reordered (ss us : List Span) : Prop where
  places : SamePlaces ss us
  eq_of_bare : (∀ s ∈ ss, s.payloads = []) → ss = us

theorem overlaps_comm (s t : Span) : s.overlaps t = t.overlaps s := Bool.and_comm ..

theorem legal_perm {pick pick' : List Span} (h : pick.Perm pick') :
    legal false pick = legal false pick' := by
  simp only [legal, Bool.false_eq_true, if_false]
  exact decide_eq_decide.2 (h.pairwise_iff fun {s t} hst => by rw [overlaps_comm, hst])

theorem covered_perm {pick pick' : List Span} (h : pick.Perm pick') :
    covered pick = covered pick' := by
  refine (h.map length).foldl_eq' (fun a _ b _ n => ?_) 0
  rw [UInt32.add_assoc, UInt32.add_comm a b, ← UInt32.add_assoc]

/-- What a pick makes up is made up by the same spans in another order, with the payloads in that
order. -/
theorem combine_perm {slop : UInt32} {pick pick' : List Span} (h : pick.Perm pick') {whole : Span}
    (hwhole : combine slop pick = some whole) :
    combine slop pick' = some { whole with payloads := pick'.flatMap (·.payloads) } := by
  cases pick with
  | nil => cases hwhole
  | cons first others =>
    cases pick' with
    | nil => cases h.symm.nil_eq
    | cons first' others' =>
      have hjoins := joins_hull first others
      have hhull : hull first' others' =
          { hull first others with payloads := (first' :: others').flatMap (·.payloads) } := by
        refine (joins_hull first' others').unique ?_
        exact {
          start_mem := hjoins.start_mem.imp fun s hs => ⟨h.mem_iff.1 hs.1, hs.2⟩
          start_le := fun s hs => hjoins.start_le s (h.mem_iff.2 hs)
          stop_mem := hjoins.stop_mem.imp fun s hs => ⟨h.mem_iff.1 hs.1, hs.2⟩
          le_stop := fun s hs => hjoins.le_stop s (h.mem_iff.2 hs)
          payloads_eq := rfl }
      rw [combine_cons] at hwhole ⊢
      rw [hhull, ← covered_perm h]
      split at hwhole
      · cases hwhole
      · next hfits =>
        cases hwhole
        exact if_neg hfits

variable {clauses clauses' : List (List Span)}

/-- To every match of clauses there is one of the clauses in another order, in the same place, and
with a payload if the first one has any. -/
theorem exists_near_of_perm (h : clauses.Perm clauses') {slop : UInt32} {s : Span}
    (hs : s ∈ near slop false clauses) : ∃ s' ∈ near slop false clauses',
      s'.bare = s.bare ∧ (s'.payloads = [] ↔ s.payloads = []) := by
  obtain ⟨pick, hpick, hlegal, hcombine⟩ := mem_near.1 hs
  obtain ⟨pick', hpick', hperm⟩ :
      ∃ pick', pick.Perm pick' ∧ List.Forall₂ (· ∈ ·) pick' clauses' := by
    have hcomp : Relation.Comp (List.Forall₂ (· ∈ ·)) List.Perm pick clauses' := ⟨clauses, hpick, h⟩
    rwa [List.forall₂_comp_perm_eq_perm_comp_forall₂] at hcomp
  refine ⟨_, mem_near.2 ⟨pick', hperm, (legal_perm hpick') ▸ hlegal, combine_perm hpick' hcombine⟩,
    rfl, ?_⟩
  rw [payloads_eq_of_combine hcombine, List.flatMap_eq_nil_iff, List.flatMap_eq_nil_iff]
  exact forall_congr' fun t => imp_congr_left hpick'.mem_iff.symm

/-- The matches of clauses in any order are those of the clauses in another order, but for the
order of their payloads. -/
theorem near_reordered (h : clauses.Perm clauses') (slop : UInt32) :
    Reordered (near slop false clauses) (near slop false clauses') := by
  have hplaces : ∀ {clauses clauses' : List (List Span)}, clauses.Perm clauses' → ∀ s,
      s ∈ (near slop false clauses).map bare → s ∈ (near slop false clauses').map bare := by
    intro clauses clauses' h s hs
    obtain ⟨t, ht, rfl⟩ := List.mem_map.1 hs
    obtain ⟨t', ht', hbare, -⟩ := exists_near_of_perm h ht
    exact List.mem_map.2 ⟨t', ht', hbare⟩
  refine ⟨fun s => ⟨hplaces h s, hplaces h.symm s⟩, fun hnone => ?_⟩
  have hsame : ∀ {s s' : Span}, s'.bare = s.bare → s.payloads = [] → s'.payloads = [] → s' = s := by
    rintro ⟨start, stop, payloads⟩ ⟨start', stop', payloads'⟩ hbare hs hs'
    simp only at hs hs'
    subst hs hs'
    exact hbare
  have hmem : ∀ s, s ∈ near slop false clauses ↔ s ∈ near slop false clauses' := by
    intro s
    constructor
    · intro hs
      obtain ⟨s', hs', hbare, hnil⟩ := exists_near_of_perm h hs
      rwa [← hsame hbare (hnone s hs) (hnil.2 (hnone s hs))]
    · intro hs
      obtain ⟨s', hs', hbare, hnil⟩ := exists_near_of_perm h.symm hs
      rwa [← hsame hbare (hnil.1 (hnone s' hs')) (hnone s' hs')]
  exact (inOrder_distinct _).eq_of_perm (inOrder_distinct _)
    ((List.perm_ext_iff_of_nodup (nodup_distinct _) (nodup_distinct _)).2 hmem)

/-- The start and the end of a span. -/
def place (s : Span) : UInt32 × UInt32 := (s.start, s.stop)

theorem SamePlaces.mem_map_place {ss us : List Span} (h : SamePlaces ss us)
    (place : UInt32 × UInt32) : place ∈ ss.map Span.place ↔ place ∈ us.map Span.place := by
  have hbare : ∀ ss : List Span,
      place ∈ ss.map Span.place ↔ (⟨place.1, place.2, []⟩ : Span) ∈ ss.map bare := by
    intro ss
    simp only [List.mem_map]
    refine exists_congr fun s => and_congr_right fun _ => ?_
    rw [Span.place, bare, Span.mk.injEq, Prod.ext_iff]
    simp only [and_true]
  rw [hbare, hbare]
  exact h _

end Span

/-! ### Cursors -/

/-- What a cursor tells of a document. -/
structure SpanView (R : Type) where
  /-- The document. -/
  doc : Nat
  /-- The spans in it. -/
  spans : List Span
  /-- How often they count, less the wider they are. -/
  frequency : R

/-- What is told after a move, if it has found a document. -/
def SpanCursor.view (R : Type) [ScoreNumber R] (outcome : Bool × SpanCursor) :
    Option (SpanView R) :=
  if outcome.1 then some ⟨outcome.2.doc, outcome.2.spans, outcome.2.sloppyFreq⟩ else none

/-- The same document with spans in the same places. Unless a span has a payload they count as
often. -/
structure SpanView.Agrees {R : Type} (x y : SpanView R) : Prop where
  doc_eq : x.doc = y.doc
  places : ∀ place, place ∈ x.spans.map Span.place ↔ place ∈ y.spans.map Span.place
  frequency_eq : (∀ s ∈ x.spans, s.payloads = []) → x.frequency = y.frequency

theorem SpanCursor.view_agrees {R : Type} [ScoreNumber R] {width : UInt32}
    {outcome outcome' : Bool × SpanCursor}
    (h : AnswersAlike Span.Reordered width width outcome outcome') :
    Option.Rel SpanView.Agrees (view R outcome) (view R outcome') := by
  unfold view
  rw [← h.found_eq]
  by_cases hfound : outcome.1 = true
  · obtain ⟨hwidth, hwidth'⟩ := h.widths hfound
    have hspans := h.spans hfound
    rw [if_pos hfound, if_pos hfound]
    refine .some ⟨h.doc_eq hfound, hspans.places.mem_map_place, fun hnone => ?_⟩
    show outcome.2.sloppyFreq = outcome'.2.sloppyFreq
    unfold sloppyFreq
    rw [hspans.eq_of_bare hnone, hwidth, hwidth']
  · rw [if_neg hfound, if_neg hfound]
    exact .none

namespace SpanTree

mutual

/-- Whether the posting lists at the leaves are opened with positions and in strict order of
documents, so that no document comes twice. Postings may be without positions. -/
def IsWalkable : SpanTree → Prop
  | term ps detail _ => detail.hasPositions = true ∧ (ps.Pairwise fun p q => p.doc < q.doc) ∧
      ∀ p ∈ ps, p.doc < endOfDocs
  | filtered tree _ => tree.IsWalkable
  | anyOf trees => AllWalkable trees
  | nearby trees _ _ => AllWalkable trees

/-- Whether that is so for all of several trees. -/
def AllWalkable : List SpanTree → Prop
  | [] => True
  | tree :: trees => tree.IsWalkable ∧ AllWalkable trees

end

mutual

/-- The cursor of a tree visits no document twice. -/
theorem fresh_cursor : ∀ tree : SpanTree, tree.IsWalkable → tree.cursor.Fresh
  | term _ _ gates, ⟨hpos, hascending, hbounded⟩ =>
    SpanCursor.fresh_ofPostings hpos hascending hbounded gates
  | filtered tree filter, h => (fresh_cursor tree h).filtered filter
  | anyOf trees, h => SpanCursor.fresh_anyOf (fresh_cursors trees h)
  | nearby trees slop inOrder, h => SpanCursor.fresh_nearby (fresh_cursors trees h) slop inOrder

theorem fresh_cursors : ∀ trees : List SpanTree, AllWalkable trees → ∀ c ∈ cursors trees, c.Fresh
  | [], _ => List.forall_mem_nil _
  | tree :: trees, h =>
    List.forall_mem_cons.2 ⟨fresh_cursor tree h.1, fresh_cursors trees h.2⟩

end

theorem cursors_eq_map (trees : List SpanTree) : cursors trees = trees.map cursor := by
  induction trees with
  | nil => rfl
  | cons tree trees ih => rw [cursors, ih, List.map_cons]

/-- In every run of moves, a proximity in any order finds the same documents, in them the same
places, and, where no span of the document has a payload, the same frequency, in whatever order
its clauses are listed. -/
theorem clause_order_irrelevant {R : Type} [ScoreNumber R] {trees trees' : List SpanTree}
    (hperm : trees.Perm trees') (hwalkable : ∀ tree ∈ trees, tree.IsWalkable) (slop : UInt32)
    (moves : List Move) :
    ∃ shown shown',
      watch SpanCursor.moved (SpanCursor.view R) moves (nearby trees slop false).cursor =
          .ok shown ∧
        watch SpanCursor.moved (SpanCursor.view R) moves (nearby trees' slop false).cursor =
          .ok shown' ∧
        List.Forall₂ (Option.Rel SpanView.Agrees) shown shown' := by
  have hfresh : ∀ c ∈ cursors trees, c.Fresh := by
    rw [cursors_eq_map]
    exact List.forall_mem_map.2 fun tree htree => fresh_cursor tree (hwalkable tree htree)
  have hcursors : (cursors trees').Perm (cursors trees) := by
    rw [cursors_eq_map, cursors_eq_map]
    exact hperm.symm.map cursor
  obtain ⟨sources, hwalks, hsimple⟩ := SpanCursor.exists_sources hfresh
  -- the trails of the clauses come in the other order too
  obtain ⟨sources', hwalks', hsources⟩ := List.perm_comp_forall₂ hcursors hwalks
  have htrails : (sources'.map (·.2)).Perm (sources.map (·.2)) := hsources.map _
  have hsimple' : ∀ t ∈ sources'.map (·.2), t.Simple := fun t ht => hsimple t (htrails.mem_iff.1 ht)
  have halike : Trail.Alike Span.Reordered
      (SpanProximity.matched slop false (sources.map (·.2)))
      (SpanProximity.matched slop false (sources'.map (·.2))) := by
    refine Trail.alike_of_listed (SpanProximity.tidy_matched hsimple slop false)
      (SpanProximity.tidy_matched hsimple' slop false) (fun _ _ h => h.places.eq_nil_iff)
      fun d => ?_
    rw [SpanProximity.listed_matched hsimple, SpanProximity.listed_matched hsimple']
    exact Span.near_reordered (htrails.symm.map _) slop
  have hnear := SpanCursor.walks_nearby hwalks slop false
  have hnear' := SpanCursor.walks_nearby hwalks' slop false
  rw [hsources.length_eq] at hnear'
  exact SpanCursor.forall₂_watch_of_alike hnear hnear' halike
    (fun _ _ h => SpanCursor.view_agrees h) moves

/-- Three clauses, one of them a union and one with a gate, led by the first and by the last. -/
theorem clause_order_irrelevant_three :
    let list := fun ps : List (Nat × List UInt32) =>
      ps.map fun p => Posting.ofOccurrences p.1 (p.2.map (⟨·, none⟩))
    let first := SpanTree.term (list [(1, [0, 7]), (4, [2]), (6, [1])]) .positions []
    let second := SpanTree.anyOf [.term (list [(1, [1]), (6, [9])]) .payloads [],
      .term (list [(4, [3]), (5, [1])]) .positions []]
    let third := SpanTree.term (list [(0, [3]), (4, [1, 5]), (6, [8])]) .positions
      [⟨2, by decide⟩]
    let trees := [first, second, third]
    let trees' := [third, first, second]
    let moves : List Move := [.skipTo 2, .next, .next]
    trees.Perm trees' ∧ (∀ tree ∈ trees, tree.IsWalkable) ∧
      ∃ shown shown',
        watch SpanCursor.moved (SpanCursor.view ℚ) moves (nearby trees 0 false).cursor =
            .ok shown ∧
          watch SpanCursor.moved (SpanCursor.view ℚ) moves (nearby trees' 0 false).cursor =
            .ok shown' ∧
          List.Forall₂ (Option.Rel SpanView.Agrees) shown shown' := by
  intro list first second third trees trees' moves
  have hfirst : first.IsWalkable := ⟨rfl, by decide, by decide⟩
  have hsecond : second.IsWalkable :=
    ⟨⟨rfl, by decide, by decide⟩, ⟨rfl, by decide, by decide⟩, trivial⟩
  have hthird : third.IsWalkable := ⟨rfl, by decide, by decide⟩
  have hwalkable : ∀ tree ∈ trees, tree.IsWalkable := by
    simp only [trees, List.forall_mem_cons]
    exact ⟨hfirst, hsecond, hthird, List.forall_mem_nil _⟩
  have hperm : trees.Perm trees' := by
    show ([first, second] ++ [third]).Perm ([third] ++ [first, second])
    exact List.perm_append_comm
  exact ⟨hperm, hwalkable, clause_order_irrelevant hperm hwalkable 0 moves⟩

/-- A document that names a field twice comes twice in the list of a term with tokens in both. A
proximity that is led by the other term then finds the document once only, with what its own
first entry has, and misses the match in the second one. -/
theorem clause_order_matters_named_twice :
    let steps : List BuilderStep :=
      [.add [("body", [⟨"a", 0, none⟩]), ("body", [⟨"a", 4, none⟩, ⟨"b", 5, none⟩])]]
    let list := fun os : List UInt32 => os.map fun o => Posting.ofOccurrences 0 [⟨o, none⟩]
    let tree := fun ps => SpanTree.term ps .positions []
    (Snapshot.ofSteps [("body", .positions)] steps 0).segments.map
        (fun g => (g.postings? ⟨"body", "a"⟩, g.postings? ⟨"body", "b"⟩)) =
          [(some (list [0, 4]), some (list [5]))] ∧
      watch SpanCursor.moved SpanCursor.sight [.next]
        (nearby [tree (list [0, 4]), tree (list [5])] 0 false).cursor =
          .ok [some (0, [⟨4, 6, []⟩])] ∧
      watch SpanCursor.moved SpanCursor.sight [.next]
        (nearby [tree (list [5]), tree (list [0, 4])] 0 false).cursor = .ok [none] := by
  intro steps list tree
  refine ⟨by decide +kernel, by cbv, by cbv⟩

end SpanTree

end TextSearch
