import TextSearch.Proofs.Cursor.Runs
import TextSearch.Proofs.Search.Places
import TextSearch.Proofs.Search.Scores

/-!
# Trees of matchers as cursors

A `MatchTree` says how matchers are put together: posting lists at the leaves, unions,
intersections, exclusions and preferences above them. Its documents, and what a document
comes to, are told without any cursor. Main statement: `MatchTree.runs_plainly`, that the
matcher built from a tree is a plain cursor over the documents of the tree.
-/

namespace TextSearch

/-- How a tree of matchers is put together. -/
inductive MatchTree (R : Type) where
  /-- The documents of a posting list that pass its gates. -/
  | postings (ps : List Posting) (detail : Detail) (gates : List Threshold)
    (scorer : Option (BM25 R))
  /-- The documents of any of several trees. -/
  | anyOf (trees : List (MatchTree R))
  /-- The documents of all of several trees. -/
  | allOf (trees : List (MatchTree R))
  /-- The documents of a tree without those of others. -/
  | excluding (positive : MatchTree R) (negatives : List (MatchTree R))
  /-- The documents of a required tree. -/
  | preferring (required optional : MatchTree R)

namespace MatchTree

section Documents

variable {R : Type}

mutual

/-- Whether the posting lists at the leaves ascend and end before the mark of the end. -/
def IsOrdered : MatchTree R → Prop
  | postings ps _ _ _ =>
    (ps.Pairwise fun p q => p.doc < q.doc) ∧ ∀ p ∈ ps, p.doc < endOfDocs
  | anyOf trees => AllOrdered trees
  | allOf trees => AllOrdered trees
  | excluding positive negatives => positive.IsOrdered ∧ AllOrdered negatives
  | preferring required optional => required.IsOrdered ∧ optional.IsOrdered

/-- Whether the posting lists at the leaves of trees are in order. -/
def AllOrdered : List (MatchTree R) → Prop
  | [] => True
  | tree :: trees => tree.IsOrdered ∧ AllOrdered trees

end

mutual

/-- The documents of a tree. -/
def documents : MatchTree R → Finset Nat
  | postings ps _ gates _ => ((ps.filter (passes gates)).map (·.doc)).toFinset
  | anyOf trees => documentsOfAny trees
  | allOf trees => documentsOfAll trees
  | excluding positive negatives => positive.documents \ documentsOfAny negatives
  | preferring required _ => required.documents

/-- The documents of any of several trees. -/
def documentsOfAny : List (MatchTree R) → Finset Nat
  | [] => ∅
  | tree :: trees => tree.documents ∪ documentsOfAny trees

/-- The documents of all of several trees. Without trees there are none. -/
def documentsOfAll : List (MatchTree R) → Finset Nat
  | [] => ∅
  | [tree] => tree.documents
  | tree :: other :: trees => tree.documents ∩ documentsOfAll (other :: trees)

end

theorem mem_documentsOfAll {d : Nat} {trees : List (MatchTree R)} :
    d ∈ documentsOfAll trees ↔ trees ≠ [] ∧ ∀ tree ∈ trees, d ∈ tree.documents := by
  induction trees with
  | nil => simp [documentsOfAll]
  | cons tree trees ih =>
    cases trees with
    | nil => simp [documentsOfAll]
    | cons other trees =>
      rw [documentsOfAll, Finset.mem_inter, ih, List.forall_mem_cons (a := tree)]
      simp

mutual

/-- The matcher of a tree. -/
def build : MatchTree R → Except Fault (Matcher R)
  | postings ps detail gates scorer => .ok (.ofPostings ⟨.ofList ps detail, gates⟩ scorer)
  | anyOf trees => do
    let ms ← buildAll trees
    .ok (.anyOf ms)
  | allOf trees => do
    let ms ← buildAll trees
    Matcher.allOf ms
  | excluding positive negatives => do
    let m ← positive.build
    let ms ← buildAll negatives
    m.excluding ms
  | preferring required optional => do
    let m ← required.build
    let o ← optional.build
    m.preferring o

/-- The matchers of trees. -/
def buildAll : List (MatchTree R) → Except Fault (List (Matcher R))
  | [] => .ok []
  | tree :: trees => do
    let m ← tree.build
    let ms ← buildAll trees
    .ok (m :: ms)

end

end Documents

variable {R : Type} [ScoreNumber R]

mutual

/-- What a document of a tree comes to. -/
def merit (d : Nat) : MatchTree R → Merit R
  | postings ps _ _ scorer =>
    .ofPosting scorer ((ps.find? fun p => p.doc == d).getD (.ofFrequency d 0))
  | anyOf trees => .sum (meritsAt d trees)
  | allOf trees => .sum (meritsAt d trees)
  | excluding positive _ => positive.merit d
  | preferring required optional =>
    (required.merit d).prefer (if d ∈ optional.documents then some (optional.merit d) else none)

/-- What a document comes to in those of several trees that have it. -/
def meritsAt (d : Nat) : List (MatchTree R) → List (Merit R)
  | [] => []
  | tree :: trees =>
    if d ∈ tree.documents then tree.merit d :: meritsAt d trees else meritsAt d trees

end

/-! ### The trails of trees -/

/-- A trail goes once to every document of a tree, and shows what the document comes to. -/
structure Describes (tree : MatchTree R) (t : Trail (Merit R)) : Prop where
  /-- The documents ascend. -/
  simple : t.Simple
  /-- What is shown is what the documents come to. -/
  at? : ∀ d, t.at? d = if d ∈ tree.documents then some (tree.merit d) else none

namespace Describes

variable {tree : MatchTree R} {t : Trail (Merit R)}

theorem mem_docs (h : tree.Describes t) {d : Nat} : d ∈ t.docs ↔ d ∈ tree.documents := by
  rw [← Trail.isSome_at?_iff, h.at?]
  split <;> simp_all

theorem docs_eq (h : tree.Describes t) : t.docs = tree.documents.sort :=
  h.simple.docs_eq_sort fun _ => h.mem_docs

theorem shown_eq (h : tree.Describes t) {v : Visit (Merit R)} (hv : v ∈ t) :
    v.shown = tree.merit v.doc := by
  have hat := Trail.at?_of_mem h.simple.once hv
  rw [h.at?, if_pos (h.mem_docs.1 (Trail.mem_docs.2 ⟨v, hv, rfl⟩))] at hat
  exact (Option.some.inj hat).symm

/-- A trail may be described document by document, and visit by visit. -/
theorem of_visits (hsimple : t.Simple) (hdocs : ∀ d, d ∈ t.docs ↔ d ∈ tree.documents)
    (hshown : ∀ v ∈ t, v.shown = tree.merit v.doc) : tree.Describes t := by
  refine ⟨hsimple, fun d => ?_⟩
  cases hat : t.at? d with
  | none => rw [if_neg (mt (hdocs d).2 (Trail.at?_eq_none_iff.1 hat))]
  | some m =>
    have hmem := Trail.mem_of_at?_eq_some hat
    rw [if_pos ((hdocs d).1 (Trail.mem_docs.2 ⟨_, hmem, rfl⟩)), ← hshown _ hmem]

end Describes

variable {trees : List (MatchTree R)} {ts : List (Trail (Merit R))}

theorem forall_simple (h : List.Forall₂ Describes trees ts) : ∀ t ∈ ts, t.Simple := by
  induction h with
  | nil => exact List.forall_mem_nil _
  | cons htree _ ih => exact List.forall_mem_cons.2 ⟨htree.simple, ih⟩

theorem filterMap_at? (h : List.Forall₂ Describes trees ts) (d : Nat) :
    ts.filterMap (Trail.at? d) = meritsAt d trees := by
  induction h with
  | nil => rfl
  | @cons tree t trees ts htree _ ih =>
    rw [List.filterMap_cons, htree.at? d, ih, meritsAt]
    by_cases hd : d ∈ tree.documents
    · rw [if_pos hd, if_pos hd]
    · rw [if_neg hd, if_neg hd]

theorem meritsAt_eq_nil_iff {d : Nat} : meritsAt d trees = [] ↔ d ∉ documentsOfAny trees := by
  induction trees with
  | nil => simp [meritsAt, documentsOfAny]
  | cons tree trees ih =>
    rw [meritsAt, documentsOfAny, Finset.mem_union, not_or, ← ih]
    split <;> simp_all

theorem allAt?_eq (h : List.Forall₂ Describes trees ts) (d : Nat) :
    Trail.allAt? d ts =
      if ∀ tree ∈ trees, d ∈ tree.documents then some (meritsAt d trees) else none := by
  induction h with
  | nil => simp [Trail.allAt?, meritsAt]
  | @cons tree t trees ts htree _ ih =>
    rw [Trail.allAt?, htree.at? d, ih, meritsAt]
    simp only [List.forall_mem_cons]
    by_cases hd : d ∈ tree.documents
    · by_cases hall : ∀ tree ∈ trees, d ∈ tree.documents
      · rw [if_pos hd, if_pos hall, if_pos ⟨hd, hall⟩, if_pos hd]
      · rw [if_pos hd, if_neg hall, if_neg (mt And.right hall)]
    · rw [if_neg hd, if_neg (mt And.left hd)]

/-! ### The trails of combinations -/

theorem describes_postings {ps : List Posting} (hascending : ps.Pairwise fun p q => p.doc < q.doc)
    (hbounded : ∀ p ∈ ps, p.doc < endOfDocs) (detail : Detail) (gates : List Threshold)
    (scorer : Option (BM25 R)) :
    (postings ps detail gates scorer).Describes
      ((gatedVisits gates ps).showing (Merit.ofPosting scorer)) := by
  have hsimple : (gatedVisits gates ps).Simple :=
    ⟨(Posting.sound_trail hascending hbounded).sublist (List.filter_sublist.map _),
      Trail.nodup_docs_gatedVisits hascending gates⟩
  refine ⟨hsimple.showing _, fun d => ?_⟩
  have hmem : d ∈ (gatedVisits gates ps).docs ↔
      d ∈ (postings ps detail gates scorer).documents := by
    rw [documents, List.mem_toFinset, gatedVisits, Posting.trail, Trail.docs, List.map_map]
    rfl
  rw [← Trail.isSome_at?_iff, Trail.at?_gatedVisits hascending] at hmem
  rw [Trail.at?_showing, Trail.at?_gatedVisits hascending, merit]
  cases hfind : ps.find? fun p => p.doc == d with
  | none =>
    rw [hfind] at hmem
    rw [if_neg (mt hmem.2 Bool.false_ne_true)]
    rfl
  | some p =>
    rw [hfind] at hmem
    cases hp : passes gates p with
    | false =>
      rw [Option.filter_some_neg (by simp [hp])] at hmem ⊢
      rw [if_neg (mt hmem.2 Bool.false_ne_true), Option.map_none]
    | true =>
      rw [Option.filter_some_pos hp] at hmem ⊢
      rw [if_pos (hmem.1 rfl), Option.map_some, Option.getD_some]

theorem describes_anyOf (h : List.Forall₂ Describes trees ts) :
    (anyOf trees).Describes ((Trail.union ts).showing Merit.sum) := by
  refine ⟨(Trail.simple_union (forall_simple h)).showing _, fun d => ?_⟩
  rw [Trail.at?_showing, Trail.at?_union fun t ht => (forall_simple h t ht).sound,
    filterMap_at? h, documents, merit]
  by_cases hnil : meritsAt d trees = []
  · rw [if_pos hnil, if_neg (meritsAt_eq_nil_iff.1 hnil), Option.map_none]
  · rw [if_neg hnil, if_pos (not_not.1 (mt meritsAt_eq_nil_iff.2 hnil)), Option.map_some]

theorem describes_allOf (h : List.Forall₂ Describes trees ts) :
    (allOf trees).Describes ((Trail.meet ts).showing Merit.sum) := by
  refine ⟨(Trail.simple_meet (forall_simple h)).showing _, fun d => ?_⟩
  rw [Trail.at?_showing, documents, merit]
  cases h with
  | nil => rfl
  | @cons tree t trees ts htree htrees =>
    have hmem : d ∈ documentsOfAll (tree :: trees) ↔
        ∀ other ∈ tree :: trees, d ∈ other.documents := by
      rw [mem_documentsOfAll]
      exact and_iff_right (List.cons_ne_nil _ _)
    rw [Trail.at?_meet, allAt?_eq (.cons htree htrees)]
    by_cases hd : d ∈ documentsOfAll (tree :: trees)
    · rw [if_pos (hmem.1 hd), if_pos hd, Option.map_some]
    · rw [if_neg (mt hmem.2 hd), if_neg hd, Option.map_none]

theorem describes_excluding {positive : MatchTree R} {t : Trail (Merit R)}
    (hpositive : positive.Describes t) (h : List.Forall₂ Describes trees ts) :
    (excluding positive trees).Describes (t.without ts) := by
  have hany : ∀ d, (∀ n ∈ ts, d ∉ Trail.docs n) ↔ d ∉ documentsOfAny trees := by
    intro d
    rw [← meritsAt_eq_nil_iff, ← filterMap_at? h, List.filterMap_eq_nil_iff]
    simp [Trail.at?_eq_none_iff]
  refine .of_visits (hpositive.simple.sublist List.filter_sublist) (fun d => ?_) fun v hv => ?_
  · rw [Trail.mem_docs_without, hpositive.mem_docs, hany, documents, Finset.mem_sdiff]
  · exact hpositive.shown_eq (Trail.mem_without.1 hv).1

theorem describes_preferring {required optional : MatchTree R} {t o : Trail (Merit R)}
    (hrequired : required.Describes t) (hoptional : optional.Describes o) :
    (preferring required optional).Describes
      (MatchPreference.accompanied Merit.prefer o t) := by
  refine ⟨TrailParts.simple_accompanied hrequired.simple o, fun d => ?_⟩
  rw [TrailParts.at?_accompanied, hrequired.at?, hoptional.at?, documents, merit]
  by_cases hd : d ∈ required.documents
  · rw [if_pos hd, if_pos hd, Option.map_some]
  · rw [if_neg hd, if_neg hd, Option.map_none]

mutual

/-- The matcher of a tree can be built, and follows a trail that describes the tree. -/
theorem exists_build : ∀ tree : MatchTree R, tree.IsOrdered →
    ∃ m t, tree.build = .ok m ∧ m.Walks t ∧ tree.Describes t
  | postings ps detail gates scorer, h => by
    obtain ⟨hascending, hbounded⟩ := h
    have hcursor := PostingCursor.walks_ofList (Posting.sound_trail hascending hbounded) detail gates
    exact ⟨_, _, rfl, Matcher.walks_ofPostings hcursor scorer,
      describes_postings hascending hbounded detail gates scorer⟩
  | anyOf trees, h => by
    obtain ⟨ms, ts, hms, hwalks, hdescribe⟩ := exists_buildAll trees h
    refine ⟨.anyOf ms, _, ?_, Matcher.walks_anyOf hwalks, describes_anyOf hdescribe⟩
    rw [build, hms]
    rfl
  | allOf trees, h => by
    obtain ⟨ms, ts, hms, hwalks, hdescribe⟩ := exists_buildAll trees h
    obtain ⟨m, hm, hwalk⟩ := Matcher.walks_allOf hwalks
    refine ⟨m, _, ?_, hwalk, describes_allOf hdescribe⟩
    rw [build, hms]
    exact hm
  | excluding positive negatives, h => by
    obtain ⟨m, t, hm, hwalk, hdescribes⟩ := exists_build positive h.1
    obtain ⟨ms, ts, hms, hwalks, hdescribe⟩ := exists_buildAll negatives h.2
    obtain ⟨m', hm', hwalk'⟩ := Matcher.walks_excluding hwalk hwalks
    refine ⟨m', _, ?_, hwalk', describes_excluding hdescribes hdescribe⟩
    rw [build, hm, hms]
    exact hm'
  | preferring required optional, h => by
    obtain ⟨m, t, hm, hwalk, hdescribes⟩ := exists_build required h.1
    obtain ⟨o, u, ho, hwalk', hdescribes'⟩ := exists_build optional h.2
    obtain ⟨m', hm', hwalk''⟩ := Matcher.walks_preferring hwalk hwalk'
    refine ⟨m', _, ?_, hwalk'', describes_preferring hdescribes hdescribes'⟩
    rw [build, hm, ho]
    exact hm'

/-- The matchers of trees can be built, and follow trails that describe the trees. -/
theorem exists_buildAll : ∀ trees : List (MatchTree R), AllOrdered trees →
    ∃ ms ts, buildAll trees = .ok ms ∧ List.Forall₂ Matcher.Walks ms ts ∧
      List.Forall₂ Describes trees ts
  | [], _ => ⟨[], [], rfl, .nil, .nil⟩
  | tree :: trees, h => by
    obtain ⟨m, t, hm, hwalk, hdescribes⟩ := exists_build tree h.1
    obtain ⟨ms, ts, hms, hwalks, hdescribe⟩ := exists_buildAll trees h.2
    refine ⟨m :: ms, t :: ts, ?_, .cons hwalk hwalks, .cons hdescribes hdescribe⟩
    rw [buildAll, hm, hms]
    rfl

end

end MatchTree

/-! ### Runs -/

namespace Matcher

variable {R : Type} [ScoreNumber R]

omit [ScoreNumber R] in
/-- Whether a move finds a document, and the matcher after it. -/
def moved : Move → Matcher R → Except Fault (Bool × Matcher R)
  | .next, m => m.next
  | .skipTo target, m => m.skipTo target

/-- What can be seen of a matcher: its document, whether it is exhausted, and what its document
comes to unless there is none. -/
def sight (m : Matcher R) : Nat × Bool × Option (Merit R) :=
  (m.doc, m.exhausted, if m.exhausted then none else some m.merit)

end Matcher

namespace MatchTree

variable {R : Type} [ScoreNumber R]

/-- What there is to see of a tree where a plain cursor stands. -/
def sightAt (tree : MatchTree R) (c : PlainCursor) : Nat × Bool × Option (Merit R) :=
  (c.doc, c.rest.isEmpty, if c.rest.isEmpty then none else some (tree.merit c.doc))

/-- A matcher that stands where a plain cursor over its documents does. -/
def StandsAt (tree : MatchTree R) (m : Matcher R) (c : PlainCursor) : Prop :=
  ∃ t, m.Walks t ∧ (∀ v ∈ t, v.shown = tree.merit v.doc) ∧ c = ⟨true, t.docs⟩

theorem StandsAt.sight {tree : MatchTree R} {m : Matcher R} {c : PlainCursor}
    (h : tree.StandsAt m c) : m.sight = tree.sightAt c := by
  obtain ⟨t, hwalks, hshown, rfl⟩ := h
  cases t with
  | nil =>
    rw [Matcher.sight, hwalks.doc, hwalks.exhausted]
    rfl
  | cons v t =>
    have hmerit : m.merit = tree.merit v.doc := by
      rw [Matcher.merit, hwalks.frequency, hwalks.score, ← hshown v (List.mem_cons_self ..)]
    rw [Matcher.sight, hwalks.doc, hwalks.exhausted, hmerit]
    rfl

/-- A move takes a matcher to where it takes a plain cursor. -/
theorem StandsAt.moved {tree : MatchTree R} {m : Matcher R} {c : PlainCursor}
    (h : tree.StandsAt m c) (move : Move) :
    ∃ m', m.moved move = .ok ((c.moved move).1, m') ∧ tree.StandsAt m' (c.moved move).2 := by
  obtain ⟨t, hwalks, hshown, rfl⟩ := h
  have hleaves : ∃ u : Trail (Merit R), u.Sublist t ∧ u.docs = PlainCursor.left move ⟨true, t.docs⟩ ∧
      Leaves Matcher.Walks (m.moved move) u := by
    cases move with
    | next => exact ⟨t.tail, List.tail_sublist t, List.map_tail .., hwalks.next⟩
    | skipTo target =>
      exact ⟨t.since target, Trail.since_sublist target t, Trail.docs_since target t,
        hwalks.skipTo target⟩
  obtain ⟨u, hsublist, hdocs, m', hm', hwalks'⟩ := hleaves
  refine ⟨m', ?_, u, hwalks', fun v hv => hshown v (hsublist.subset hv), ?_⟩
  · rw [hm', PlainCursor.moved, ← hdocs, Trail.docs, List.isEmpty_map]
  · rw [PlainCursor.moved, ← hdocs]

/-- The matcher of a tree over posting lists in ascending order is a plain cursor over the
documents of the tree, on the first of which it stands. Every run of moves goes through, with
the answers and the documents of the plain cursor, and until it is exhausted the matcher shows
what its document comes to, whatever moves have led there. -/
theorem runs_plainly (tree : MatchTree R) (h : tree.IsOrdered) :
    ∃ m, tree.build = .ok m ∧ m.sight = tree.sightAt ⟨true, tree.documents.sort⟩ ∧
      ∀ moves : List Move, watch Matcher.moved (Prod.map id Matcher.sight) moves m =
        .ok ((PlainCursor.run moves ⟨true, tree.documents.sort⟩).map
          (Prod.map id tree.sightAt)) := by
  obtain ⟨m, t, hbuild, hwalks, hdescribes⟩ := exists_build tree h
  have hstands : tree.StandsAt m ⟨true, tree.documents.sort⟩ :=
    ⟨t, hwalks, fun v hv => hdescribes.shown_eq hv, by rw [hdescribes.docs_eq]⟩
  refine ⟨m, hbuild, hstands.sight, watch_eq (S := tree.StandsAt) (fun move a c hS => ?_) hstands⟩
  obtain ⟨m', hm', hS'⟩ := hS.moved move
  exact ⟨_, hm', congrArg (Prod.mk _) hS'.sight, hS'⟩

/-- A tree of all kinds of matchers, moved beyond its target, back, and past its end. -/
theorem runs_plainly_mixed :
    let list := fun docs => MatchTree.postings (R := ℚ) (docs.map fun d => .ofFrequency d (d + 1))
      .frequencies [] (some (.ofTerm 2 1 9 1))
    let tree : MatchTree ℚ := .excluding
      (.preferring (.anyOf [list [1, 4, 7], .allOf [list [2, 7, 9], list [3, 9]]]) (list [4, 8]))
      [list [0, 7]]
    let moves : List Move := [.skipTo 3, .skipTo 1, .next, .next, .skipTo 0]
    ∃ m, tree.build = .ok m ∧ watch Matcher.moved (Prod.map id Matcher.sight) moves m =
      .ok ([(true, ⟨true, [4, 9]⟩), (true, ⟨true, [4, 9]⟩), (true, ⟨true, [9]⟩), (false, ⟨true, []⟩),
        (false, ⟨true, []⟩)].map (Prod.map id tree.sightAt)) := by
  intro list tree moves
  have hlist : ∀ docs : List Nat, docs.Pairwise (· < ·) → (∀ d ∈ docs, d < endOfDocs) →
      (list docs).IsOrdered := fun docs hascending hbounded =>
    ⟨List.pairwise_map.2 hascending, List.forall_mem_map.2 hbounded⟩
  have hordered : tree.IsOrdered := by
    refine ⟨⟨⟨hlist _ ?_ ?_, ⟨hlist _ ?_ ?_, hlist _ ?_ ?_, trivial⟩, trivial⟩, hlist _ ?_ ?_⟩,
      hlist _ ?_ ?_, trivial⟩ <;> decide
  have hdocs : tree.documents.sort = [1, 4, 9] := by
    rw [show tree.documents = [1, 4, 9].toFinset from by decide +kernel]
    exact (List.toFinset_sort (· ≤ ·) (by decide)).2 (by decide)
  obtain ⟨m, hbuild, -, hruns⟩ := tree.runs_plainly hordered
  refine ⟨m, hbuild, (hruns moves).trans ?_⟩
  rw [hdocs]
  rfl

end MatchTree

end TextSearch
