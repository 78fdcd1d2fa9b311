import TextSearch.Proofs.Search.Collecting
import TextSearch.Proofs.Search.Opening
import TextSearch.Search.Execution

/-!
# Results of searches

A search that succeeds answers with what collecting the hits of the grounded query
comes to, segment by segment. The hits of a grounded query in a segment are the
visits of its trail under global ids.
-/

namespace TextSearch

variable {R : Type} [ScoreNumber R]

namespace Query

/-- The hits of a grounded query in a segment, under global ids. -/
def segmentHits (s : Snapshot) (q : Query) (g : Segment) : List (Hit R) :=
  (q.trail? s g true (ScoreNumber.one : R)).elim [] fun t =>
    t.map fun v => ⟨g.docBase + v.doc, v.shown.score⟩

/-- The documents that a grounded query matches in a segment, under global ids. -/
def segmentDocs (R : Type) [ScoreNumber R] (s : Snapshot) (q : Query) (g : Segment) : List Nat :=
  (q.segmentHits (R := R) s g).map (·.doc)

end Query

namespace Weighing

theorem hits_of_opens {s : Snapshot} {g : Segment} {q : Query} {w : Weight R}
    (h : Opens s g true (ScoreNumber.one : R) q w) {hs : List (Hit R)} (hhits : w.hits g = .ok hs) :
    hs = q.segmentHits s g := by
  rw [Weight.hits] at hhits
  obtain ⟨opened, hopened, hhits⟩ := except_bind_eq_ok.1 hhits
  have hrel := h opened hopened
  rw [Query.segmentHits]
  generalize q.trail? s g true (ScoreNumber.one : R) = t at hrel
  cases hrel with
  | none =>
    cases hhits
    rfl
  | some hm =>
    simp only [hm.hits, bind, Except.bind, pure, Except.pure, Except.ok.injEq] at hhits
    rw [← hhits, Matcher.hitsOf, List.map_map]
    rfl

/-- What does not look anything up may be done for one member of a list after the other. -/
theorem yields_mapM_lift {α β : Type} {f : α → Except Fault β} {c c' : LookupCache} :
    ∀ {xs : List α} {ys : List β},
      Yields (xs.mapM fun x => (f x : Weighing β)) c ys c' →
        List.Forall₂ (fun x y => f x = .ok y) xs ys ∧ c' = c
  | [], ys, h => by
    rw [List.mapM_nil] at h
    obtain ⟨rfl, rfl⟩ := yields_pure.1 h
    exact ⟨.nil, rfl⟩
  | x :: xs, ys, h => by
    rw [List.mapM_cons] at h
    obtain ⟨y, c₁, hy, h⟩ := yields_bind.1 h
    obtain ⟨rest, c₂, hrest, h⟩ := yields_bind.1 h
    obtain ⟨rfl, rfl⟩ := yields_pure.1 h
    obtain ⟨hfirst, rfl⟩ := yields_lift.1 hy
    obtain ⟨hforall, rfl⟩ := yields_mapM_lift hrest
    exact ⟨.cons hfirst hforall, rfl⟩

end Weighing

namespace Searcher

open Weighing

/-- To prepare a query is to ground it and to bind what it comes to. -/
theorem yields_prepare_iff {s : Searcher} {scored : Bool} {q : Query} {c c' : LookupCache}
    {w : Weight R} : Yields (s.prepare scored q) c w c' ↔
      ∃ r, s.grounded q = .ok r ∧
        Yields (weight s.snapshot scored ScoreNumber.one r) c w c' := by
  rw [prepare, yields_bind]
  constructor
  · rintro ⟨r, c₁, hr, hw⟩
    obtain ⟨hgrounded, rfl⟩ := yields_lift.1 hr
    exact ⟨r, hgrounded, hw⟩
  · rintro ⟨r, hr, hw⟩
    exact ⟨r, c, yields_lift.2 ⟨hr, rfl⟩, hw⟩

/-- A prepared query was grounded, and its weight opens what the grounded query comes to. -/
theorem opens_of_yields_prepare {s : Searcher} (hs : s.snapshot.Numbered)
    (hsound : ∀ g ∈ s.snapshot.segments, g.Sound) {scored : Bool} {q : Query}
    {c c' : LookupCache} {w : Weight R} (hc : c.Sound s.snapshot)
    (h : Yields (s.prepare scored q) c w c') :
    ∃ q', s.grounded q = .ok q' ∧ (q'.Honest s.snapshot →
      (∀ g ∈ s.snapshot.segments, Opens s.snapshot g scored ScoreNumber.one q' w) ∧
        c'.Sound s.snapshot) := by
  obtain ⟨q', hgrounded, hw⟩ := yields_prepare_iff.1 h
  exact ⟨q', hgrounded, fun hhonest => opens_of_yields_weight hs hsound q' hhonest hc hw⟩

/-- A search that succeeds collects the hits of the grounded query, segment by segment. -/
theorem topDocs_of_yields_search {s : Searcher} (hs : s.snapshot.Numbered)
    (hsound : ∀ g ∈ s.snapshot.segments, g.Sound) {size : Nat} {q : Query}
    {c c' : LookupCache} {top : TopDocs R} (hc : c.Sound s.snapshot)
    (h : Yields (s.search size q) c top c') :
    ∃ q', s.grounded q = .ok q' ∧ (q'.Honest s.snapshot →
      top = (TopHits.ofParts size (s.snapshot.segments.map (q'.segmentHits s.snapshot))).topDocs ∧
        c'.Sound s.snapshot) := by
  rw [search] at h
  obtain ⟨w, c₁, hw, h⟩ := yields_bind.1 h
  obtain ⟨found, c₂, hfound, h⟩ := yields_bind.1 h
  obtain ⟨rfl, rfl⟩ := yields_pure.1 h
  obtain ⟨q', hgrounded, hopens⟩ := opens_of_yields_prepare hs hsound hc hw
  refine ⟨q', hgrounded, fun hhonest => ?_⟩
  obtain ⟨hweight, hc₁⟩ := hopens hhonest
  obtain ⟨hforall, rfl⟩ := yields_mapM_lift hfound
  have hsame : found = s.snapshot.segments.map (q'.segmentHits s.snapshot) := by
    rw [← List.forall₂_eq_eq_eq, List.forall₂_map_right_iff]
    exact (forall₂_imp_of_mem hforall fun g hg hs hhits => hits_of_opens (hweight g hg) hhits).flip
  rw [hsame]
  exact ⟨rfl, hc₁⟩

/-- The outcome of a search that was carried out, by its total and its documents. -/
theorem exists_yields_search_eq (s : Searcher) (size : Nat) (q : Query) (c : LookupCache)
    (total : Nat) (docs : List Nat)
    (h : ((s.search (R := R) size q).run.run c).1.toOption.map
      (fun top => (top.totalHits, top.hits.map (·.doc))) = some (total, docs)) :
    ∃ (top : TopDocs R) (c' : LookupCache), Yields (s.search size q) c top c' ∧
      top.totalHits = total ∧ top.hits.map (·.doc) = docs := by
  rcases hrun : (s.search (R := R) size q).run.run c with ⟨e | top, c'⟩
  · rw [hrun] at h
    cases h
  · rw [hrun] at h
    obtain ⟨htotal, hdocs⟩ := Prod.mk.inj (Option.some.inj h)
    exact ⟨top, c', hrun, htotal, hdocs⟩

end Searcher

end TextSearch
