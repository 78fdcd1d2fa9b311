import Mathlib
import TextSearch.Proofs.Index.Snapshots
import TextSearch.Proofs.Plan.Narrowing
import TextSearch.Proofs.Score.Exact
import TextSearch.Proofs.Search.ExactPlaces
import TextSearch.Proofs.Search.Succeeding

/-!
# Narrowing searches

A traversal never makes a query match more documents, except that it may count the
occurrences of all terms of a selection together: `Searcher.narrows` compares the
search for what a plan makes of a query with the search for the query with such
counts allowed. Rules are compared one change at a time, on the documents that the
grounded forms of the changed node match.
-/

namespace TextSearch

namespace Searcher

variable {s : Searcher} {g : Segment} {d : Nat}

/-- Whether a query, once grounded, matches a document of a segment. -/
def Shows (s : Searcher) (g : Segment) (d : Nat) (q : Query) : Prop :=
  ∃ r, s.Grounds q r ∧ r.shows g d = true

theorem Grounds.shows_iff {q r : Query} (h : s.Grounds q r) :
    s.Shows g d q ↔ r.shows g d = true := by
  constructor
  · rintro ⟨r', hr', hshows⟩
    rwa [h.unique hr'] at hshows
  · exact fun hshows => ⟨r, h, hshows⟩

theorem shows_of_done {q : Query} (h : s.groundStep q = .ok none) :
    s.Shows g d q ↔ q.shows g d = true :=
  (Grounds.done h).shows_iff

/-! ### Combinations -/

/-- The clauses that let a document in, or speak for it, once grounded. -/
theorem clausesShow_iff {clauses rs : List (Occur × Query)} (h : s.GroundsClauses clauses rs)
    (hpositive : ∀ c ∈ clauses, c.1 ≠ .mustNot)
    (hshows : ∀ c ∈ clauses, ∀ r, s.Grounds c.2 r →
      (r.shows g d = true ↔ c.2.meets (s.Shows g d))) :
    ((Query.clausesShow g d rs).all (fun c => c.1.allows c.2) = true ↔
        Query.clausesAllow (s.Shows g d) clauses) ∧
      ((Query.clausesShow g d rs).any (fun c => c.1.backs c.2) = true ↔
        Query.clausesBack (s.Shows g d) clauses) := by
  induction h with
  | nil => simp [Query.clausesShow, Query.clausesAllow, Query.clausesBack]
  | @cons c r clauses rs hc _ ih =>
    obtain ⟨o, q⟩ := c
    obtain ⟨o', r⟩ := r
    obtain ⟨rfl, hr⟩ := hc
    obtain ⟨hnot, hrest⟩ := List.forall_mem_cons.1 hpositive
    obtain ⟨hone, hothers⟩ := List.forall_mem_cons.1 hshows
    obtain ⟨hallow, hback⟩ := ih hrest hothers
    rw [Query.clausesShow, List.all_cons, List.any_cons, Bool.and_eq_true, Bool.or_eq_true,
      hallow, hback, Query.clausesAllow, Query.clausesBack, ← hone r hr]
    cases o with
    | must => simp [Occur.allows, Occur.backs]
    | should => simp [Occur.allows, Occur.backs]
    | mustNot => exact absurd rfl hnot

/-- A query that excludes nothing matches, once grounded, where its leaves say so. -/
theorem shows_iff_meets {q r : Query} (hq : q.isPositive = true) (h : s.Grounds q r) :
    r.shows g d = true ↔ q.meets (s.Shows g d) := by
  induction q using Query.combination generalizing r with
  | hboost q factor ih =>
    obtain ⟨r', rfl, hr'⟩ := h.boost
    have hinside : r'.shows g d = true ↔ q.meets (s.Shows g d) := ih hq hr'
    exact hinside
  | hboolean clauses ih =>
    obtain ⟨rs, rfl, hrs⟩ := h.boolean
    have hclauses := Query.clausesPositive_iff.1 hq
    have hparts := clausesShow_iff (g := g) (d := d) hrs (fun c hc => (hclauses c hc).1)
      fun c hc r hr => ih c hc (hclauses c hc).2 hr
    rw [Query.shows, Occur.admits, Bool.and_eq_true, hparts.1, hparts.2, Query.meets]
  | hleaf q hleaf => rw [Query.meets_leaf hleaf, h.shows_iff]

/-! ### Changes of single nodes -/

theorem shows_term {t : Term} :
    s.Shows g d (.term t) ↔ ∃ p ∈ g.postingsOf t, p.doc = d := by
  rw [shows_of_done rfl]
  simp [Query.shows]

theorem shows_markedTerm {t : Term} {mark : Mark} :
    s.Shows g d (.markedTerm t mark) ↔ ∃ p ∈ g.postingsOf t, p.doc = d := by
  rw [shows_of_done rfl]
  simp [Query.shows]

theorem shows_frequentTerm {t : Term} {least : Threshold} {carried : Option TermLookup} :
    s.Shows g d (.frequentTerm t least carried) ↔
      ∃ p ∈ g.postingsOf t, p.doc = d ∧ least.value ≤ p.frequency := by
  rw [shows_of_done rfl]
  simp [Query.shows]

theorem shows_exactPlaces {t : Term} : s.Shows g d (Plan.exactPlaces t) ↔
    ∃ p ∈ g.postingsOf t, p.doc = d ∧ 0 < p.bareCount := by
  rw [shows_of_done rfl, Query.shows_exactPlaces]

theorem shows_frequentSpan_exactPlaces {t : Term} {least : Threshold} :
    s.Shows g d (.frequentSpan (Plan.exactPlaces t) least) ↔
      ∃ p ∈ g.postingsOf t, p.doc = d ∧ least.value ≤ p.bareCount := by
  rw [shows_of_done rfl, Query.shows_frequentSpan_exactPlaces]

/-- A selection matches where some of its terms does. -/
theorem shows_multiTerm {m : MultiTerm} {ts : List Term}
    (h : expand s.snapshot s.settings.maxClauseCount m = .ok ts) :
    s.Shows g d (.multiTerm m) ↔ ∃ t ∈ ts, s.Shows g d (selectedTerm m t) := by
  rw [(grounds_expansion h).shows_iff, shows_expansion, List.any_eq_true]
  exact exists_congr fun t => and_congr_right fun _ =>
    (shows_of_done (groundStep_selectedTerm s m t)).symm

/-- The exact form of a term, or the term with it beside, matches where the term does. -/
theorem shows_of_meets_exactForm {selected : MultiTerm → Prop} {p : Plan} {q : Query} {t : Term}
    {fromPhrase : Bool} (hq : q.meets (Query.selecting (s.Shows g d) selected) ↔ s.Shows g d q)
    (hshows : s.Shows g d (Plan.exactPlaces t) → s.Shows g d q)
    (h : (p.exactForm q t fromPhrase).meets (Query.selecting (s.Shows g d) selected)) :
    s.Shows g d q := by
  rcases p.exactForm_cases q t fromPhrase with hform | ⟨factor, hform⟩ <;> rw [hform] at h
  · exact hshows h
  · obtain ⟨-, (hmust | ⟨-, hmeets⟩) | (hmust | ⟨-, hmeets⟩) | hnone⟩ := h
    · cases hmust
    · exact hq.1 hmeets
    · cases hmust
    · exact hshows hmeets
    · cases hnone

/-- A rule that changes no selection narrows what a node matches. -/
theorem shows_of_change (hcounts : ∀ t, ∀ p ∈ g.postingsOf t, p.bareCount ≤ p.frequency)
    {selected : MultiTerm → Prop} {p : Plan} {r : Rule} {q q' : Query}
    (hr : r.isConfigurable = true) (hq : ∀ m, q ≠ .multiTerm m) (h : p.Change r q q')
    (hmeets : q'.meets (Query.selecting (s.Shows g d) selected)) : s.Shows g d q := by
  have hterm : ∀ {t : Term} {n : Nat}, (∃ p ∈ g.postingsOf t, p.doc = d ∧ n ≤ p.bareCount) →
      ∃ p ∈ g.postingsOf t, p.doc = d :=
    fun ⟨p, hp, hd, _⟩ => ⟨p, hp, hd⟩
  cases h with
  | term t =>
    refine shows_of_meets_exactForm Iff.rfl (fun hexact => ?_) hmeets
    exact shows_term.2 (hterm (shows_exactPlaces.1 hexact))
  | markedTerm t mark =>
    refine shows_of_meets_exactForm Iff.rfl (fun hexact => ?_) hmeets
    exact shows_markedTerm.2 (hterm (shows_exactPlaces.1 hexact))
  | markedPlaces t mark mark' => exact shows_markedTerm.2 (hterm (shows_exactPlaces.1 hmeets))
  | mark t mark => exact shows_term.2 (shows_markedTerm.1 hmeets)
  | multiTerm m => exact absurd rfl (hq m)
  | frequentMultiTerm m => exact absurd rfl (hq m)
  | frequentTerm t least carried =>
    obtain ⟨p, hp, hd, hle⟩ := shows_frequentSpan_exactPlaces.1 hmeets
    exact shows_frequentTerm.2 ⟨p, hp, hd, Nat.le_trans hle (hcounts t p hp)⟩
  | requirePlaces t least =>
    exact shows_term.2 (hterm (shows_frequentSpan_exactPlaces.1 hmeets))
  | require t least =>
    obtain ⟨p, hp, hd, -⟩ := shows_frequentTerm.1 hmeets
    exact shows_term.2 ⟨p, hp, hd⟩
  | defer m => exact absurd rfl (hq m)
  | replace => cases hr

/-! ### Selections -/

theorem isPositive_expansion (m : MultiTerm) (ts : List Term) :
    (expansion m ts).isPositive = true := by
  rw [expansion]
  split
  · rfl
  · refine Query.clausesPositive_iff.2 fun c hc => ?_
    obtain ⟨t, -, rfl⟩ := List.mem_map.1 hc
    refine ⟨by simp, ?_⟩
    rw [selectedTerm]
    cases m.least <;> rfl

/-- An expansion is met by what meets one of its terms. -/
theorem exists_of_meets_expansion {leaf : Query → Prop} (hnothing : ¬ leaf .nothing)
    {m : MultiTerm} {ts : List Term} (h : (expansion m ts).meets leaf) :
    ∃ t ∈ ts, leaf (selectedTerm m t) := by
  rw [expansion] at h
  split at h
  · exact absurd h hnothing
  · obtain ⟨c, hc, hmust | ⟨-, hmeets⟩⟩ := Query.clausesBack_iff.1 h.2
    · obtain ⟨t, -, rfl⟩ := List.mem_map.1 hc
      cases hmust
    · obtain ⟨t, ht, rfl⟩ := List.mem_map.1 hc
      have hleaf : (selectedTerm m t).isLeaf = true := by
        rw [selectedTerm]
        cases m.least <;> rfl
      exact ⟨t, ht, (Query.meets_leaf hleaf).1 hmeets⟩

/-- Changes narrow what a query matches, with selections taken to match somewhere, if the changed
selections do not match elsewhere. -/
theorem narrows_selecting (hcounts : ∀ t, ∀ p ∈ g.postingsOf t, p.bareCount ≤ p.frequency)
    {selected : MultiTerm → Prop} {p : Plan} (hp : ∀ r ∈ p.chain, r.isConfigurable = true)
    (hselected : ∀ m r q', p.Change r (.multiTerm m) q' → p.firstRule? (.multiTerm m) = some r →
      s.Shows g d q' → selected m) :
    p.Narrows (Query.selecting (s.Shows g d) selected) := by
  intro r q q' hmem hchange hfirst hmeets
  by_cases hm : ∃ m, q = .multiTerm m
  · obtain ⟨m, rfl⟩ := hm
    refine hselected m r q' hchange (hfirst m rfl) ?_
    cases hchange <;> exact hmeets
  · have hnot : ∀ m, q ≠ .multiTerm m := fun m hq => hm ⟨m, hq⟩
    exact (Query.selecting_eq hnot).2 (shows_of_change hcounts (hp r hmem) hnot hchange hmeets)

/-- A deferred selection matches where some selected term does. The traversal of the expansion
meets no selections, so that these may be taken to match everywhere. -/
theorem shows_of_shows_deferred (hcounts : ∀ t, ∀ p ∈ g.postingsOf t, p.bareCount ≤ p.frequency)
    {p : Plan} (hp : ∀ r ∈ p.chain, r.isConfigurable = true) {m : MultiTerm}
    (h : s.Shows g d (.deferred (.multiTerm m) p)) : s.Shows g d (.multiTerm m) := by
  obtain ⟨r, hr, hshows⟩ := h
  obtain ⟨ts, q', hts, htraverse, hr⟩ := hr.deferred_multiTerm
  have hrewrites := Plan.rewrites_of_traversed htraverse
  have hmeets := (shows_iff_meets (hrewrites.isPositive (isPositive_expansion m ts)) hr).1 hshows
  have hsomewhere : q'.meets (Query.selecting (s.Shows g d) fun _ => True) :=
    Query.meets_mono (Query.selecting_of_leaf fun _ _ => trivial) q' hmeets
  have hexpansion := Plan.meets_of_rewrites
    (narrows_selecting hcounts hp fun _ _ _ _ _ _ => trivial) hrewrites hsomewhere
  have hnothing : ¬ Query.selecting (s.Shows g d) (fun _ => True) .nothing :=
    fun hshows => Bool.false_ne_true ((shows_of_done rfl).1 hshows)
  obtain ⟨t, ht, hterm⟩ := exists_of_meets_expansion hnothing hexpansion
  refine (shows_multiTerm hts).2 ⟨t, ht, (Query.selecting_eq fun m' => ?_).1 hterm⟩
  rw [selectedTerm]
  cases m.least <;> exact fun hnot => by cases hnot

/-- The exact form of a selection matches where some selected term does. -/
theorem shows_of_shows_exactMultiPlaces {m : MultiTerm} (hleast : m.least = none)
    (h : s.Shows g d (Plan.exactMultiPlaces m)) : s.Shows g d (.multiTerm m) := by
  obtain ⟨r, hr, hshows⟩ := h
  obtain ⟨r', rfl, hr'⟩ := hr.withoutPayload
  obtain ⟨ts, hts, rfl⟩ := hr'.spanMultiTerm
  have hspan : selectedSpanTerm m = Query.spanTerm := by
    funext t
    rw [selectedSpanTerm, hleast]
  rw [hspan, Query.shows_exactMultiPlaces] at hshows
  obtain ⟨t, ht, p, hp, hd, -⟩ := hshows
  refine (shows_multiTerm hts).2 ⟨t, ht, ?_⟩
  rw [selectedTerm, hleast]
  exact shows_term.2 ⟨p, hp, hd⟩

theorem meets_pooledSelection {p : Plan} {m : MultiTerm} (h : s.Shows g d (.multiTerm m)) :
    (p.pooledSelection m).meets (s.Shows g d) := by
  rw [Plan.pooledSelection]
  cases p.pool? m with
  | none => exact h
  | some least => exact ⟨⟨by simp, by simp, trivial⟩, .inl (.inr ⟨rfl, h⟩)⟩

/-- A selection that a rule changes matches no more than with pooled counts. -/
theorem meets_pooledSelection_of_change
    (hcounts : ∀ t, ∀ p ∈ g.postingsOf t, p.bareCount ≤ p.frequency)
    {p : Plan} (hp : ∀ r ∈ p.chain, r.isConfigurable = true) {m : MultiTerm} {r : Rule} {q' : Query}
    (h : p.Change r (.multiTerm m) q') (hfirst : p.firstRule? (.multiTerm m) = some r)
    (hshows : s.Shows g d q') : (p.pooledSelection m).meets (s.Shows g d) := by
  cases h with
  | multiTerm m hleast => exact meets_pooledSelection (shows_of_shows_exactMultiPlaces hleast hshows)
  | @frequentMultiTerm m least hleast htext =>
    have hpool : p.pool? m = some least := by rw [Plan.pool?, if_pos ⟨hfirst, htext⟩, hleast]
    rw [Plan.pooledSelection, hpool]
    exact ⟨⟨by simp, by simp, trivial⟩, .inr (.inl (.inr ⟨rfl, hshows⟩))⟩
  | defer m => exact meets_pooledSelection (shows_of_shows_deferred hcounts hp hshows)

/-- What a plan makes of a query matches no more than the query with pooled counts. -/
theorem shows_pooled (hcounts : ∀ t, ∀ p ∈ g.postingsOf t, p.bareCount ≤ p.frequency)
    {p : Plan} (hp : ∀ r ∈ p.chain, r.isConfigurable = true) {q q' r r' : Query}
    (hq : q.isPositive = true) (htraverse : p.traversed q = .ok q') (hr : s.Grounds q' r)
    (hr' : s.Grounds (p.pooled q) r') (hshows : r.shows g d = true) : r'.shows g d = true := by
  have hrewrites := Plan.rewrites_of_traversed htraverse
  have hmeets := (shows_iff_meets (hrewrites.isPositive hq) hr).1 hshows
  rw [shows_iff_meets (Plan.isPositive_pooled hq) hr', Plan.meets_pooled]
  have hnarrows : p.Narrows (Query.selecting (s.Shows g d) fun m =>
      (p.pooledSelection m).meets (s.Shows g d)) :=
    narrows_selecting hcounts hp fun m r q' => meets_pooledSelection_of_change hcounts hp
  exact Plan.meets_of_rewrites hnarrows hrewrites
    (Query.meets_mono (Query.selecting_of_leaf fun m => meets_pooledSelection) q' hmeets)

/-! ### Whole searches -/

theorem carriedLookups_pooled (p : Plan) (q : Query) :
    (p.pooled q).carriedLookups = q.carriedLookups := by
  induction q using Query.combination with
  | hboost q factor ih => exact ih
  | hboolean clauses ih =>
    rw [Plan.pooled, Plan.pooledClauses_eq_map, Query.carriedLookups, Query.carriedLookups,
      Query.carriedByClauses_eq_flatMap, Query.carriedByClauses_eq_flatMap, List.flatMap_map]
    exact List.flatMap_congr ih
  | hleaf q hleaf =>
    by_cases hm : ∃ m, q = .multiTerm m
    · obtain ⟨m, rfl⟩ := hm
      rw [Plan.pooled, Plan.pooledSelection]
      cases p.pool? m <;> rfl
    · rw [Plan.pooled_leaf hleaf fun m hq => hm ⟨m, hq⟩]

open IndexBuilder (accepted)

/-- Two terms that occur once each are found by a count of both together. -/
theorem yields_pooled_places : ∃ (top : TopDocs ℚ) (c : LookupCache),
    Weighing.Yields (search ⟨.ofSteps [("body", .payloads)]
        [.add [("body", [⟨"quick", 0, none⟩, ⟨"quiet", 1, none⟩])]] 0, default⟩ 10
      (.frequentSpan (Plan.exactMultiPlaces ⟨"body", .beginning "qui", none⟩) ⟨2, by decide⟩))
      .empty top c ∧ top.totalHits = 1 ∧ top.hits.map (·.doc) = [0] :=
  exists_yields_search_eq _ _ _ _ _ _ (by cbv)

end Searcher

end TextSearch
