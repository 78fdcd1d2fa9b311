import TextSearch.Proofs.Index.Originals
import TextSearch.Proofs.Plan.Exactness
import TextSearch.Proofs.Score.Exact
import TextSearch.Proofs.Search.ExactPlaces
import TextSearch.Proofs.Search.Succeeding

/-!
# Exact searches

What an exact plan makes of a query finds in an index the documents that the query
itself finds in the index of the originals. `Searcher.finds_originals` says so of whole
searches. The proof follows the query: each kind of leaf matches in a segment where it
should in the segment of the originals, and the leaves of deferred ranges do so once
these are expanded.
-/

namespace TextSearch

namespace Plan

mutual

/-- Whether an exact plan can make all of a query exact: the query asks for terms and selections
only, and no prefix or wildcard in a field with text asks for a minimum frequency. -/
def covers (p : Plan) : Query → Bool
  | .term _ => true
  | .markedTerm _ _ => true
  | .frequentTerm _ _ _ => true
  | .multiTerm m => m.isRange || m.least.isNone || !p.isTokenized m.field
  | .boost q _ => p.covers q
  | .boolean clauses => p.coversClauses clauses
  | .nothing => true
  | _ => false

/-- Whether an exact plan can make all of some clauses exact. -/
def coversClauses (p : Plan) : List (Occur × Query) → Bool
  | [] => true
  | (_, q) :: rest => p.covers q && p.coversClauses rest

end

end Plan

namespace Searcher

variable {declared : Dictionary IndexOptions} {p : Plan} {s s' : Searcher} {g g' : Segment} {d : Nat}

/-! ### Leaves -/

/-- A segment of an index and the one that belongs to it in the index of the originals under a
plan. -/
structure Exact (declared : Dictionary IndexOptions) (p : Plan) (s s' : Searcher) (g g' : Segment) :
    Prop where
  /-- The segments hold documents and their originals. -/
  original : g.IsOriginal declared p.isTokenized g'
  /-- Fields with text that were declared have positions. -/
  positions : ∀ field options, p.isTokenized field = true →
    declared.get? field = some options → options.hasPositions = true
  /-- The first segment is one of the index. -/
  mem : g ∈ s.snapshot.segments
  /-- The second segment is one of the index of the originals. -/
  mem' : g' ∈ s'.snapshot.segments
  /-- The originals have no other texts. -/
  keys : ∀ m, (s'.snapshot.select m).keys ⊆ (s.snapshot.select m).keys

/-- How often a term occurs in an original is how often it occurs without a payload. -/
theorem Exact.exists_posting (h : Exact declared p s s' g g') {t : Term}
    (htext : p.isTokenized t.field = true) {n : Nat} (hn : 0 < n) :
    (∃ x ∈ g'.postingsOf t, x.doc = d ∧ n ≤ x.frequency) ↔
      ∃ x ∈ g.postingsOf t, x.doc = d ∧ n ≤ x.bareCount :=
  h.original.exists_posting htext (fun options => h.positions t.field options htext) hn

theorem Exact.postingsOf (h : Exact declared p s s' g g') {t : Term}
    (htext : p.isTokenized t.field = false) : g'.postingsOf t = g.postingsOf t := by
  obtain ⟨docs, -, hholds, hholds'⟩ := h.original.holds
  exact Segment.postingsOf_original hholds hholds' htext

/-- A term occurs in a document if it does so at least once. -/
theorem Exact.shows_term (h : Exact declared p s s' g g') (t : Term) :
    (Query.term t).shows g' d = true ↔ ∃ x ∈ g'.postingsOf t, x.doc = d ∧ 1 ≤ x.frequency := by
  obtain ⟨docs, -, -, hholds'⟩ := h.original.holds
  rw [Query.shows, List.any_eq_true]
  constructor
  · rintro ⟨x, hx, hd⟩
    exact ⟨x, hx, beq_iff_eq.1 hd, hholds'.frequency_pos hx⟩
  · rintro ⟨x, hx, hd, -⟩
    exact ⟨x, hx, beq_iff_eq.2 hd⟩

theorem Exact.shows_exactly_term (h : Exact declared p s s' g g') (t : Term) :
    (p.exactly (.term t)).shows g d = (Query.term t).shows g' d := by
  rw [Plan.exactly]
  cases htext : p.isTokenized t.field with
  | true =>
    rw [if_pos rfl, Bool.eq_iff_iff, h.shows_term, h.exists_posting htext Nat.one_pos]
    exact Query.shows_exactPlaces
  | false =>
    rw [if_neg Bool.false_ne_true, Query.shows, Query.shows, h.postingsOf htext]

theorem Exact.shows_exactly_frequentTerm (h : Exact declared p s s' g g') (t : Term)
    (least : Threshold) (carried : Option TermLookup) :
    (p.exactly (.frequentTerm t least carried)).shows g d =
      (Query.frequentTerm t least carried).shows g' d := by
  rw [Plan.exactly]
  cases htext : p.isTokenized t.field with
  | true =>
    rw [if_pos rfl, Bool.eq_iff_iff, Query.shows_frequentSpan_exactPlaces,
      ← h.exists_posting htext least.positive, Query.shows, List.any_eq_true]
    simp
  | false =>
    rw [if_neg Bool.false_ne_true, Query.shows, Query.shows, h.postingsOf htext]

theorem Exact.shows_exactly_selectedTerm (h : Exact declared p s s' g g') (m : MultiTerm) (t : Term) :
    (p.exactly (selectedTerm m t)).shows g d = (selectedTerm m t).shows g' d := by
  rw [selectedTerm]
  cases m.least with
  | none => exact h.shows_exactly_term t
  | some least => exact h.shows_exactly_frequentTerm t least none

/-! ### Selections -/

/-- The terms that are selected from a snapshot. -/
def selected (s : Searcher) (m : MultiTerm) : List Term :=
  (s.snapshot.select m).keys.map fun x => ⟨m.field, x⟩

theorem field_of_mem_selected {m : MultiTerm} {t : Term} (ht : t ∈ s.selected m) :
    t.field = m.field := by
  obtain ⟨x, -, rfl⟩ := List.mem_map.1 ht
  rfl

/-- What an exact plan makes of an expansion. -/
theorem exactly_expansion (p : Plan) (m : MultiTerm) (ts : List Term) :
    p.exactly (expansion m ts) =
      if ts.isEmpty then .nothing
      else .boolean (ts.map fun t => (.should, p.exactly (selectedTerm m t))) := by
  have hclauses : ∀ ts : List Term, p.exactlyClauses (ts.map fun t => (.should, selectedTerm m t)) =
      ts.map fun t => (.should, p.exactly (selectedTerm m t)) := by
    intro ts
    induction ts with
    | nil => rfl
    | cons t ts ih => rw [List.map_cons, Plan.exactlyClauses, ih, List.map_cons]
  rw [expansion]
  split
  · rfl
  · rw [Plan.exactly, hclauses]

theorem groundStep_exactly_selectedTerm (s : Searcher) (p : Plan) (m : MultiTerm) (t : Term) :
    s.groundStep (p.exactly (selectedTerm m t)) = .ok none := by
  rw [selectedTerm]
  cases m.least <;> simp only [Plan.exactly] <;> split <;> rfl

/-- A deferred range becomes what an exact plan makes of its expansion. -/
theorem shows_deferred (hp : p.IsExact) {m : MultiTerm} {r : Query}
    (hr : s.Grounds (.deferred (.multiTerm m) p) r) :
    r.shows g d = (s.selected m).any fun t => (p.exactly (selectedTerm m t)).shows g d := by
  obtain ⟨ts, q', hts, htraverse, hr⟩ := hr.deferred_multiTerm
  have hq' := Plan.eq_exactly_of_traversed hp htraverse
  rw [exactly_expansion] at hq'
  have hselected : s.selected m = ts := (expand_eq_ok hts).symm
  subst hq'
  rw [hselected]
  cases ts with
  | nil =>
    rw [hr.eq_of_done rfl]
    rfl
  | cons t ts =>
    rw [hr.eq_of_done (groundStep_boolean_map (groundStep_exactly_selectedTerm s p m) (t :: ts))]
    exact Query.shows_boolean_map g d _ (t :: ts)

/-- Grounded, what an exact plan makes of a selection matches where it should for some term. -/
theorem shows_exactly_multiTerm (hp : p.IsExact) {m : MultiTerm}
    (hm : p.covers (.multiTerm m) = true) {r : Query}
    (hr : s.Grounds (p.exactly (.multiTerm m)) r) :
    r.shows g d = (s.selected m).any fun t => (p.exactly (selectedTerm m t)).shows g d := by
  rw [Plan.exactly] at hr
  cases hrange : m.isRange with
  | true =>
    rw [hrange, if_pos rfl] at hr
    exact shows_deferred hp hr
  | false =>
    rw [hrange, if_neg Bool.false_ne_true] at hr
    by_cases hexact : (m.least.isNone && p.isTokenized m.field) = true
    · rw [if_pos hexact] at hr
      obtain ⟨hleast, htext⟩ := Bool.and_eq_true_iff.1 hexact
      obtain ⟨r', rfl, hr'⟩ := hr.withoutPayload
      obtain ⟨ts, hts, rfl⟩ := hr'.spanMultiTerm
      have hspan : selectedSpanTerm m = Query.spanTerm := by
        funext t
        rw [selectedSpanTerm, Option.isNone_iff_eq_none.1 hleast]
      have hselected : s.selected m = ts := (expand_eq_ok hts).symm
      rw [hspan, hselected, Bool.eq_iff_iff, Query.shows_exactMultiPlaces, List.any_eq_true]
      refine exists_congr fun t => and_congr_right fun ht => ?_
      have hfield := field_of_mem_selected (hselected ▸ ht)
      have hform : p.exactly (selectedTerm m t) = Plan.exactPlaces t := by
        rw [selectedTerm, Option.isNone_iff_eq_none.1 hleast]
        simp only [Plan.exactly, hfield, htext, if_true]
      rw [hform, Query.shows_exactPlaces]
    · rw [if_neg hexact] at hr
      have htext : p.isTokenized m.field = false := by
        rw [Plan.covers, hrange, Bool.false_or] at hm
        cases hleast : m.least.isNone <;> simp_all
      obtain ⟨ts, hts, rfl⟩ := hr.multiTerm
      have hselected : s.selected m = ts := (expand_eq_ok hts).symm
      rw [shows_expansion, hselected, Bool.eq_iff_iff, List.any_eq_true, List.any_eq_true]
      refine exists_congr fun t => and_congr_right fun ht => ?_
      have hfield := field_of_mem_selected (hselected ▸ ht)
      have hform : p.exactly (selectedTerm m t) = selectedTerm m t := by
        rw [selectedTerm]
        cases m.least <;> simp [Plan.exactly, hfield, htext]
      rw [hform]

/-- Of the terms that are selected from an index those match in an original that are selected from
the index of the originals. -/
theorem Exact.any_selected (h : Exact declared p s s' g g') (m : MultiTerm) :
    ((s.selected m).any fun t => (selectedTerm m t).shows g' d) =
      (s'.selected m).any fun t => (selectedTerm m t).shows g' d := by
  have hposting : ∀ t : Term, (selectedTerm m t).shows g' d = true → (g'.postings? t).isSome := by
    intro t ht
    rw [selectedTerm] at ht
    cases hps : g'.postings? t with
    | none =>
      have hnil : g'.postingsOf t = [] := by rw [Segment.postingsOf, hps]; rfl
      cases hleast : m.least <;> simp [hleast, Query.shows, hnil] at ht
    | some ps => rfl
  rw [Bool.eq_iff_iff, List.any_eq_true, List.any_eq_true]
  constructor
  · rintro ⟨t, ht, hshows⟩
    obtain ⟨x, hx, rfl⟩ := List.mem_map.1 ht
    have hkey := Snapshot.mem_keys_select.2
      ⟨(Snapshot.mem_keys_select.1 hx).1, g', h.mem', hposting _ hshows⟩
    exact ⟨_, List.mem_map.2 ⟨x, hkey, rfl⟩, hshows⟩
  · rintro ⟨t, ht, hshows⟩
    obtain ⟨x, hx, rfl⟩ := List.mem_map.1 ht
    exact ⟨_, List.mem_map.2 ⟨x, h.keys m hx, rfl⟩, hshows⟩

/-! ### Queries -/

mutual

/-- Grounded, what an exact plan makes of a query matches a document if the query matches the
original. -/
theorem Exact.shows_eq (h : Exact declared p s s' g g') (hp : p.IsExact) :
    ∀ (q : Query) {r r' : Query}, p.covers q = true → s.Grounds (p.exactly q) r →
      s'.Grounds q r' → r.shows g d = r'.shows g' d
  | .term t, r, r', _, hr, hr' => by
    have hdone : s.groundStep (p.exactly (.term t)) = .ok none := by
      rw [Plan.exactly]
      split <;> rfl
    rw [hr.eq_of_done hdone, hr'.eq_of_done rfl]
    exact h.shows_exactly_term t
  | .markedTerm t mark, r, r', _, hr, hr' => by
    have hdone : s.groundStep (p.exactly (.markedTerm t mark)) = .ok none := by
      rw [Plan.exactly]
      split <;> rfl
    have hsame : (p.exactly (.markedTerm t mark)).shows g d = (p.exactly (.term t)).shows g d := by
      rw [Plan.exactly, Plan.exactly]
      split <;> rfl
    rw [hr.eq_of_done hdone, hr'.eq_of_done rfl, hsame]
    exact h.shows_exactly_term t
  | .frequentTerm t least carried, r, r', _, hr, hr' => by
    have hdone : s.groundStep (p.exactly (.frequentTerm t least carried)) = .ok none := by
      rw [Plan.exactly]
      split <;> rfl
    rw [hr.eq_of_done hdone, hr'.eq_of_done rfl]
    exact h.shows_exactly_frequentTerm t least carried
  | .multiTerm m, r, r', hq, hr, hr' => by
    obtain ⟨ts, hts, rfl⟩ := hr'.multiTerm
    have hselected : s'.selected m = ts := (expand_eq_ok hts).symm
    rw [shows_exactly_multiTerm hp hq hr, shows_expansion, ← hselected, ← h.any_selected]
    simp only [h.shows_exactly_selectedTerm]
  | .boost q factor, r, r', hq, hr, hr' => by
    rw [Plan.exactly] at hr
    obtain ⟨q₁, rfl, hq₁⟩ := hr.boost
    obtain ⟨q₂, rfl, hq₂⟩ := hr'.boost
    rw [Query.shows, Query.shows]
    exact h.shows_eq hp q hq hq₁ hq₂
  | .boolean clauses, r, r', hq, hr, hr' => by
    rw [Plan.exactly] at hr
    obtain ⟨rs, rfl, hrs⟩ := hr.boolean
    obtain ⟨rs', rfl, hrs'⟩ := hr'.boolean
    exact congrArg Occur.admits (h.clausesShow_eq hp clauses hq hrs hrs')
  | .nothing, r, r', _, hr, hr' => by
    rw [hr.eq_of_done rfl, hr'.eq_of_done rfl]
    rfl

/-- Grounded, what an exact plan makes of clauses matches a document where the clauses match the
original. -/
theorem Exact.clausesShow_eq (h : Exact declared p s s' g g') (hp : p.IsExact) :
    ∀ (clauses : List (Occur × Query)) {rs rs' : List (Occur × Query)},
      p.coversClauses clauses = true → s.GroundsClauses (p.exactlyClauses clauses) rs →
        s'.GroundsClauses clauses rs' → Query.clausesShow g d rs = Query.clausesShow g' d rs'
  | [], _, _, _, hrs, hrs' => by
    cases hrs
    cases hrs'
    rfl
  | (o, q) :: clauses, _, _, hclauses, hrs, hrs' => by
    rw [Plan.coversClauses, Bool.and_eq_true] at hclauses
    rw [Plan.exactlyClauses] at hrs
    cases hrs with
    | @cons _ c _ rs hc hrest =>
      cases hrs' with
      | @cons _ c' _ rs' hc' hrest' =>
        obtain ⟨o₁, r⟩ := c
        obtain ⟨o₂, r'⟩ := c'
        obtain ⟨rfl, hr⟩ := hc
        obtain ⟨rfl, hr'⟩ := hc'
        rw [Query.clausesShow, Query.clausesShow, h.shows_eq hp q hclauses.1 hr hr',
          h.clausesShow_eq hp clauses hclauses.2 hrest hrest']

end

/-! ### Searches succeed -/

theorem expand_original {snapshot snapshot' : Snapshot} {limit : Nat} {m : MultiTerm}
    (hkeys : (snapshot'.select m).keys ⊆ (snapshot.select m).keys) {ts : List Term}
    (h : expand snapshot limit m = .ok ts) : ∃ ts', expand snapshot' limit m = .ok ts' := by
  have hlength : (snapshot'.select m).keys.length ≤ (snapshot.select m).keys.length :=
    (List.subperm_of_subset (snapshot'.select m).nodup_keys hkeys).length_le
  rw [expand] at h ⊢
  split at h
  · cases h
  · next hlimit => exact ⟨_, if_neg fun hlt => hlimit (Nat.lt_of_lt_of_le hlt hlength)⟩

theorem exists_expand_of_groundStep_exactly {m : MultiTerm} {o : Option Query}
    (h : s.groundStep (p.exactly (.multiTerm m)) = .ok o) :
    ∃ ts, expand s.snapshot s.settings.maxClauseCount m = .ok ts ∧ o.isSome := by
  rw [Plan.exactly] at h
  split at h
  · obtain ⟨o', _, ho', -, rfl⟩ := groundStep_deferred_eq_ok h
    obtain ⟨ts, hts, -⟩ := groundStep_multiTerm_eq_ok ho'
    exact ⟨ts, hts, rfl⟩
  · split at h
    · obtain ⟨o', ho', rfl⟩ := groundStep_withoutPayload_eq_ok h
      obtain ⟨ts, hts, rfl⟩ := groundStep_spanMultiTerm_eq_ok ho'
      exact ⟨ts, hts, rfl⟩
    · obtain ⟨ts, hts, rfl⟩ := groundStep_multiTerm_eq_ok h
      exact ⟨ts, hts, rfl⟩

/-- The originals have no other texts, and no other limits are set for them. -/
structure Restricts (s s' : Searcher) : Prop where
  /-- There are no other texts. -/
  keys : ∀ m, (s'.snapshot.select m).keys ⊆ (s.snapshot.select m).keys
  /-- The limits are the same. -/
  settings : s'.settings = s.settings

/-- Where a step of grounding does not fail for what an exact plan makes of a selection, it does
not fail for the selection. -/
theorem Restricts.groundStep_multiTerm (h : Restricts s s') {m : MultiTerm} {o : Option Query}
    (hstep : s.groundStep (p.exactly (.multiTerm m)) = .ok o) :
    ∃ ts, s'.groundStep (.multiTerm m) = .ok (some (expansion m ts)) ∧ o.isSome := by
  obtain ⟨ts, hts, hsome⟩ := exists_expand_of_groundStep_exactly hstep
  obtain ⟨ts', hts'⟩ := expand_original (h.keys m) hts
  refine ⟨ts', ?_, hsome⟩
  rw [groundStep, expandTerms, h.settings, hts']
  rfl

mutual

/-- Where a step of grounding does not fail for what an exact plan makes of a query, it does not
fail for the query, and nothing is left for a second one. If it changes the query, then also
what the plan makes of it. -/
theorem Restricts.groundStep (h : Restricts s s') :
    ∀ (q : Query) {o : Option Query}, p.covers q = true → s.groundStep (p.exactly q) = .ok o →
      ∃ o', s'.groundStep q = .ok o' ∧ (o'.isSome → o.isSome) ∧
        s'.groundStep (o'.getD q) = .ok none
  | .term _, _, _, _ => ⟨none, rfl, by rintro ⟨⟩, rfl⟩
  | .markedTerm _ _, _, _, _ => ⟨none, rfl, by rintro ⟨⟩, rfl⟩
  | .frequentTerm _ _ _, _, _, _ => ⟨none, rfl, by rintro ⟨⟩, rfl⟩
  | .multiTerm m, o, _, hstep => by
    obtain ⟨ts, hts, hsome⟩ := h.groundStep_multiTerm hstep
    exact ⟨_, hts, fun _ => hsome, groundStep_expansion s' m ts⟩
  | .boost q factor, o, hq, hstep => by
    rw [Plan.exactly] at hstep
    obtain ⟨o₁, ho₁, rfl⟩ := groundStep_boost_eq_ok hstep
    obtain ⟨o', ho', hsome, hdone⟩ := h.groundStep q hq ho₁
    refine ⟨o'.map (Query.boost · factor), ?_, ?_, ?_⟩
    · rw [Searcher.groundStep, ho']
      rfl
    · rw [Option.isSome_map, Option.isSome_map]
      exact hsome
    · have hinside : (o'.map (Query.boost · factor)).getD (.boost q factor) =
          .boost (o'.getD q) factor := Option.getD_map ..
      rw [hinside, Searcher.groundStep, hdone]
      rfl
  | .boolean clauses, o, hq, hstep => by
    rw [Plan.exactly, Searcher.groundStep] at hstep
    obtain ⟨o₁, ho₁, hstep⟩ := except_bind_eq_ok.1 hstep
    cases hstep
    obtain ⟨o', ho', hsome, hdone⟩ := h.groundClauses clauses hq ho₁
    refine ⟨o'.map Query.boolean, ?_, ?_, ?_⟩
    · rw [Searcher.groundStep, ho']
      rfl
    · rw [Option.isSome_map, Option.isSome_map]
      exact hsome
    · have hinside : (o'.map Query.boolean).getD (.boolean clauses) =
          .boolean (o'.getD clauses) := Option.getD_map ..
      rw [hinside, Searcher.groundStep, hdone]
      rfl
  | .nothing, _, _, _ => ⟨none, rfl, by rintro ⟨⟩, rfl⟩

/-- Where a step of grounding does not fail for what an exact plan makes of clauses, it does not
fail for the clauses. -/
theorem Restricts.groundClauses (h : Restricts s s') :
    ∀ (clauses : List (Occur × Query)) {o : Option (List (Occur × Query))},
      p.coversClauses clauses = true → s.groundClauses (p.exactlyClauses clauses) = .ok o →
      ∃ o', s'.groundClauses clauses = .ok o' ∧ (o'.isSome → o.isSome) ∧
        s'.groundClauses (o'.getD clauses) = .ok none
  | [], _, _, _ => ⟨none, rfl, by rintro ⟨⟩, rfl⟩
  | (occur, q) :: rest, o, hclauses, hstep => by
    rw [Plan.coversClauses, Bool.and_eq_true] at hclauses
    rw [Plan.exactlyClauses, Searcher.groundClauses] at hstep
    obtain ⟨q₁, hq₁, hstep⟩ := except_bind_eq_ok.1 hstep
    obtain ⟨rest₁, hrest₁, hstep⟩ := except_bind_eq_ok.1 hstep
    cases hstep
    obtain ⟨q', hq', hsome, hdone⟩ := h.groundStep q hclauses.1 hq₁
    obtain ⟨rest', hrest', hsomes, hdones⟩ := h.groundClauses rest hclauses.2 hrest₁
    refine ⟨_, by rw [Searcher.groundClauses, hq', hrest']; rfl, ?_, ?_⟩
    · cases q' <;> cases rest' <;> cases q₁ <;> cases rest₁ <;> simp_all
    · have hinside : (if q'.isNone && rest'.isNone then none
          else some ((occur, q'.getD q) :: rest'.getD rest)).getD ((occur, q) :: rest) =
            (occur, q'.getD q) :: rest'.getD rest := by
        cases q' <;> cases rest' <;> rfl
      rw [hinside, Searcher.groundClauses, hdone, hdones]
      rfl

end

/-- Where what an exact plan makes of a query can be grounded, the query can. -/
theorem Restricts.grounded (h : Restricts s s') {q r : Query} (hq : p.covers q = true)
    (hground : s.grounded (p.exactly q) = .ok r) : ∃ r', s'.grounded q = .ok r' := by
  obtain ⟨o, ho, -⟩ := except_map_eq_ok.1 hground
  rw [ground] at ho
  have hsteps : ∃ o', s'.ground q = .ok o' := by
    rw [ground, h.settings]
    cases hpasses : s.settings.maxPasses with
    | zero =>
      rw [hpasses] at ho
      cases ho
    | succ passes =>
      rw [hpasses, groundWithin] at ho
      obtain ⟨o₁, ho₁, ho⟩ := except_bind_eq_ok.1 ho
      obtain ⟨o', ho', hsome, hdone⟩ := h.groundStep q hq ho₁
      rw [groundWithin, ho']
      cases o' with
      | none => exact ⟨none, rfl⟩
      | some next' =>
        obtain ⟨next, rfl⟩ := Option.isSome_iff_exists.1 (hsome rfl)
        -- what the plan makes of the query needs a second pass, so there is one
        cases passes with
        | zero =>
          obtain ⟨_, hrest, -⟩ := except_bind_eq_ok.1 ho
          cases hrest
        | succ passes =>
          have hrest : s'.groundWithin q (passes + 1) next' = .ok none := by
            rw [groundWithin]
            exact except_bind_eq_ok.2 ⟨none, hdone, rfl⟩
          exact ⟨_, except_bind_eq_ok.2 ⟨some next', rfl, except_bind_eq_ok.2 ⟨none, hrest, rfl⟩⟩⟩
  obtain ⟨o', ho'⟩ := hsteps
  exact ⟨_, except_map_eq_ok.2 ⟨o', ho', rfl⟩⟩

theorem runs_expansion (positioned : String → Bool) (m : MultiTerm) (ts : List Term) :
    (expansion m ts).runs positioned = true := by
  have hone : ∀ t, (selectedTerm m t).runs positioned = true := by
    intro t
    rw [selectedTerm]
    cases m.least <;> rfl
  have hclauses : ∀ ts : List Term,
      Query.clausesRun positioned (ts.map fun t => (.should, selectedTerm m t)) = true := by
    intro ts
    induction ts with
    | nil => rfl
    | cons t ts ih => rw [List.map_cons, Query.clausesRun, hone, ih]; rfl
  rw [expansion]
  split
  · rfl
  · exact hclauses ts

mutual

/-- A query that an exact plan covers is grounded to one that runs: it asks for no places. -/
theorem runs_of_grounds (positioned : String → Bool) : ∀ (q : Query) {r : Query},
    p.covers q = true → s.Grounds q r → r.runs positioned = true
  | .term _, _, _, hr => by rw [hr.eq_of_done rfl]; rfl
  | .markedTerm _ _, _, _, hr => by rw [hr.eq_of_done rfl]; rfl
  | .frequentTerm _ _ _, _, _, hr => by rw [hr.eq_of_done rfl]; rfl
  | .multiTerm m, _, _, hr => by
    obtain ⟨ts, -, rfl⟩ := hr.multiTerm
    exact runs_expansion positioned m ts
  | .boost q factor, _, hq, hr => by
    obtain ⟨q', rfl, hq'⟩ := hr.boost
    rw [Query.runs]
    exact runs_of_grounds positioned q hq hq'
  | .boolean clauses, _, hq, hr => by
    obtain ⟨rs, rfl, hrs⟩ := hr.boolean
    rw [Query.runs]
    exact clausesRun_of_grounds positioned clauses hq hrs
  | .nothing, _, _, hr => by rw [hr.eq_of_done rfl]; rfl

theorem clausesRun_of_grounds (positioned : String → Bool) : ∀ (clauses : List (Occur × Query))
    {rs : List (Occur × Query)}, p.coversClauses clauses = true → s.GroundsClauses clauses rs →
      Query.clausesRun positioned rs = true
  | [], _, _, hrs => by
    cases hrs
    rfl
  | (o, q) :: clauses, _, hclauses, hrs => by
    rw [Plan.coversClauses, Bool.and_eq_true] at hclauses
    cases hrs with
    | @cons _ c _ rs hc hrest =>
      obtain ⟨o', r⟩ := c
      rw [Query.clausesRun, runs_of_grounds positioned q hclauses.1 hc.2,
        clausesRun_of_grounds positioned clauses hclauses.2 hrest]
      rfl

end

/-! ### Whole searches -/

theorem honest_exactly {snapshot : Snapshot} {q q' : Query} (h : q.Honest snapshot)
    (htraverse : p.traversed q = .ok q') : q'.Honest snapshot :=
  fun l hl => h l ((Plan.rewrites_of_traversed htraverse).carriedLookups hl)

section Whole

variable {R : Type} [ScoreNumber R] {parts : List (List Document)}

/-- What an exact plan makes of a query finds in a snapshot the documents that the query finds in
a snapshot of the originals, and the search for them succeeds. -/
theorem finds_originals_of_holds (s s' : Searcher) (hp : p.IsExact)
    (hpositions : ∀ field options, p.isTokenized field = true →
      declared.get? field = some options → options.hasPositions = true)
    (haccepts : ∀ docs ∈ parts, ∀ doc ∈ docs, IndexBuilder.accepts declared doc = true)
    (hs : s.snapshot.Holds declared parts)
    (hs' : s'.snapshot.Holds declared (parts.map (List.map (·.original declared p.isTokenized))))
    (hsettings : s'.settings = s.settings) (hcount : parts.flatten.length ≤ endOfDocs)
    {q q' : Query} (hq : p.covers q = true) (htraverse : p.traversed q = .ok q')
    (hhonest : q.Honest s.snapshot) (hhonest' : q.Honest s'.snapshot) {c c₁ c' : LookupCache}
    (hc : c.Sound s.snapshot) (hc' : c'.Sound s'.snapshot) {size : Nat} {top : TopDocs R}
    (hsearch : Weighing.Yields (s.search size q') c top c₁) (size' : Nat) :
    ∃ (top' : TopDocs R) (c₂ : LookupCache),
      Weighing.Yields (s'.search size' q) c' top' c₂ ∧
        (top.totalHits ≤ size → top'.totalHits ≤ size' →
          ∀ doc, doc ∈ top.hits.map (·.doc) ↔ doc ∈ top'.hits.map (·.doc)) := by
  have hcount' : (parts.map (List.map (·.original declared p.isTokenized))).flatten.length ≤
      endOfDocs := by
    rwa [← List.map_flatten, List.length_map]
  have hrestricts : Restricts s s' := ⟨hs.keys_select_original hs', hsettings⟩
  obtain ⟨r, hground, hhits⟩ := mem_hits_iff hs.numbered (hs.sound hcount)
    (honest_exactly hhonest htraverse) hc hsearch
  rw [Plan.eq_exactly_of_traversed hp htraverse] at hground
  obtain ⟨r', hground'⟩ := hrestricts.grounded hq hground
  have hgrounds := grounds_of_grounded hground
  have hgrounds' := grounds_of_grounded hground'
  have hnone : s'.snapshot.Positioned fun _ => false := fun _ _ _ _ hfalse => by cases hfalse
  obtain ⟨top', c₂, hsearch'⟩ := exists_yields_search (R := R) hs'.numbered (hs'.sound hcount')
    hnone hground' (runs_of_grounds _ q hq hgrounds') (hgrounds'.honest hhonest') hc' size'
  refine ⟨top', c₂, hsearch', fun hsize hsize' doc => ?_⟩
  obtain ⟨r₂, hr₂, hhits'⟩ := mem_hits_iff hs'.numbered (hs'.sound hcount') hhonest' hc' hsearch'
  obtain rfl : r' = r₂ := Except.ok.inj (hground'.symm.trans hr₂)
  have hpairs := SegmentsHold.forall₂_isOriginal hs haccepts hs'
  have hshows : ∀ g g', g ∈ s.snapshot.segments → g' ∈ s'.snapshot.segments →
      g.IsOriginal declared p.isTokenized g' → ∀ d, r.shows g d = r'.shows g' d :=
    fun g g' hg hg' horiginal d => Exact.shows_eq
      ⟨horiginal, hpositions, hg, hg', hrestricts.keys⟩ hp q hq hgrounds hgrounds'
  rw [hhits hsize, hhits' hsize']
  constructor
  · rintro ⟨g, hg, d, hd, rfl⟩
    obtain ⟨g', hg', horiginal⟩ := exists_mem_of_forall₂ hpairs.flip hg
    exact ⟨g', hg', d, hshows g g' hg hg' horiginal d ▸ hd, by rw [horiginal.docBase]⟩
  · rintro ⟨g', hg', d, hd, rfl⟩
    obtain ⟨g, hg, horiginal⟩ := exists_mem_of_forall₂ hpairs hg'
    exact ⟨g, hg, d, hshows g g' hg hg' horiginal d ▸ hd, by rw [horiginal.docBase]⟩

open IndexBuilder (accepted)

end Whole

end Searcher

end TextSearch
