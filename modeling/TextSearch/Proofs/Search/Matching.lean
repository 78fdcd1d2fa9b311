import TextSearch.Proofs.Search.Places
import TextSearch.Proofs.Search.Results

/-!
# The documents that queries match

`Query.shows` says which documents of a segment a grounded query matches, without
regard to scores and to the shortcuts that are taken when a query is opened;
`Query.mem_docs_trail?` is the proof. Where documents name no field twice these
are the documents that satisfy the query: `Searcher.shows_eq_satisfiedBy`.
-/

namespace TextSearch

open Trail

namespace Query

mutual

/-- Whether a grounded query matches a document of a segment. -/
def shows (g : Segment) (d : Nat) : Query → Bool
  | term t => (g.postingsOf t).any fun p => p.doc == d
  | markedTerm t _ => (g.postingsOf t).any fun p => p.doc == d
  | frequentTerm t least _ =>
    (g.postingsOf t).any fun p => p.doc == d && decide (least.value ≤ p.frequency)
  | boost q _ => shows g d q
  | boolean clauses => Occur.admits (clausesShow g d clauses)
  | q => ((q.spanSource? g .positions).elim [] (·.2.docs)).contains d

/-- Which clauses match a document of a segment. -/
def clausesShow (g : Segment) (d : Nat) : List (Occur × Query) → List (Occur × Bool)
  | [] => []
  | (o, q) :: rest => (o, shows g d q) :: clausesShow g d rest

end

end Query

variable {R : Type}

/-- The documents of a trail, if there is one. -/
def docsOf (t : Option (Trail (Merit R))) : List Nat := t.elim [] Trail.docs

namespace TrailParts

variable {d : Nat}

/-- No clause hides a document. -/
def Allows (d : Nat) (p : TrailParts R) : Prop :=
  (∀ t ∈ p.required, d ∈ t.docs) ∧ ∀ t ∈ p.prohibited, d ∉ t.docs

/-- Some clause speaks for a document. -/
def Backs (d : Nat) (p : TrailParts R) : Prop :=
  p.required ≠ [] ∨ ∃ t ∈ p.optional, d ∈ t.docs

theorem allows_add {p : TrailParts R} {o : Occur} {t : Trail (Merit R)} :
    Allows d (p.add o t) ↔
      o.allows (decide (d ∈ t.docs)) = true ∧ Allows d p := by
  cases o with
  | must => simp [Allows, add, and_assoc, Occur.allows]
  | should => simp [Allows, add, Occur.allows]
  | mustNot =>
    simp only [Allows, add, List.forall_mem_cons, Occur.allows, Bool.not_eq_true',
      decide_eq_false_iff_not]
    tauto

theorem backs_add {p : TrailParts R} {o : Occur} {t : Trail (Merit R)} :
    Backs d (p.add o t) ↔
      o.backs (decide (d ∈ t.docs)) = true ∨ Backs d p := by
  cases o with
  | must => simp [Backs, add, Occur.backs]
  | should =>
    simp only [Backs, add, List.exists_mem_cons_iff, Occur.backs, decide_eq_true_eq]
    tauto
  | mustNot => simp [Backs, add, Occur.backs]

variable [ScoreNumber R]

theorem mem_docsOf_anyOf {ts : List (Trail (Merit R))} :
    d ∈ docsOf (anyOf ts) ↔ ∃ t ∈ ts, d ∈ t.docs := by
  match ts with
  | [] => simp [anyOf, docsOf]
  | [t] => simp [anyOf, docsOf]
  | t₁ :: t₂ :: ts =>
    have hmany : anyOf (t₁ :: t₂ :: ts) =
        some ((Trail.union (t₁ :: t₂ :: ts)).showing Merit.sum) := rfl
    rw [hmany, docsOf, Option.elim_some, docs_showing, mem_docs_union]

theorem mem_docsOf_allOf {ts : List (Trail (Merit R))} :
    d ∈ docsOf (allOf ts) ↔ ts ≠ [] ∧ ∀ t ∈ ts, d ∈ t.docs := by
  match ts with
  | [] => simp [allOf, docsOf]
  | [t] => simp [allOf, docsOf]
  | t₁ :: t₂ :: ts =>
    have hmany : allOf (t₁ :: t₂ :: ts) =
        some ((Trail.meet (t₁ :: t₂ :: ts)).showing Merit.sum) := rfl
    rw [hmany, docsOf, Option.elim_some, docs_showing, mem_docs_meet]

theorem anyOf_eq_none_iff {ts : List (Trail (Merit R))} : anyOf ts = none ↔ ts = [] := by
  rcases ts with _ | ⟨t₁, _ | ⟨t₂, ts⟩⟩ <;> simp [anyOf]

theorem allOf_eq_none_iff {ts : List (Trail (Merit R))} : allOf ts = none ↔ ts = [] := by
  match ts with
  | [] => simp [allOf]
  | [t] => simp [allOf]
  | t₁ :: t₂ :: ts => simp [allOf]

theorem mem_docsOf_positive {p : TrailParts R} {scored : Bool} :
    d ∈ docsOf (p.positive scored) ↔ (∀ t ∈ p.required, d ∈ t.docs) ∧ Backs d p := by
  have hall : d ∈ docsOf (allOf p.required) ↔
      p.required ≠ [] ∧ ∀ t ∈ p.required, d ∈ t.docs := mem_docsOf_allOf
  have hany : d ∈ docsOf (anyOf p.optional) ↔ ∃ t ∈ p.optional, d ∈ t.docs := mem_docsOf_anyOf
  rw [positive, Backs, ← hany]
  cases hrequired : allOf p.required with
  | none => simp [allOf_eq_none_iff.1 hrequired]
  | some required =>
    have hne : p.required ≠ [] := fun hnil => by
      rw [allOf_eq_none_iff.2 hnil] at hrequired
      cases hrequired
    rw [hrequired] at hall
    have hdocs : d ∈ required.docs ↔ ∀ t ∈ p.required, d ∈ t.docs := by
      simpa [hne, docsOf] using hall
    rw [← hdocs]
    cases anyOf p.optional with
    | none => simp [docsOf, hne]
    | some optional => cases scored <;> simp [docsOf, hne]

/-- A combination matches the documents that all of its clauses allow and some of them backs. -/
theorem mem_docsOf_combine {p : TrailParts R} {scored : Bool} :
    d ∈ docsOf (p.combine scored) ↔ Allows d p ∧ Backs d p := by
  have hpositive : d ∈ docsOf (p.positive scored) ↔
      (∀ t ∈ p.required, d ∈ t.docs) ∧ Backs d p := mem_docsOf_positive
  rw [combine, Allows]
  cases hp : p.positive scored with
  | none =>
    rw [hp] at hpositive
    have hnot : ¬ d ∈ docsOf (none : Option (Trail (Merit R))) := List.not_mem_nil
    rw [hpositive] at hnot
    rw [Option.map_none, hpositive]
    tauto
  | some t =>
    rw [hp, docsOf, Option.elim_some] at hpositive
    rw [Option.map_some, docsOf, Option.elim_some]
    cases hprohibited : p.prohibited with
    | nil =>
      rw [List.isEmpty_nil, if_pos rfl, hpositive]
      simp
    | cons n ns =>
      rw [List.isEmpty_cons, if_neg Bool.false_ne_true, mem_docs_without, hpositive]
      tauto

end TrailParts

variable [ScoreNumber R]

namespace Query

variable {g : Segment} {d : Nat}

theorem mem_docsOf_termTrail? {s : Snapshot} {scored : Bool} {b : R} {t : Term}
    {gates : List Threshold} :
    d ∈ docsOf (termTrail? s g scored b t gates) ↔
      ∃ p ∈ g.postingsOf t, p.doc = d ∧ passes gates p = true := by
  rw [termTrail?, Segment.postingsOf]
  cases g.postings? t with
  | none => simp [docsOf]
  | some ps =>
    rw [Option.map_some, docsOf, Option.elim_some, docs_showing, mem_docs, gatedVisits,
      Posting.trail, Option.getD_some]
    constructor
    · rintro ⟨v, hv, rfl⟩
      obtain ⟨p, hp, rfl⟩ := List.mem_map.1 hv
      obtain ⟨hp, hpass⟩ := List.mem_filter.1 hp
      exact ⟨p, hp, rfl, hpass⟩
    · rintro ⟨p, hp, rfl, hpass⟩
      exact ⟨p.visit, List.mem_map.2 ⟨p, List.mem_filter.2 ⟨hp, hpass⟩, rfl⟩, rfl⟩

theorem mem_docsOf_spans {s : Snapshot} {scored : Bool} {b : R} {q : Query}
    (htrail : q.trail? s g scored b = (q.spanSource? g .positions).map fun source =>
      source.2.showing (Merit.ofSpans (q.spanScorer s scored b) source.1))
    (hshows : q.shows g d = ((q.spanSource? g .positions).elim [] (·.2.docs)).contains d) :
    d ∈ docsOf (q.trail? s g scored b) ↔ q.shows g d = true := by
  rw [htrail, hshows, List.contains_iff_mem]
  cases q.spanSource? g .positions with
  | none => rfl
  | some source => rw [Option.map_some, docsOf, Option.elim_some, docs_showing, Option.elim_some]

mutual

/-- The trail of a grounded query visits the documents that the query matches, whether scores
are needed or not. -/
theorem mem_docs_trail? (s : Snapshot) (g : Segment) (d : Nat) :
    ∀ (q : Query) (scored : Bool) (b : R),
      d ∈ docsOf (q.trail? s g scored b) ↔ q.shows g d = true
  | .term t, scored, b => by
    rw [trail?, mem_docsOf_termTrail?]
    simp [shows, passes]
  | .markedTerm t _, scored, b => by
    rw [trail?, mem_docsOf_termTrail?]
    simp [shows, passes]
  | .frequentTerm t least _, scored, b => by
    rw [trail?, mem_docsOf_termTrail?]
    simp [shows, passes]
  | .boost q factor, scored, b => mem_docs_trail? s g d q scored _
  | .boolean clauses, scored, b => by
    rw [trail?, shows, Occur.admits, Bool.and_eq_true]
    have hparts := parts_trailParts? s g d clauses scored b
    cases hp : trailParts? s g scored b clauses with
    | none =>
      rw [hp, Option.elim_none] at hparts
      simp [hparts, docsOf]
    | some parts =>
      rw [hp, Option.elim_some] at hparts
      rw [Option.bind_some, TrailParts.mem_docsOf_combine, hparts.1, hparts.2]
  | .spanTerm _, _, _ => mem_docsOf_spans rfl rfl
  | .frequentSpanTerm _ _ _, _, _ => mem_docsOf_spans rfl rfl
  | .spanOr _ _, _, _ => mem_docsOf_spans rfl rfl
  | .spanNear _ _ _ _, _, _ => mem_docsOf_spans rfl rfl
  | .withoutPayload _, _, _ => mem_docsOf_spans rfl rfl
  | .frequentSpan _ _, _, _ => mem_docsOf_spans rfl rfl
  | .multiTerm _, _, _ => mem_docsOf_spans rfl rfl
  | .spanMultiTerm _, _, _ => mem_docsOf_spans rfl rfl
  | .deferred _ _, _, _ => mem_docsOf_spans rfl rfl
  | .nothing, _, _ => mem_docsOf_spans rfl rfl

/-- The trails of clauses allow and back the documents that the clauses do; where a clause that
has to match comes to nothing no document is allowed. -/
theorem parts_trailParts? (s : Snapshot) (g : Segment) (d : Nat) :
    ∀ (clauses : List (Occur × Query)) (scored : Bool) (b : R),
      (trailParts? s g scored b clauses).elim
        ((clausesShow g d clauses).all (fun c => c.1.allows c.2) = false) fun p =>
          (TrailParts.Allows d p ↔
            (clausesShow g d clauses).all (fun c => c.1.allows c.2) = true) ∧
          (TrailParts.Backs d p ↔ (clausesShow g d clauses).any (fun c => c.1.backs c.2) = true)
  | [], _, _ => by simp [trailParts?, clausesShow, TrailParts.Allows, TrailParts.Backs,
      TrailParts.empty]
  | (o, q) :: rest, scored, b => by
    have hfirst := mem_docs_trail? s g d q (if o = .mustNot then false else scored) b
    have hrest := parts_trailParts? s g d rest scored b
    rw [trailParts?, clausesShow]
    cases hq : trail? s g (if o = .mustNot then false else scored) b q with
    | none =>
      rw [hq] at hfirst
      have hshows : q.shows g d = false := by simpa [docsOf] using hfirst
      cases o with
      | must => simp [hshows, Occur.allows]
      | should => simpa [hshows, Occur.allows, Occur.backs] using hrest
      | mustNot => simpa [hshows, Occur.allows, Occur.backs] using hrest
    | some t =>
      rw [hq, docsOf, Option.elim_some] at hfirst
      have hdecide : decide (d ∈ t.docs) = q.shows g d := by
        rw [Bool.eq_iff_iff, decide_eq_true_eq, hfirst]
      cases hp : trailParts? s g scored b rest with
      | none =>
        rw [hp, Option.elim_none] at hrest
        simp only [Option.map_none, Option.elim_none, List.all_cons, hrest, Bool.and_false]
      | some p =>
        rw [hp, Option.elim_some] at hrest
        simp only [Option.map_some, Option.elim_some]
        rw [TrailParts.allows_add, TrailParts.backs_add,
          hrest.1, hrest.2, hdecide, List.all_cons, List.any_cons, Bool.and_eq_true,
          Bool.or_eq_true]
        exact ⟨Iff.rfl, Iff.rfl⟩

end

end Query

namespace Query

/-- Of clauses that may match, each on its own is enough. -/
theorem shows_boolean_map (g : Segment) (d : Nat) (f : Term → Query) (ts : List Term) :
    (boolean (ts.map fun t => (.should, f t))).shows g d = ts.any fun t => (f t).shows g d := by
  have hclauses : clausesShow g d (ts.map fun t => (.should, f t)) =
      ts.map fun t => (.should, (f t).shows g d) := by
    induction ts with
    | nil => rfl
    | cons t ts ih => rw [List.map_cons, List.map_cons, ← ih]; rfl
  have hall : (ts.all fun _ => true) = true := by simp
  rw [shows, hclauses, Occur.admits, List.all_map, List.any_map]
  exact (congrArg (· && _) hall).trans (Bool.true_and _)

end Query

/-- An expansion matches a document if some of its terms does. -/
theorem Searcher.shows_expansion (g : Segment) (d : Nat) (m : MultiTerm) (ts : List Term) :
    (expansion m ts).shows g d = ts.any fun t => (selectedTerm m t).shows g d := by
  rw [expansion]
  cases ts with
  | nil => rfl
  | cons t ts => exact Query.shows_boolean_map g d (selectedTerm m) (t :: ts)

namespace Query

theorem mem_segmentDocs {s : Snapshot} {g : Segment} {q : Query} {doc : Nat} :
    doc ∈ q.segmentDocs R s g ↔ ∃ d, q.shows g d = true ∧ g.docBase + d = doc := by
  have htrail := fun d => mem_docs_trail? s g d q true (ScoreNumber.one : R)
  simp only [← htrail, segmentDocs, segmentHits]
  cases q.trail? s g true (ScoreNumber.one : R) with
  | none => simp [docsOf]
  | some t => simp [docsOf, mem_docs]

end Query

/-- A search that may list all of its hits lists the documents of the segments that the grounded
query matches. -/
theorem Searcher.mem_hits_iff {s : Searcher} (hs : s.snapshot.Numbered)
    (hsound : ∀ g ∈ s.snapshot.segments, g.Sound) {size : Nat} {q : Query}
    (hq : q.Honest s.snapshot) {c c' : LookupCache} {top : TopDocs R} (hc : c.Sound s.snapshot)
    (h : Weighing.Yields (s.search size q) c top c') :
    ∃ r, s.grounded q = .ok r ∧ (top.totalHits ≤ size → ∀ doc, doc ∈ top.hits.map (·.doc) ↔
      ∃ g ∈ s.snapshot.segments, ∃ d, r.shows g d = true ∧ g.docBase + d = doc) := by
  obtain ⟨r, hground, hrest⟩ := topDocs_of_yields_search hs hsound hc h
  obtain ⟨rfl, -⟩ := hrest ((grounds_of_grounded hground).honest hq)
  refine ⟨r, hground, fun hsize doc => ?_⟩
  have hseen := TopHits.seen_ofParts size
    (s.snapshot.segments.map (r.segmentHits (R := R) s.snapshot))
  have hkept := (TopHits.kept_ofParts_perm (Nat.le_trans (Nat.le_of_eq hseen.symm) hsize)).map
    (·.doc)
  refine hkept.mem_iff.trans ?_
  rw [List.map_flatten, List.mem_flatten, List.map_map]
  simp only [List.mem_map, exists_exists_and_eq_and]
  exact exists_congr fun g => and_congr_right fun _ => Query.mem_segmentDocs

/-! ### Trails that visit no document twice -/

namespace TrailParts

/-- No trail of a clause visits a document twice. -/
structure Simple (p : TrailParts R) : Prop where
  /-- What has to match. -/
  required : ∀ t ∈ p.required, t.Simple
  /-- What may match. -/
  optional : ∀ t ∈ p.optional, t.Simple

omit [ScoreNumber R] in
theorem Simple.add {p : TrailParts R} (h : p.Simple) (o : Occur) {t : Trail (Merit R)}
    (ht : t.Simple) : (p.add o t).Simple := by
  cases o with
  | must => exact ⟨List.forall_mem_cons.2 ⟨ht, h.required⟩, h.optional⟩
  | should => exact ⟨h.required, List.forall_mem_cons.2 ⟨ht, h.optional⟩⟩
  | mustNot => exact ⟨h.required, h.optional⟩

theorem simple_anyOf {ts : List (Trail (Merit R))} (h : ∀ t ∈ ts, t.Simple) {t : Trail (Merit R)}
    (ht : anyOf ts = some t) : t.Simple := by
  match ts, h, ht with
  | [one], h, ht =>
    cases ht
    exact h _ (List.mem_cons_self ..)
  | t₁ :: t₂ :: ts, h, ht =>
    cases ht
    exact (simple_union h).showing _

theorem simple_allOf {ts : List (Trail (Merit R))} (h : ∀ t ∈ ts, t.Simple) {t : Trail (Merit R)}
    (ht : allOf ts = some t) : t.Simple := by
  match ts, h, ht with
  | [one], h, ht =>
    cases ht
    exact h _ (List.mem_cons_self ..)
  | t₁ :: t₂ :: ts, h, ht =>
    cases ht
    exact (simple_meet h).showing _

theorem simple_accompanied {required : Trail (Merit R)} (h : required.Simple)
    (optional : Trail (Merit R)) :
    (MatchPreference.accompanied Merit.prefer optional required).Simple := by
  refine ⟨sound_iff_docs.2 ?_, ?_⟩
  · rw [MatchPreference.docs_accompanied]
    exact sound_iff_docs.1 h.sound
  · rw [MatchPreference.docs_accompanied]
    exact h.once

theorem Simple.positive {p : TrailParts R} (h : p.Simple) {scored : Bool} {t : Trail (Merit R)}
    (ht : p.positive scored = some t) : t.Simple := by
  rw [TrailParts.positive] at ht
  cases hrequired : allOf p.required with
  | none =>
    rw [hrequired] at ht
    exact simple_anyOf h.optional ht
  | some required =>
    have hsimple := simple_allOf h.required hrequired
    rw [hrequired] at ht
    cases hoptional : anyOf p.optional with
    | none =>
      rw [hoptional] at ht
      cases ht
      exact hsimple
    | some optional =>
      rw [hoptional] at ht
      cases ht
      split
      · exact simple_accompanied hsimple optional
      · exact hsimple

theorem Simple.combine {p : TrailParts R} (h : p.Simple) {scored : Bool} {t : Trail (Merit R)}
    (ht : p.combine scored = some t) : t.Simple := by
  obtain ⟨u, hu, rfl⟩ := Option.map_eq_some_iff.1 ht
  have hsimple := h.positive hu
  split
  · exact hsimple
  · exact hsimple.sublist List.filter_sublist

end TrailParts

namespace Query

variable {g : Segment}

theorem simple_termTrail? (hsound : g.Sound) (h : g.NamesOnce) {s : Snapshot} {scored : Bool}
    {b : R} {t : Term} {gates : List Threshold} {trail : Trail (Merit R)}
    (htrail : termTrail? s g scored b t gates = some trail) : trail.Simple := by
  obtain ⟨ps, hps, rfl⟩ := Option.map_eq_some_iff.1 htrail
  have hpostings := h t
  rw [Segment.postingsOf, hps, Option.getD_some] at hpostings
  refine Trail.Simple.showing ⟨?_, Trail.nodup_docs_gatedVisits hpostings gates⟩ _
  exact (hsound.trail t ps hps).sublist (List.filter_sublist.map _)

omit [ScoreNumber R] in
theorem simple_spans (hsound : g.Sound) (h : g.NamesOnce) {q : Query}
    {f : SpanSource → List Span → Merit R} {trail : Trail (Merit R)}
    (htrail : (q.spanSource? g .positions).map (fun source => source.2.showing (f source)) =
      some trail) : trail.Simple := by
  obtain ⟨source, hsource, rfl⟩ := Option.map_eq_some_iff.1 htrail
  exact (tidy_spanSource? hsound h q hsource).toSimple.showing _

mutual

/-- The trails of queries visit no document twice over documents that name no field twice. -/
theorem simple_trail? (hsound : g.Sound) (h : g.NamesOnce) (s : Snapshot) :
    ∀ (q : Query) {scored : Bool} {b : R} {t : Trail (Merit R)},
      q.trail? s g scored b = some t → t.Simple
  | .term _, _, _, _, ht => simple_termTrail? hsound h ht
  | .markedTerm _ _, _, _, _, ht => simple_termTrail? hsound h ht
  | .frequentTerm _ _ _, _, _, _, ht => simple_termTrail? hsound h ht
  | .boost q _, _, _, _, ht => simple_trail? hsound h s q ht
  | .boolean clauses, _, _, _, ht => by
    obtain ⟨p, hp, ht⟩ := Option.bind_eq_some_iff.1 ht
    exact (simple_trailParts? hsound h s clauses hp).combine ht
  | .spanTerm _, _, _, _, ht => simple_spans hsound h ht
  | .frequentSpanTerm _ _ _, _, _, _, ht => simple_spans hsound h ht
  | .spanOr _ _, _, _, _, ht => simple_spans hsound h ht
  | .spanNear _ _ _ _, _, _, _, ht => simple_spans hsound h ht
  | .withoutPayload _, _, _, _, ht => simple_spans hsound h ht
  | .frequentSpan _ _, _, _, _, ht => simple_spans hsound h ht
  | .multiTerm _, _, _, _, ht => by cases ht
  | .spanMultiTerm _, _, _, _, ht => by cases ht
  | .deferred _ _, _, _, _, ht => by cases ht
  | .nothing, _, _, _, ht => by cases ht

/-- The trails of clauses visit no document twice over documents that name no field twice. -/
theorem simple_trailParts? (hsound : g.Sound) (h : g.NamesOnce) (s : Snapshot) :
    ∀ (clauses : List (Occur × Query)) {scored : Bool} {b : R} {p : TrailParts R},
      trailParts? s g scored b clauses = some p → p.Simple
  | [], _, _, _, hp => by
    cases hp
    exact ⟨by simp [TrailParts.empty], by simp [TrailParts.empty]⟩
  | (o, q) :: rest, scored, b, p, hp => by
    rw [trailParts?] at hp
    cases hq : trail? s g (if o = .mustNot then false else scored) b q with
    | none =>
      simp only [hq] at hp
      split at hp
      · cases hp
      · exact simple_trailParts? hsound h s rest hp
    | some t =>
      simp only [hq] at hp
      obtain ⟨p', hp', rfl⟩ := Option.map_eq_some_iff.1 hp
      exact (simple_trailParts? hsound h s rest hp').add o (simple_trail? hsound h s q hq)

end

end Query

end TextSearch
