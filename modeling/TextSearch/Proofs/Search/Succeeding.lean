import TextSearch.Proofs.Index.Snapshots
import TextSearch.Proofs.Search.Results

/-!
# Searches that succeed

Once a query is grounded a search can fail only where places are asked for that are not
stored, or where something else than places stands in their stead. `Query.runs` says
that neither is the case, and `Searcher.exists_yields_search` that then a search
succeeds.
-/

namespace TextSearch

namespace Query

mutual

/-- Whether a query asks for places, and only in fields that are known to store them. -/
def spansRun (positioned : String → Bool) : Query → Bool
  | spanTerm t => positioned t.field
  | frequentSpanTerm t _ _ => positioned t.field
  | spanOr _ clauses => allSpansRun positioned clauses
  | spanNear _ clauses _ _ => allSpansRun positioned clauses
  | withoutPayload q => spansRun positioned q
  | frequentSpan q _ => spansRun positioned q
  | _ => false

/-- Whether all of several queries ask for places in fields that are known to store them. -/
def allSpansRun (positioned : String → Bool) : List Query → Bool
  | [] => true
  | q :: rest => spansRun positioned q && allSpansRun positioned rest

end

mutual

/-- Whether a query is grounded and asks for places only in fields that are known to store
them. -/
def runs (positioned : String → Bool) : Query → Bool
  | term _ => true
  | markedTerm _ _ => true
  | frequentTerm _ _ _ => true
  | boost q _ => runs positioned q
  | boolean clauses => clausesRun positioned clauses
  | nothing => true
  | q => spansRun positioned q

/-- Whether clauses are grounded and ask for places only in fields that are known to store
them. -/
def clausesRun (positioned : String → Bool) : List (Occur × Query) → Bool
  | [] => true
  | (_, q) :: rest => runs positioned q && clausesRun positioned rest

end

end Query

/-- Where a snapshot has one of these fields it stores places. -/
def Snapshot.Positioned (s : Snapshot) (positioned : String → Bool) : Prop :=
  ∀ g ∈ s.segments, ∀ field options, positioned field = true →
    g.options? field = some options → options.hasPositions = true

/-- The fields of an index store places if they are declared so. -/
theorem Snapshot.Holds.positioned {declared : Dictionary IndexOptions}
    {parts : List (List Document)} {s : Snapshot} (h : s.Holds declared parts) :
    s.Positioned fun field => (declaredOptions declared field).hasPositions := by
  intro g hg field options hpositions hoptions
  obtain ⟨docs, -, hsegment⟩ := SegmentsHold.exists_part h g hg
  rwa [hsegment.options? hoptions]

variable {R : Type} [ScoreNumber R]

namespace Weighing

variable {s : Snapshot}

omit [ScoreNumber R] in
/-- The documents of a term can be opened wherever its lookup serves. -/
theorem exists_matcher_term (hs : s.Numbered) {g : Segment} (hg : g ∈ s.segments) {t : Term}
    {l : TermLookup} {counted : Bool} (hserves : LookupCache.Serves s t counted l) (q : Query)
    (scorer : Option (BM25 R)) (least : Option Threshold) :
    ∃ opened, (Weight.term q t l scorer least).matcher g = .ok opened := by
  rw [Weight.matcher, Weight.openTerm, hserves.1.get hs hg]
  rcases g.entry?_cases t with ⟨-, hentry⟩ | ⟨ps, entry, f, -, hentry, -, hpostings⟩
  · exact ⟨none, by rw [hentry]; rfl⟩
  · have hsupports : f.options.supports .frequencies = true := rfl
    rw [hentry]
    simp only [bind, Except.bind, hpostings, hsupports, if_true, pure, Except.pure]
    exact ⟨_, rfl⟩

theorem exists_yields_termWeight (hs : s.Numbered) {t : Term} {carried : Option TermLookup}
    {c : LookupCache} (hcarried : TermLookup.Honest s t carried) (hc : c.Sound s) (q : Query)
    (least : Option Threshold) (scored : Bool) (boost : R) :
    ∃ w c', Yields (termWeight s q t carried least scored boost) c w c' ∧
      ∀ g ∈ s.segments, ∃ opened, w.matcher g = .ok opened := by
  obtain ⟨l, c', hl⟩ : ∃ l c', Yields (resolve s t carried scored) c l c' := ⟨_, _, rfl⟩
  obtain ⟨hserves, -⟩ := yields_resolve hc hcarried hl
  refine ⟨_, c', yields_bind.2 ⟨l, c', hl, yields_pure.2 ⟨rfl, rfl⟩⟩, fun g hg => ?_⟩
  exact exists_matcher_term hs hg hserves q _ least

/-- The places of a term can be opened wherever its lookup serves and places are stored. -/
theorem exists_spans_term (hs : s.Numbered) {positioned : String → Bool}
    (hpositioned : s.Positioned positioned) {g : Segment} (hg : g ∈ s.segments) {t : Term}
    (ht : positioned t.field = true) {l : TermLookup} {counted : Bool}
    (hserves : LookupCache.Serves s t counted l) (q : Query) (least : Option Threshold)
    (detail : Detail) : ∃ opened, (SpanWeight.term q t l least).spans g detail = .ok opened := by
  rw [SpanWeight.spans, SpanWeight.openTerm, hserves.1.get hs hg]
  rcases g.entry?_cases t with ⟨-, hentry⟩ | ⟨ps, entry, f, -, hentry, hf, hpostings⟩
  · exact ⟨none, by rw [hentry]; rfl⟩
  · have hoptions : g.options? t.field = some f.options := by
      rw [Segment.options?, hf]
      rfl
    have hpositions := hpositioned g hg t.field f.options ht hoptions
    have hsupports : f.options.supports (detail.max .positions) = true := by
      cases detail <;> simp [IndexOptions.supports, Detail.max, hpositions]
    rw [hentry]
    simp only [bind, Except.bind, hoptions, Option.any_some, hpositions, if_true, hpostings,
      hsupports, pure, Except.pure]
    exact ⟨_, rfl⟩

/-- A weight can be opened to any detail in every segment. -/
def CanOpen (s : Snapshot) (w : SpanWeight) : Prop :=
  ∀ g ∈ s.segments, ∀ detail, ∃ opened, w.spans g detail = .ok opened

theorem exists_spansAny {g : Segment} {detail : Detail} {ws : List SpanWeight}
    (h : ∀ w ∈ ws, ∃ opened, w.spans g detail = .ok opened) :
    ∃ cs, SpanWeight.spansAny g detail ws = .ok cs := by
  induction ws with
  | nil => exact ⟨[], rfl⟩
  | cons w ws ih =>
    obtain ⟨⟨opened, hopened⟩, hrest⟩ := List.forall_mem_cons.1 h
    obtain ⟨cs, hcs⟩ := ih hrest
    exact ⟨_, except_bind_eq_ok.2 ⟨opened, hopened, except_bind_eq_ok.2 ⟨cs, hcs, rfl⟩⟩⟩

theorem exists_spansAll {g : Segment} {detail : Detail} {ws : List SpanWeight}
    (h : ∀ w ∈ ws, ∃ opened, w.spans g detail = .ok opened) :
    ∃ cs, SpanWeight.spansAll g detail ws = .ok cs := by
  induction ws with
  | nil => exact ⟨some [], rfl⟩
  | cons w ws ih =>
    obtain ⟨⟨opened, hopened⟩, hrest⟩ := List.forall_mem_cons.1 h
    obtain ⟨cs, hcs⟩ := ih hrest
    rw [SpanWeight.spansAll, hopened]
    cases opened with
    | none => exact ⟨none, rfl⟩
    | some c => exact ⟨cs.map (c :: ·), by rw [hcs]; rfl⟩

theorem canOpen_union {ws : List SpanWeight} (h : ∀ w ∈ ws, CanOpen s w) (q : Query)
    (field : String) : CanOpen s (.union q field ws) := by
  intro g hg detail
  obtain ⟨cs, hcs⟩ := exists_spansAny fun w hw => h w hw g hg detail
  rw [SpanWeight.spans, hcs]
  rcases cs with _ | ⟨c₁, _ | ⟨c₂, cs⟩⟩
  · exact ⟨none, rfl⟩
  · exact ⟨some c₁, rfl⟩
  · exact ⟨_, rfl⟩

theorem canOpen_near {ws : List SpanWeight} (h : ∀ w ∈ ws, CanOpen s w) (q : Query)
    (field : String) (slop : UInt32) (inOrder : Bool) :
    CanOpen s (.near q field ws slop inOrder) := by
  intro g hg detail
  obtain ⟨cs, hcs⟩ := exists_spansAll fun w hw => h w hw g hg detail
  rw [SpanWeight.spans, hcs]
  exact ⟨_, rfl⟩

theorem canOpen_filtered {w : SpanWeight} (h : CanOpen s w) (q : Query) (filter : SpanFilter) :
    CanOpen s (.filtered q w filter) := by
  intro g hg detail
  obtain ⟨opened, hopened⟩ := h g hg (if filter = .emptyPayload then detail.max .payloads else detail)
  exact ⟨_, except_bind_eq_ok.2 ⟨opened, hopened, rfl⟩⟩

mutual

/-- Binding a span query that runs does not fail, and neither does opening it. -/
theorem exists_yields_spanWeight (hs : s.Numbered) (hsound : ∀ g ∈ s.segments, g.Sound)
    {positioned : String → Bool} (hpositioned : s.Positioned positioned) :
    ∀ (q : Query) (counted : Bool) {c : LookupCache}, q.spansRun positioned = true →
      q.Honest s → c.Sound s →
      ∃ w c', Yields (spanWeight s counted q) c w c' ∧ CanOpen s w
  | .spanTerm t, counted, c, hq, _, hc => by
    obtain ⟨l, c', hl⟩ : ∃ l c', Yields (resolve s t none counted) c l c' := ⟨_, _, rfl⟩
    obtain ⟨hserves, -⟩ := yields_resolve hc (by rintro l ⟨⟩) hl
    refine ⟨_, c', yields_bind.2 ⟨l, c', hl, yields_pure.2 ⟨rfl, rfl⟩⟩, fun g hg detail => ?_⟩
    exact exists_spans_term hs hpositioned hg hq hserves _ none detail
  | .frequentSpanTerm t least carried, counted, c, hq, hhonest, hc => by
    obtain ⟨l, c', hl⟩ : ∃ l c', Yields (resolve s t carried counted) c l c' := ⟨_, _, rfl⟩
    have hcarried : TermLookup.Honest s t carried := by
      rintro l rfl hid
      exact hhonest (t, l) (List.mem_singleton_self _) hid
    obtain ⟨hserves, -⟩ := yields_resolve hc hcarried hl
    refine ⟨_, c', yields_bind.2 ⟨l, c', hl, yields_pure.2 ⟨rfl, rfl⟩⟩, fun g hg detail => ?_⟩
    exact exists_spans_term hs hpositioned hg hq hserves _ (some least) detail
  | .spanOr field clauses, counted, c, hq, hhonest, hc => by
    obtain ⟨ws, c', hws, hopen⟩ :=
      exists_yields_spanWeights hs hsound hpositioned clauses counted hq hhonest hc
    exact ⟨_, c', yields_bind.2 ⟨ws, c', hws, yields_pure.2 ⟨rfl, rfl⟩⟩, canOpen_union hopen _ _⟩
  | .spanNear field clauses slop inOrder, counted, c, hq, hhonest, hc => by
    obtain ⟨ws, c', hws, hopen⟩ :=
      exists_yields_spanWeights hs hsound hpositioned clauses counted hq hhonest hc
    exact ⟨_, c', yields_bind.2 ⟨ws, c', hws, yields_pure.2 ⟨rfl, rfl⟩⟩,
      canOpen_near hopen _ _ _ _⟩
  | .withoutPayload q, counted, c, hq, hhonest, hc => by
    obtain ⟨w, c', hw, hopen⟩ := exists_yields_spanWeight hs hsound hpositioned q counted hq hhonest hc
    exact ⟨_, c', yields_bind.2 ⟨w, c', hw, yields_pure.2 ⟨rfl, rfl⟩⟩, canOpen_filtered hopen _ _⟩
  | .frequentSpan q least, counted, c, hq, hhonest, hc => by
    obtain ⟨w, c', hw, hopen⟩ := exists_yields_spanWeight hs hsound hpositioned q counted hq hhonest hc
    exact ⟨_, c', yields_bind.2 ⟨w, c', hw, yields_pure.2 ⟨rfl, rfl⟩⟩, canOpen_filtered hopen _ _⟩

/-- Binding several span queries that run does not fail, and neither does opening them. -/
theorem exists_yields_spanWeights (hs : s.Numbered) (hsound : ∀ g ∈ s.segments, g.Sound)
    {positioned : String → Bool} (hpositioned : s.Positioned positioned) :
    ∀ (qs : List Query) (counted : Bool) {c : LookupCache},
      Query.allSpansRun positioned qs = true →
      (∀ l ∈ Query.carriedByAll qs, l.2.snapshot = s.id → l.2.Faithful s l.1) → c.Sound s →
      ∃ ws c', Yields (spanWeights s counted qs) c ws c' ∧ ∀ w ∈ ws, CanOpen s w
  | [], _, c, _, _, _ => ⟨[], c, yields_pure.2 ⟨rfl, rfl⟩, by simp⟩
  | q :: qs, counted, c, hq, hhonest, hc => by
    rw [Query.allSpansRun, Bool.and_eq_true] at hq
    rw [Query.carriedByAll] at hhonest
    have hboth := List.forall_mem_append.1 hhonest
    obtain ⟨w, c₁, hw, hopen⟩ :=
      exists_yields_spanWeight hs hsound hpositioned q counted hq.1 hboth.1 hc
    have hc₁ := (bound_of_yields_spanWeight hs hsound q hboth.1 hc hw).2
    obtain ⟨ws, c₂, hws, hopens⟩ :=
      exists_yields_spanWeights hs hsound hpositioned qs counted hq.2 hboth.2 hc₁
    exact ⟨w :: ws, c₂, yields_bind.2 ⟨w, c₁, hw, yields_bind.2
      ⟨ws, c₂, hws, yields_pure.2 ⟨rfl, rfl⟩⟩⟩, List.forall_mem_cons.2 ⟨hopen, hopens⟩⟩

end

/-- Binding the places that a query asks for does not fail, and neither does opening them. -/
theorem exists_yields_spansWeight (hs : s.Numbered) (hsound : ∀ g ∈ s.segments, g.Sound)
    {positioned : String → Bool} (hpositioned : s.Positioned positioned) {q : Query}
    (hq : q.spansRun positioned = true) (hhonest : q.Honest s) {c : LookupCache} (hc : c.Sound s)
    (scored : Bool) (boost : R) :
    ∃ w c', Yields (spansWeight s q scored boost) c w c' ∧
      ∀ g ∈ s.segments, ∃ opened, w.matcher g = .ok opened := by
  obtain ⟨w, c', hw, hopen⟩ := exists_yields_spanWeight hs hsound hpositioned q scored hq hhonest hc
  refine ⟨_, c', yields_bind.2 ⟨w, c', hw, yields_pure.2 ⟨rfl, rfl⟩⟩, fun g hg => ?_⟩
  obtain ⟨hbound, -⟩ := bound_of_yields_spanWeight hs hsound q hhonest hc hw
  obtain ⟨opened, hopened⟩ := hopen g hg .positions
  have hrel := hbound.opens g hg _ opened hopened
  generalize q.spanSource? g .positions = source at hrel
  rw [Weight.matcher, Weight.openSpans, hopened]
  cases hrel with
  | none => exact ⟨none, rfl⟩
  | some hc =>
    obtain ⟨m, hm, -⟩ := Matcher.walks_ofSpans hc (spanScorer s w scored boost)
    exact ⟨some m, except_map_eq_ok.2 ⟨m, hm, rfl⟩⟩

mutual

/-- Binding a query that runs does not fail, and neither does opening it. -/
theorem exists_yields_weight (hs : s.Numbered) (hsound : ∀ g ∈ s.segments, g.Sound)
    {positioned : String → Bool} (hpositioned : s.Positioned positioned) :
    ∀ (q : Query) (scored : Bool) (boost : R) {c : LookupCache}, q.runs positioned = true →
      q.Honest s → c.Sound s →
      ∃ w c', Yields (weight s scored boost q) c w c' ∧
        ∀ g ∈ s.segments, ∃ opened, w.matcher g = .ok opened
  | .term t, scored, boost, _, _, _, hc =>
    exists_yields_termWeight hs (by rintro l ⟨⟩) hc _ none scored boost
  | .markedTerm t mark, scored, boost, _, _, _, hc =>
    exists_yields_termWeight hs (by rintro l ⟨⟩) hc _ none scored boost
  | .frequentTerm t least carried, scored, boost, _, _, hhonest, hc =>
    exists_yields_termWeight hs
      (by rintro l rfl hid; exact hhonest (t, l) (List.mem_singleton_self _) hid) hc _ (some least)
      scored boost
  | .boost q factor, scored, boost, _, hq, hhonest, hc =>
    exists_yields_weight hs hsound hpositioned q scored _ hq hhonest hc
  | .boolean clauses, scored, boost, c, hq, hhonest, hc => by
    obtain ⟨ws, c', hws, hopened⟩ :=
      exists_yields_clauseWeights hs hsound hpositioned clauses scored boost hq hhonest hc
    have hparts := (opensParts_of_yields_clauseWeights hs hsound clauses hhonest hc hws).1
    refine ⟨_, c', yields_bind.2 ⟨ws, c', hws, yields_pure.2 ⟨rfl, rfl⟩⟩, fun g hg => ?_⟩
    obtain ⟨parts, hok⟩ := hopened g hg
    have hrel := hparts g hg parts hok
    rw [Weight.matcher, hok]
    generalize Query.trailParts? s g scored boost clauses = tp at hrel
    cases hrel with
    | none => exact ⟨none, rfl⟩
    | some hwalks =>
      obtain ⟨o, ho, -⟩ := MatcherParts.rel_combine hwalks scored
      exact ⟨o, ho⟩
  | .nothing, _, _, c, _, _, _ => ⟨_, c, yields_pure.2 ⟨rfl, rfl⟩, fun _ _ => ⟨none, rfl⟩⟩
  | .spanTerm _, scored, boost, _, hq, hhonest, hc =>
    exists_yields_spansWeight hs hsound hpositioned hq hhonest hc scored boost
  | .frequentSpanTerm _ _ _, scored, boost, _, hq, hhonest, hc =>
    exists_yields_spansWeight hs hsound hpositioned hq hhonest hc scored boost
  | .spanOr _ _, scored, boost, _, hq, hhonest, hc =>
    exists_yields_spansWeight hs hsound hpositioned hq hhonest hc scored boost
  | .spanNear _ _ _ _, scored, boost, _, hq, hhonest, hc =>
    exists_yields_spansWeight hs hsound hpositioned hq hhonest hc scored boost
  | .withoutPayload _, scored, boost, _, hq, hhonest, hc =>
    exists_yields_spansWeight hs hsound hpositioned hq hhonest hc scored boost
  | .frequentSpan _ _, scored, boost, _, hq, hhonest, hc =>
    exists_yields_spansWeight hs hsound hpositioned hq hhonest hc scored boost
  | .multiTerm _, _, _, _, hq, _, _ => by cases hq
  | .spanMultiTerm _, _, _, _, hq, _, _ => by cases hq
  | .deferred _ _, _, _, _, hq, _, _ => by cases hq

/-- Binding clauses that run does not fail, and neither does opening them. -/
theorem exists_yields_clauseWeights (hs : s.Numbered) (hsound : ∀ g ∈ s.segments, g.Sound)
    {positioned : String → Bool} (hpositioned : s.Positioned positioned) :
    ∀ (clauses : List (Occur × Query)) (scored : Bool) (boost : R) {c : LookupCache},
      Query.clausesRun positioned clauses = true →
      (∀ l ∈ Query.carriedByClauses clauses, l.2.snapshot = s.id → l.2.Faithful s l.1) →
      c.Sound s →
      ∃ ws c', Yields (clauseWeights s scored boost clauses) c ws c' ∧
        ∀ g ∈ s.segments, ∃ opened, Weight.parts g ws = .ok opened
  | [], _, _, c, _, _, _ => ⟨[], c, yields_pure.2 ⟨rfl, rfl⟩, fun _ _ => ⟨_, rfl⟩⟩
  | (o, q) :: rest, scored, boost, c, hq, hhonest, hc => by
    rw [Query.clausesRun, Bool.and_eq_true] at hq
    rw [Query.carriedByClauses] at hhonest
    have hboth := List.forall_mem_append.1 hhonest
    obtain ⟨w, c₁, hw, hfirst⟩ := exists_yields_weight hs hsound hpositioned q
      (if o = .mustNot then false else scored) boost hq.1 hboth.1 hc
    have hc₁ := (opens_of_yields_weight hs hsound q hboth.1 hc hw).2
    obtain ⟨ws, c₂, hws, hrest⟩ :=
      exists_yields_clauseWeights hs hsound hpositioned rest scored boost hq.2 hboth.2 hc₁
    refine ⟨(o, w) :: ws, c₂, yields_bind.2 ⟨w, c₁, hw, yields_bind.2
      ⟨ws, c₂, hws, yields_pure.2 ⟨rfl, rfl⟩⟩⟩, fun g hg => ?_⟩
    obtain ⟨first, hfirst⟩ := hfirst g hg
    obtain ⟨others, hothers⟩ := hrest g hg
    rw [Weight.parts, hfirst, hothers]
    cases first with
    | none =>
      by_cases ho : o = .must
      · exact ⟨none, if_pos ho⟩
      · exact ⟨others, if_neg ho⟩
    | some m => exact ⟨_, rfl⟩

end

/-- What does not fail for any member of a list may be done for one member after the other. -/
theorem exists_yields_mapM_lift {α β : Type} {f : α → Except Fault β} (c : LookupCache) :
    ∀ {xs : List α}, (∀ x ∈ xs, ∃ y, f x = .ok y) →
      ∃ ys, Yields (xs.mapM fun x => (f x : Weighing β)) c ys c
  | [], _ => ⟨[], by rw [List.mapM_nil]; exact yields_pure.2 ⟨rfl, rfl⟩⟩
  | x :: xs, h => by
    obtain ⟨⟨y, hy⟩, hrest⟩ := List.forall_mem_cons.1 h
    obtain ⟨ys, hys⟩ := exists_yields_mapM_lift c hrest
    refine ⟨y :: ys, ?_⟩
    rw [List.mapM_cons]
    exact yields_bind.2 ⟨y, c, yields_lift.2 ⟨hy, rfl⟩,
      yields_bind.2 ⟨ys, c, hys, yields_pure.2 ⟨rfl, rfl⟩⟩⟩

theorem exists_hits {g : Segment} {q : Query} {w : Weight R} {scored : Bool}
    (hopens : Opens s g scored (ScoreNumber.one : R) q w)
    (h : ∃ opened, w.matcher g = .ok opened) : ∃ hs, w.hits g = .ok hs := by
  obtain ⟨opened, hopened⟩ := h
  have hrel := hopens opened hopened
  generalize q.trail? s g scored (ScoreNumber.one : R) = t at hrel
  rw [Weight.hits, hopened]
  cases hrel with
  | none => exact ⟨[], rfl⟩
  | some hm =>
    simp only [hm.hits, bind, Except.bind, pure, Except.pure]
    exact ⟨_, rfl⟩

end Weighing

namespace Searcher

open Weighing

/-- A search succeeds if its query is grounded to one that runs. -/
theorem exists_yields_search {s : Searcher} (hs : s.snapshot.Numbered)
    (hsound : ∀ g ∈ s.snapshot.segments, g.Sound) {positioned : String → Bool}
    (hpositioned : s.snapshot.Positioned positioned) {q r : Query}
    (hground : s.grounded q = .ok r) (hr : r.runs positioned = true)
    (hhonest : r.Honest s.snapshot) {c : LookupCache}
    (hc : c.Sound s.snapshot) (size : Nat) :
    ∃ (top : TopDocs R) (c' : LookupCache), Yields (s.search size q) c top c' := by
  obtain ⟨w, c', hw, hopened⟩ := exists_yields_weight (R := R) hs hsound hpositioned r
    true ScoreNumber.one hr hhonest hc
  have hopens := (opens_of_yields_weight hs hsound r hhonest hc hw).1
  have hprepare : Yields (s.prepare true q) c w c' :=
    yields_bind.2 ⟨r, c, yields_lift.2 ⟨hground, rfl⟩, hw⟩
  obtain ⟨found, hfound⟩ := exists_yields_mapM_lift c' fun g hg =>
    exists_hits (hopens g hg) (hopened g hg)
  exact ⟨_, c', yields_bind.2 ⟨w, c', hprepare, yields_bind.2
    ⟨found, c', hfound, yields_pure.2 ⟨rfl, rfl⟩⟩⟩⟩

end Searcher

end TextSearch
