import TextSearch.Proofs.Match.Tree
import TextSearch.Proofs.Search.Weights

/-!
# Opening queries

`Query.trail?` says what a grounded query comes to in a segment: the documents
that it matches there with what they come to, or nothing where the segment cannot
have any. It follows the same shortcuts as the opening of a weight does. Main
statement: `Weighing.opens_of_yields_weight`, that binding a query and opening it gives
a matcher that follows this trail.
-/

namespace TextSearch

variable {R : Type} [ScoreNumber R]

/-- The trails of the clauses of a boolean combination, by the parts that they play. -/
structure TrailParts (R : Type) where
  /-- What has to match. -/
  required : List (Trail (Merit R))
  /-- What may match. -/
  optional : List (Trail (Merit R))
  /-- What must not match. -/
  prohibited : List (Trail (Merit R))

namespace TrailParts

/-- No clauses. -/
def empty : TrailParts R := ⟨[], [], []⟩

/-- One more clause in front. -/
def add (p : TrailParts R) (o : Occur) (t : Trail (Merit R)) : TrailParts R :=
  match o with
  | .must => { p with required := t :: p.required }
  | .should => { p with optional := t :: p.optional }
  | .mustNot => { p with prohibited := t :: p.prohibited }

/-- The documents of any of several trails; a single one stands for itself. -/
def anyOf : List (Trail (Merit R)) → Option (Trail (Merit R))
  | [] => none
  | [t] => some t
  | ts => some ((Trail.union ts).showing Merit.sum)

/-- The documents of all of several trails; a single one stands for itself. -/
def allOf : List (Trail (Merit R)) → Option (Trail (Merit R))
  | [] => none
  | [t] => some t
  | ts => some ((Trail.meet ts).showing Merit.sum)

/-- What has to match together with what may match. -/
def positive (scored : Bool) (p : TrailParts R) : Option (Trail (Merit R)) :=
  match allOf p.required, anyOf p.optional with
  | none, optional => optional
  | some required, some optional =>
    some (if scored then MatchPreference.accompanied Merit.prefer optional required else required)
  | some required, none => some required

/-- The trail of the whole combination, unless nothing can match. -/
def combine (scored : Bool) (p : TrailParts R) : Option (Trail (Merit R)) :=
  (p.positive scored).map fun t =>
    if p.prohibited.isEmpty then t else t.without p.prohibited

end TrailParts

namespace Query

/-- The scorer of a span query over a snapshot, if scores are needed. -/
def spanScorer (s : Snapshot) (q : Query) (scored : Bool) (boost : R) : Option (BM25 R) :=
  if scored then
    match q.spanField?.bind s.fieldStatistics?,
      (Term.sorted q.spanTerms).filterMap (TermLookup.totals? s) with
    | some field, t :: ts =>
      some (.ofTerms ((t :: ts).map (·.docFreq)) (Weighing.averageLength field) field.maxDoc boost)
    | _, _ => some (.absent boost)
  else none

/-- What a query for a term comes to in a segment. -/
def termTrail? (s : Snapshot) (g : Segment) (scored : Bool) (boost : R) (t : Term)
    (gates : List Threshold) : Option (Trail (Merit R)) :=
  (g.postings? t).map fun ps =>
    (gatedVisits gates ps).showing
      (Merit.ofPosting (Weighing.termScorer s t (.ofSnapshot s t true) scored boost))

mutual

/-- What a grounded query comes to in a segment. -/
def trail? (s : Snapshot) (g : Segment) (scored : Bool) (boost : R) :
    Query → Option (Trail (Merit R))
  | term t => termTrail? s g scored boost t []
  | markedTerm t _ => termTrail? s g scored boost t []
  | frequentTerm t least _ => termTrail? s g scored boost t [least]
  | Query.boost q factor => trail? s g scored (boost * ScoreNumber.ofBoost factor) q
  | boolean clauses => (trailParts? s g scored boost clauses).bind (·.combine scored)
  | q =>
    (q.spanSource? g .positions).map fun source =>
      source.2.showing (Merit.ofSpans (q.spanScorer s scored boost) source.1)

/-- What the clauses of a boolean combination come to in a segment, unless one that has to match
comes to nothing. -/
def trailParts? (s : Snapshot) (g : Segment) (scored : Bool) (boost : R) :
    List (Occur × Query) → Option (TrailParts R)
  | [] => some .empty
  | (o, q) :: rest =>
    match trail? s g (if o = .mustNot then false else scored) boost q with
    | none => if o = .must then none else trailParts? s g scored boost rest
    | some t => (trailParts? s g scored boost rest).map (·.add o t)

end

theorem trail?_of_sought? (s : Snapshot) (g : Segment) {scored : Bool} {boost : R} {q : Query}
    {t : Term} {least : Option Threshold} (h : q.sought? = some (t, least)) :
    q.trail? s g scored boost = termTrail? s g scored boost t least.toList := by
  cases q <;> cases h <;> rfl

theorem trail?_of_isSpan (s : Snapshot) (g : Segment) {scored : Bool} {boost : R} {q : Query}
    (h : q.isSpan = true) :
    q.trail? s g scored boost = (q.spanSource? g .positions).map fun source =>
      source.2.showing (Merit.ofSpans (q.spanScorer s scored boost) source.1) := by
  cases q <;> first | rfl | cases h

end Query

namespace MatcherParts

/-- The matchers of clauses follow trails, part by part. -/
structure Walks (p : MatcherParts R) (q : TrailParts R) : Prop where
  /-- What has to match. -/
  required : List.Forall₂ Matcher.Walks p.required q.required
  /-- What may match. -/
  optional : List.Forall₂ Matcher.Walks p.optional q.optional
  /-- What must not match. -/
  prohibited : List.Forall₂ Matcher.Walks p.prohibited q.prohibited

theorem walks_empty : Walks (.empty : MatcherParts R) .empty := ⟨.nil, .nil, .nil⟩

theorem Walks.add {p : MatcherParts R} {q : TrailParts R} (h : Walks p q) (o : Occur)
    {m : Matcher R} {t : Trail (Merit R)} (hm : m.Walks t) : Walks (p.add o m) (q.add o t) := by
  cases o with
  | must => exact ⟨.cons hm h.required, h.optional, h.prohibited⟩
  | should => exact ⟨h.required, .cons hm h.optional, h.prohibited⟩
  | mustNot => exact ⟨h.required, h.optional, .cons hm h.prohibited⟩

theorem rel_anyOf {ms : List (Matcher R)} {ts : List (Trail (Merit R))}
    (h : List.Forall₂ Matcher.Walks ms ts) :
    Option.Rel Matcher.Walks (anyOf ms) (TrailParts.anyOf ts) := by
  match ms, ts, h with
  | [], [], .nil => exact .none
  | [m], [t], .cons hm .nil => exact .some hm
  | m₁ :: m₂ :: ms, t₁ :: t₂ :: ts, h => exact .some (Matcher.walks_anyOf h)

theorem rel_allOf {ms : List (Matcher R)} {ts : List (Trail (Merit R))}
    (h : List.Forall₂ Matcher.Walks ms ts) :
    ∃ o, allOf ms = .ok o ∧ Option.Rel Matcher.Walks o (TrailParts.allOf ts) := by
  match ms, ts, h with
  | [], [], .nil => exact ⟨none, rfl, .none⟩
  | [m], [t], .cons hm .nil => exact ⟨some m, rfl, .some hm⟩
  | m₁ :: m₂ :: ms, t₁ :: t₂ :: ts, h =>
    obtain ⟨m, hm, hwalks⟩ := Matcher.walks_allOf h
    exact ⟨some m, by simp only [allOf, hm]; rfl, .some hwalks⟩

theorem rel_positive {p : MatcherParts R} {q : TrailParts R} (h : Walks p q) (scored : Bool) :
    ∃ o, p.positive scored = .ok o ∧ Option.Rel Matcher.Walks o (q.positive scored) := by
  obtain ⟨required, hrequired, hrel⟩ := rel_allOf h.required
  have hoptional := rel_anyOf h.optional
  simp only [positive, hrequired, bind, Except.bind, TrailParts.positive]
  generalize TrailParts.allOf q.required = rt at hrel
  generalize TrailParts.anyOf q.optional = ot at hoptional
  generalize anyOf p.optional = om at hoptional
  cases hrel with
  | none => exact ⟨om, rfl, hoptional⟩
  | @some m t hm =>
    cases hoptional with
    | none => exact ⟨some m, rfl, .some hm⟩
    | @some o u ho =>
      cases scored with
      | false => exact ⟨some m, rfl, .some hm⟩
      | true =>
        obtain ⟨m', hm', hwalks⟩ := Matcher.walks_preferring hm ho
        exact ⟨some m', by simp only [if_true, hm']; rfl, .some hwalks⟩

/-- Matchers that follow trails make a combination that follows the combination of these. -/
theorem rel_combine {p : MatcherParts R} {q : TrailParts R} (h : Walks p q) (scored : Bool) :
    ∃ o, p.combine scored = .ok o ∧ Option.Rel Matcher.Walks o (q.combine scored) := by
  obtain ⟨positive, hpositive, hrel⟩ := rel_positive h scored
  have hempty : p.prohibited.isEmpty = q.prohibited.isEmpty := by
    have hlength := h.prohibited.length_eq
    rw [Bool.eq_iff_iff, List.isEmpty_iff_length_eq_zero, List.isEmpty_iff_length_eq_zero, hlength]
  simp only [combine, hpositive, bind, Except.bind, TrailParts.combine, hempty]
  generalize q.positive scored = pt at hrel
  cases hrel with
  | none => exact ⟨none, rfl, .none⟩
  | @some m t hm =>
    cases hnone : q.prohibited.isEmpty with
    | true => exact ⟨some m, rfl, .some hm⟩
    | false =>
      obtain ⟨m', hm', hwalks⟩ := Matcher.walks_excluding hm h.prohibited
      refine ⟨some m', ?_, .some hwalks⟩
      simp only [Bool.false_eq_true, if_false, hm']
      rfl

end MatcherParts

namespace Weighing

open SpanWeight (Bound)

/-- The scorer of a term depends on the snapshot alone. -/
theorem termScorer_eq {s : Snapshot} {t : Term} {l : TermLookup} {scored : Bool}
    (h : LookupCache.Serves s t scored l) (boost : R) :
    termScorer s t l scored boost = termScorer s t (.ofSnapshot s t true) scored boost := by
  cases scored with
  | false => rfl
  | true =>
    rw [termScorer, termScorer, h.1.statistics? (h.2 rfl)]
    rfl

theorem mem_of_mem_sorted {t : Term} {ts : List Term} (h : t ∈ Term.sorted ts) : t ∈ ts := by
  rw [Term.sorted] at h
  have hsub : ∀ us : List Term,
      t ∈ us.foldr (fun t rest => if rest.head? = some t then rest else t :: rest) [] → t ∈ us := by
    intro us
    induction us with
    | nil => exact id
    | cons u us ih =>
      rw [List.foldr_cons]
      split
      · exact fun h => List.mem_cons_of_mem _ (ih h)
      · intro h
        rcases List.mem_cons.1 h with rfl | h
        · exact List.mem_cons_self ..
        · exact List.mem_cons_of_mem _ (ih h)
  exact (List.mergeSort_perm ..).mem_iff.1 (hsub _ h)

theorem exists_lookup_of_mem {t : Term} {ls : List (Term × TermLookup)}
    (h : t ∈ ls.map (·.1)) : ∃ l, ls.lookup t = some l ∧ (t, l) ∈ ls := by
  induction ls with
  | nil => cases h
  | cons p ls ih =>
    obtain ⟨u, l⟩ := p
    by_cases hu : t = u
    · subst hu
      exact ⟨l, List.lookup_cons_self, List.mem_cons_self ..⟩
    · have ht : t ∈ ls.map (·.1) := by simpa [hu] using h
      obtain ⟨l', hl', hmem⟩ := ih ht
      refine ⟨l', ?_, List.mem_cons_of_mem _ hmem⟩
      rwa [List.lookup_cons, beq_eq_false_iff_ne.2 hu]

/-- The totals of a bound span query are those of its terms. -/
theorem statistics_eq {s : Snapshot} {q : Query} {w : SpanWeight} (h : Bound s true q w) :
    w.statistics = (Term.sorted q.spanTerms).filterMap (TermLookup.totals? s) := by
  rw [SpanWeight.statistics, SpanWeight.terms, h.terms]
  refine List.filterMap_congr fun t ht => ?_
  obtain ⟨l, hl, hmem⟩ := exists_lookup_of_mem (h.terms ▸ mem_of_mem_sorted ht)
  obtain ⟨hfaithful, hcounted⟩ := h.serves _ hmem
  rw [hl, Option.bind_some, hfaithful.statistics? (hcounted rfl)]

/-- The scorer of a bound span query depends on the snapshot and the query alone. -/
theorem spanScorer_eq {s : Snapshot} {q : Query} {w : SpanWeight} {scored : Bool}
    (h : Bound s scored q w) (boost : R) :
    spanScorer s w scored boost = q.spanScorer s scored boost := by
  cases scored with
  | false => rfl
  | true =>
    rw [spanScorer, Query.spanScorer, statistics_eq h, h.field]
    rfl

/-- Where opening a bound query in a segment does not fail, it gives what the query comes to. -/
def Opens (s : Snapshot) (g : Segment) (scored : Bool) (boost : R) (q : Query)
    (w : Weight R) : Prop :=
  ∀ opened, w.matcher g = .ok opened →
    Option.Rel Matcher.Walks opened (q.trail? s g scored boost)

/-- Where opening bound clauses in a segment does not fail, it gives what they come to. -/
def OpensParts (s : Snapshot) (g : Segment) (scored : Bool) (boost : R)
    (clauses : List (Occur × Query)) (ws : List (Occur × Weight R)) : Prop :=
  ∀ opened, Weight.parts g ws = .ok opened →
    Option.Rel MatcherParts.Walks opened (Query.trailParts? s g scored boost clauses)

variable {s : Snapshot} {scored : Bool} {boost : R}

theorem opens_term (hs : s.Numbered) {g : Segment} (hg : g ∈ s.segments) (hsound : g.Sound)
    {t : Term} {l : TermLookup} (hserves : LookupCache.Serves s t scored l) (q : Query)
    (least : Option Threshold) {result : Query}
    (hresult : result.trail? s g scored boost =
      Query.termTrail? s g scored boost t least.toList) :
    Opens s g scored boost result
      (.term q t l (termScorer s t l scored boost) least) := by
  intro opened h
  rw [Weight.matcher, Weight.openTerm, hserves.1.get hs hg] at h
  rw [hresult, Query.termTrail?, termScorer_eq hserves] at *
  rcases g.entry?_cases t with ⟨hnone, hentry⟩ | ⟨ps, entry, f, hps, hentry, hf, hpostings⟩
  · rw [hentry] at h
    cases h
    rw [hnone]
    exact .none
  · have hsupports : f.options.supports .frequencies = true := rfl
    rw [hentry] at h
    simp only [bind, Except.bind, hpostings, hsupports, if_true, pure, Except.pure] at h
    cases h
    rw [hps]
    have hwalks : PostingCursor.Walks .frequencies
        ((PostingCursor.ofList ps .frequencies).gatedBy least)
        (.before (gatedVisits least.toList ps)) := by
      cases least with
      | none => exact PostingCursor.walks_ofList (hsound.trail t ps hps) _ []
      | some least => exact PostingCursor.walks_ofList (hsound.trail t ps hps) _ [least]
    exact .some (Matcher.walks_ofPostings hwalks _)

theorem opens_spans {g : Segment} (hg : g ∈ s.segments) {q : Query} {w : SpanWeight}
    (h : Bound s scored q w) (q' : Query)
    (hresult : q.trail? s g scored boost = (q.spanSource? g .positions).map fun source =>
      source.2.showing (Merit.ofSpans (q.spanScorer s scored boost) source.1)) :
    Opens s g scored boost q (.spans q' w (spanScorer s w scored boost)) := by
  intro opened hopened
  rw [Weight.matcher, Weight.openSpans] at hopened
  obtain ⟨inner, hinner, hopened⟩ := except_bind_eq_ok.1 hopened
  have hrel := h.opens g hg _ inner hinner
  rw [hresult]
  generalize q.spanSource? g .positions = source at hrel
  cases hrel with
  | none =>
    cases hopened
    exact .none
  | @some c source hc =>
    obtain ⟨m, hm, hwalks⟩ :=
      Matcher.walks_ofSpans hc (q.spanScorer s scored boost)
    rw [spanScorer_eq h] at hopened
    simp only [hm] at hopened
    cases hopened
    exact .some hwalks

theorem opens_boolean {g : Segment} {clauses : List (Occur × Query)}
    {ws : List (Occur × Weight R)} (h : OpensParts s g scored boost clauses ws) (q : Query) :
    Opens s g scored boost (.boolean clauses) (.boolean q ws scored) := by
  intro opened hopened
  rw [Weight.matcher] at hopened
  obtain ⟨parts, hparts, hopened⟩ := except_bind_eq_ok.1 hopened
  have hrel := h parts hparts
  rw [Query.trail?]
  generalize Query.trailParts? s g scored boost clauses = tp at hrel
  cases hrel with
  | none =>
    cases hopened
    exact .none
  | some hwalks =>
    obtain ⟨o, ho, hrel⟩ := MatcherParts.rel_combine hwalks scored
    simp only [ho, Except.ok.injEq] at hopened
    rwa [← hopened]

theorem opensParts_cons {g : Segment} {o : Occur} {q : Query} {w : Weight R}
    (hw : Opens s g (if o = .mustNot then false else scored) boost q w)
    {rest : List (Occur × Query)} {ws : List (Occur × Weight R)}
    (hrest : OpensParts s g scored boost rest ws) :
    OpensParts s g scored boost ((o, q) :: rest) ((o, w) :: ws) := by
  intro opened hopened
  rw [Weight.parts] at hopened
  obtain ⟨first, hfirst, hopened⟩ := except_bind_eq_ok.1 hopened
  have hrel := hw first hfirst
  rw [Query.trailParts?]
  generalize q.trail? s g (if o = .mustNot then false else scored) boost = t at hrel
  cases hrel with
  | none =>
    by_cases ho : o = .must
    · rw [if_pos ho] at hopened ⊢
      cases hopened
      exact .none
    · rw [if_neg ho] at hopened ⊢
      exact hrest _ hopened
  | some hm =>
    obtain ⟨parts, hparts, hopened⟩ := except_bind_eq_ok.1 hopened
    cases hopened
    have hrels := hrest parts hparts
    generalize Query.trailParts? s g scored boost rest = tp at hrels
    cases hrels with
    | none => exact .none
    | some hwalks => exact .some (hwalks.add o hm)

/-- Bound clauses open what they come to if each of them does. -/
theorem opensParts_of_forall₂ {g : Segment} {clauses : List (Occur × Query)}
    {ws : List (Occur × Weight R)}
    (h : List.Forall₂ (fun c w => c.1 = w.1 ∧
      Opens s g (if c.1 = .mustNot then false else scored) boost c.2 w.2) clauses ws) :
    OpensParts s g scored boost clauses ws := by
  induction h with
  | nil =>
    intro opened hopened
    cases hopened
    exact .some MatcherParts.walks_empty
  | @cons c w _ _ hfirst _ ih =>
    obtain ⟨o, q⟩ := c
    obtain ⟨o', w⟩ := w
    obtain ⟨rfl, hw⟩ := hfirst
    exact opensParts_cons hw ih

theorem closed_opens (hs : s.Numbered) (hsound : ∀ g ∈ s.segments, g.Sound) :
    Closed s fun scored boost q (w : Weight R) => ∀ g ∈ s.segments, Opens s g scored boost q w where
  term hsought hserves g hg :=
    opens_term hs hg (hsound g hg) hserves _ _ (Query.trail?_of_sought? s g hsought)
  spans hspan hw g hg :=
    opens_spans hg (hw.bound hs hsound) _ (Query.trail?_of_isSpan s g hspan)
  boost hw := hw
  boolean hall g hg := opens_boolean
    (opensParts_of_forall₂ (hall.imp fun _ _ h => ⟨h.1, h.2 g hg⟩)) _
  nothing g hg opened hopened := by
    cases hopened
    exact .none

/-- Binding a query leaves the shared lookups sound and gives what the query comes to. -/
theorem opens_of_yields_weight (hs : s.Numbered) (hsound : ∀ g ∈ s.segments, g.Sound) (q : Query)
    {scored : Bool} {boost : R} {c c' : LookupCache} {w : Weight R} (hq : q.Honest s)
    (hc : c.Sound s) (h : Yields (weight s scored boost q) c w c') :
    (∀ g ∈ s.segments, Opens s g scored boost q w) ∧ c'.Sound s :=
  weight_induction (closed_opens hs hsound) hs hsound q hq hc h

/-- Binding clauses does so for each of them; those that must not match need no scores. -/
theorem opensParts_of_yields_clauseWeights (hs : s.Numbered)
    (hsound : ∀ g ∈ s.segments, g.Sound) (clauses : List (Occur × Query)) {scored : Bool}
    {boost : R} {c c' : LookupCache} {ws : List (Occur × Weight R)}
    (hq : ∀ l ∈ Query.carriedByClauses clauses, l.2.snapshot = s.id → l.2.Faithful s l.1)
    (hc : c.Sound s) (h : Yields (clauseWeights s scored boost clauses) c ws c') :
    (∀ g ∈ s.segments, OpensParts s g scored boost clauses ws) ∧ c'.Sound s := by
  obtain ⟨hall, hc'⟩ :=
    clauseWeights_induction (closed_opens hs hsound) hs hsound clauses hq hc h
  exact ⟨fun g hg => opensParts_of_forall₂ (hall.imp fun _ _ h => ⟨h.1, h.2 g hg⟩), hc'⟩

end Weighing

end TextSearch
