import TextSearch.Proofs.Search.SpanOpening

/-!
# Weights of queries

Binding a query makes a weight of the same shape, with a faithful lookup for every term
and with the parts of spans bound below. `Weighing.weight_induction` is the induction
along this shape, for what holds of every weight that binding a query gives.
-/

namespace TextSearch

namespace Query

/-- The term that a query looks for by itself, and how often it has to occur. -/
def sought? : Query → Option (Term × Option Threshold)
  | term t => some (t, none)
  | markedTerm t _ => some (t, none)
  | frequentTerm t least _ => some (t, some least)
  | _ => none

end Query

namespace Weighing

variable {R : Type} [ScoreNumber R] {s : Snapshot}

/-- A span query and the weight that binding it has given. -/
def Spans (s : Snapshot) (counted : Bool) (q : Query) (w : SpanWeight) : Prop :=
  q.Honest s ∧ ∃ c c', c.Sound s ∧ Yields (spanWeight s counted q) c w c'

theorem Spans.bound (hs : s.Numbered) (hsound : ∀ g ∈ s.segments, g.Sound) {counted : Bool}
    {q : Query} {w : SpanWeight} (h : Spans s counted q w) : SpanWeight.Bound s counted q w := by
  obtain ⟨hq, c, c', hc, hw⟩ := h
  exact (bound_of_yields_spanWeight hs hsound q hq hc hw).1

theorem yields_termWeight {t : Term} {carried : Option TermLookup} {c c' : LookupCache}
    {w : Weight R} {q : Query} {least : Option Threshold} {scored : Bool} {boost : R}
    (hcarried : TermLookup.Honest s t carried) (hc : c.Sound s)
    (h : Yields (termWeight s q t carried least scored boost) c w c') :
    ∃ l, LookupCache.Serves s t scored l ∧
      w = .term q t l (termScorer s t l scored boost) least ∧ c'.Sound s := by
  rw [termWeight] at h
  obtain ⟨l, c₁, hl, h⟩ := yields_bind.1 h
  obtain ⟨rfl, rfl⟩ := yields_pure.1 h
  obtain ⟨hserves, hc'⟩ := yields_resolve hc hcarried hl
  exact ⟨l, hserves, rfl, hc'⟩

theorem yields_spansWeight (hs : s.Numbered) (hsound : ∀ g ∈ s.segments, g.Sound) {q : Query}
    {c c' : LookupCache} {w : Weight R} {scored : Bool} {boost : R} (hq : q.Honest s)
    (hc : c.Sound s) (h : Yields (spansWeight s q scored boost) c w c') :
    ∃ w', Spans s scored q w' ∧ w = .spans q w' (spanScorer s w' scored boost) ∧ c'.Sound s := by
  rw [spansWeight] at h
  obtain ⟨w', c₁, hw', h⟩ := yields_bind.1 h
  obtain ⟨rfl, rfl⟩ := yields_pure.1 h
  exact ⟨w', ⟨hq, c, _, hc, hw'⟩, rfl, (bound_of_yields_spanWeight hs hsound q hq hc hw').2⟩

/-- A property that the weights of terms and of spans have, and others if their parts have it. -/
structure Closed (s : Snapshot) (P : Bool → R → Query → Weight R → Prop) : Prop where
  /-- The weight of a term, with a lookup that serves it. -/
  term : ∀ {scored : Bool} {boost : R} {q : Query} {t : Term} {l : TermLookup}
    {least : Option Threshold}, q.sought? = some (t, least) → LookupCache.Serves s t scored l →
    P scored boost q (.term q t l (termScorer s t l scored boost) least)
  /-- The weight of spans. -/
  spans : ∀ {scored : Bool} {boost : R} {q : Query} {w : SpanWeight}, q.isSpan = true →
    Spans s scored q w → P scored boost q (.spans q w (spanScorer s w scored boost))
  /-- A boost is a factor in the weight below it. -/
  boost : ∀ {scored : Bool} {boost : R} {q : Query} {factor : Single} {w : Weight R},
    P scored (boost * ScoreNumber.ofBoost factor) q w → P scored boost (.boost q factor) w
  /-- A combination of the weights of clauses. Those that must not match need no scores. -/
  boolean : ∀ {scored : Bool} {boost : R} {clauses : List (Occur × Query)}
    {ws : List (Occur × Weight R)}, List.Forall₂ (fun c w => c.1 = w.1 ∧
      P (if c.1 = .mustNot then false else scored) boost c.2 w.2) clauses ws →
    P scored boost (.boolean clauses) (.boolean (.boolean clauses) ws scored)
  /-- No documents. -/
  nothing : ∀ {scored : Bool} {boost : R}, P scored boost .nothing (.nothing .nothing)

variable {P : Bool → R → Query → Weight R → Prop}

mutual

/-- A closed property holds of every weight that binding a query gives. Binding leaves the shared
lookups sound. -/
theorem weight_induction (hP : Closed s P) (hs : s.Numbered)
    (hsound : ∀ g ∈ s.segments, g.Sound) :
    ∀ (q : Query) {scored : Bool} {boost : R} {c c' : LookupCache} {w : Weight R}, q.Honest s →
      c.Sound s → Yields (weight s scored boost q) c w c' →
      P scored boost q w ∧ c'.Sound s
  | .term t, _, _, _, _, _, _, hc, h => by
    obtain ⟨l, hserves, rfl, hc'⟩ := yields_termWeight (by rintro l ⟨⟩) hc h
    exact ⟨hP.term rfl hserves, hc'⟩
  | .markedTerm t mark, _, _, _, _, _, _, hc, h => by
    obtain ⟨l, hserves, rfl, hc'⟩ := yields_termWeight (by rintro l ⟨⟩) hc h
    exact ⟨hP.term rfl hserves, hc'⟩
  | .frequentTerm t least carried, _, _, _, _, _, hq, hc, h => by
    have hcarried : TermLookup.Honest s t carried := by
      rintro l rfl hid
      exact hq (t, l) (List.mem_singleton_self _) hid
    obtain ⟨l, hserves, rfl, hc'⟩ := yields_termWeight hcarried hc h
    exact ⟨hP.term rfl hserves, hc'⟩
  | .boost q factor, _, _, _, _, _, hq, hc, h => by
    rw [weight] at h
    obtain ⟨hw, hc'⟩ := weight_induction hP hs hsound q hq hc h
    exact ⟨hP.boost hw, hc'⟩
  | .boolean clauses, _, _, _, _, _, hq, hc, h => by
    rw [weight] at h
    obtain ⟨ws, c₁, hws, h⟩ := yields_bind.1 h
    obtain ⟨rfl, rfl⟩ := yields_pure.1 h
    obtain ⟨hall, hc'⟩ := clauseWeights_induction hP hs hsound clauses hq hc hws
    exact ⟨hP.boolean hall, hc'⟩
  | .nothing, _, _, _, _, _, _, hc, h => by
    rw [weight] at h
    obtain ⟨rfl, rfl⟩ := yields_pure.1 h
    exact ⟨hP.nothing, hc⟩
  | .spanTerm _, _, _, _, _, _, hq, hc, h => by
    obtain ⟨w, hw, rfl, hc'⟩ := yields_spansWeight hs hsound hq hc h
    exact ⟨hP.spans rfl hw, hc'⟩
  | .frequentSpanTerm _ _ _, _, _, _, _, _, hq, hc, h => by
    obtain ⟨w, hw, rfl, hc'⟩ := yields_spansWeight hs hsound hq hc h
    exact ⟨hP.spans rfl hw, hc'⟩
  | .spanOr _ _, _, _, _, _, _, hq, hc, h => by
    obtain ⟨w, hw, rfl, hc'⟩ := yields_spansWeight hs hsound hq hc h
    exact ⟨hP.spans rfl hw, hc'⟩
  | .spanNear _ _ _ _, _, _, _, _, _, hq, hc, h => by
    obtain ⟨w, hw, rfl, hc'⟩ := yields_spansWeight hs hsound hq hc h
    exact ⟨hP.spans rfl hw, hc'⟩
  | .withoutPayload _, _, _, _, _, _, hq, hc, h => by
    obtain ⟨w, hw, rfl, hc'⟩ := yields_spansWeight hs hsound hq hc h
    exact ⟨hP.spans rfl hw, hc'⟩
  | .frequentSpan _ _, _, _, _, _, _, hq, hc, h => by
    obtain ⟨w, hw, rfl, hc'⟩ := yields_spansWeight hs hsound hq hc h
    exact ⟨hP.spans rfl hw, hc'⟩
  | .multiTerm _, _, _, _, _, _, _, _, h => (not_yields_throw h).elim
  | .spanMultiTerm _, _, _, _, _, _, _, _, h => (not_yields_throw h).elim
  | .deferred _ _, _, _, _, _, _, _, _, h => (not_yields_throw h).elim

/-- A closed property holds of every weight that binding clauses gives. -/
theorem clauseWeights_induction (hP : Closed s P) (hs : s.Numbered)
    (hsound : ∀ g ∈ s.segments, g.Sound) :
    ∀ (clauses : List (Occur × Query)) {scored : Bool} {boost : R} {c c' : LookupCache}
      {ws : List (Occur × Weight R)},
      (∀ l ∈ Query.carriedByClauses clauses, l.2.snapshot = s.id → l.2.Faithful s l.1) →
      c.Sound s → Yields (clauseWeights s scored boost clauses) c ws c' →
      List.Forall₂ (fun c w => c.1 = w.1 ∧
        P (if c.1 = .mustNot then false else scored) boost c.2 w.2) clauses ws ∧ c'.Sound s
  | [], _, _, _, _, _, _, hc, h => by
    rw [clauseWeights] at h
    obtain ⟨rfl, rfl⟩ := yields_pure.1 h
    exact ⟨.nil, hc⟩
  | (o, q) :: rest, _, _, _, _, _, hq, hc, h => by
    rw [clauseWeights] at h
    obtain ⟨w, c₁, hw, h⟩ := yields_bind.1 h
    obtain ⟨ws, c₂, hws, h⟩ := yields_bind.1 h
    obtain ⟨rfl, rfl⟩ := yields_pure.1 h
    rw [Query.carriedByClauses] at hq
    have hboth := List.forall_mem_append.1 hq
    obtain ⟨hfirst, hc₁⟩ := weight_induction hP hs hsound q hboth.1 hc hw
    obtain ⟨hrest, hc₂⟩ := clauseWeights_induction hP hs hsound rest hboth.2 hc₁ hws
    exact ⟨.cons ⟨rfl, hfirst⟩ hrest, hc₂⟩

end

end Weighing

end TextSearch
