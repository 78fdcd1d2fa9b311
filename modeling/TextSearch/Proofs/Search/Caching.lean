import TextSearch.Proofs.Search.Counting
import TextSearch.Proofs.Search.PlainQueries

/-!
# Caching

What a searcher has looked up before, and what queries bring along, has no part in what
it answers. `Weighing.Agree` compares two computations that start from different shared
lookups. A query and its plain form are bound to weights that are alike: they differ in
the lookups that they hold and in nothing that is read from these. Main statement:
`Searcher.caches_change_nothing`.
-/

namespace TextSearch

variable {s : Snapshot} {counted : Bool}

/-! ### Comparing computations -/

/-- Two outcomes agree: both are results that are related, or both are the same fault. -/
def Agreeing {α β : Type} (rel : α → β → Prop) : Except Fault α → Except Fault β → Prop
  | .ok a, .ok b => rel a b
  | .error e, .error e' => e = e'
  | _, _ => False

theorem agreeing_eq_iff {α : Type} {x y : Except Fault α} : Agreeing Eq x y ↔ x = y := by
  cases x <;> cases y <;> simp [Agreeing]

namespace Weighing

variable {α β γ δ : Type}

/-- Whatever sound lookups are shared before, two computations come to outcomes that agree, and
the lookups that are shared after them are sound. -/
def Agree (s : Snapshot) (rel : α → β → Prop) (m : Weighing α) (m' : Weighing β) : Prop :=
  ∀ c c' : LookupCache, c.Sound s → c'.Sound s →
    Agreeing rel (m.run.run c).1 (m'.run.run c').1 ∧
      (m.run.run c).2.Sound s ∧ (m'.run.run c').2.Sound s

/-- Computations agree if their first steps do, and what follows does after related results. -/
theorem Agree.bind {rel : α → β → Prop} {rel' : γ → δ → Prop} {m : Weighing α} {m' : Weighing β}
    {f : α → Weighing γ} {f' : β → Weighing δ} (hm : Agree s rel m m')
    (hf : ∀ a b, rel a b → Agree s rel' (f a) (f' b)) : Agree s rel' (m >>= f) (m' >>= f') := by
  intro c c' hc hc'
  have hfirst := hm c c' hc hc'
  rw [run_bind, run_bind]
  generalize m.run.run c = r at hfirst
  generalize m'.run.run c' = r' at hfirst
  obtain ⟨outcome, c₁⟩ := r
  obtain ⟨outcome', c₁'⟩ := r'
  obtain ⟨houtcomes, hsound, hsound'⟩ := hfirst
  cases outcome with
  | error e =>
    cases outcome' with
    | error e' => exact ⟨houtcomes, hsound, hsound'⟩
    | ok b => exact False.elim houtcomes
  | ok a =>
    cases outcome' with
    | error e' => exact False.elim houtcomes
    | ok b => exact hf a b houtcomes c₁ c₁' hsound hsound'

theorem agree_pure {rel : α → β → Prop} {a : α} {b : β} (h : rel a b) :
    Agree s rel (pure a) (pure b) := fun _ _ hc hc' => ⟨h, hc, hc'⟩

theorem agree_throw {rel : α → β → Prop} {e e' : Fault} (h : e = e') :
    Agree s rel (throw e) (throw e') := fun _ _ hc hc' => ⟨h, hc, hc'⟩

/-- What looks nothing up comes to the same outcome everywhere. -/
theorem agree_lift {rel : α → β → Prop} {x : Except Fault α} {y : Except Fault β}
    (h : Agreeing rel x y) : Agree s rel (x : Weighing α) (y : Weighing β) := by
  intro c c' hc hc'
  rw [run_lift, run_lift]
  exact ⟨h, hc, hc'⟩

theorem agree_mapM_lift {f f' : α → Except Fault β} {xs : List α} (h : ∀ x ∈ xs, f x = f' x) :
    Agree s Eq (xs.mapM fun x => (f x : Weighing β)) (xs.mapM fun x => (f' x : Weighing β)) := by
  have hsame : xs.mapM f = xs.mapM f' := by
    induction xs with
    | nil => rfl
    | cons x xs ih =>
      obtain ⟨hx, hxs⟩ := List.forall_mem_cons.1 h
      rw [List.mapM_cons, List.mapM_cons, hx, ih hxs]
  intro c c' hc hc'
  rw [run_mapM_lift, run_mapM_lift, hsame]
  exact ⟨agreeing_eq_iff.2 rfl, hc, hc'⟩

/-- A term is resolved to lookups that serve, whatever is shared and carried along. -/
theorem agree_resolve {t : Term} {carried carried' : Option TermLookup}
    (h : TermLookup.Honest s t carried) (h' : TermLookup.Honest s t carried') :
    Agree s (fun l l' => LookupCache.Serves s t counted l ∧ LookupCache.Serves s t counted l')
      (resolve s t carried counted) (resolve s t carried' counted) := by
  intro c c' hc hc'
  obtain ⟨hserves, hsound⟩ := LookupCache.sound_resolve hc h counted
  obtain ⟨hserves', hsound'⟩ := LookupCache.sound_resolve hc' h' counted
  exact ⟨⟨hserves, hserves'⟩, hsound, hsound'⟩

end Weighing

/-! ### Lookups that serve -/

namespace LookupCache

variable {t : Term} {l l' : TermLookup}

/-- Lookups of a term find the same in every segment, with and without totals. -/
theorem Serves.get_eq (h : Serves s t counted l) (h' : Serves s t counted l') (g : Segment) :
    l.get g = l'.get g := by
  have hl : l = .ofSnapshot s t l.isCounted := h.1
  have hl' : l' = .ofSnapshot s t l'.isCounted := h'.1
  rw [hl, hl']
  rfl

theorem Serves.statistics?_eq (h : Serves s t true l) (h' : Serves s t true l') :
    l.statistics? = l'.statistics? := by
  rw [h.1.statistics? (h.2 rfl), h'.1.statistics? (h'.2 rfl)]

end LookupCache

open LookupCache

/-! ### Span weights -/

namespace SpanWeight

mutual

/-- Two span weights differ in the queries that they come from and in lookups that serve. -/
inductive Alike (s : Snapshot) (counted : Bool) : SpanWeight → SpanWeight → Prop
  /-- The places of a term. -/
  | term {t : Term} {l l' : TermLookup} (q q' : Query) (least : Option Threshold)
    (h : Serves s t counted l) (h' : Serves s t counted l') :
    Alike s counted (.term q t l least) (.term q' t l' least)
  /-- The places of any operand. -/
  | union {ws ws' : List SpanWeight} (q q' : Query) (field : String)
    (h : AlikeAll s counted ws ws') : Alike s counted (.union q field ws) (.union q' field ws')
  /-- The places where the operands come near each other. -/
  | near {ws ws' : List SpanWeight} (q q' : Query) (field : String) (slop : UInt32)
    (inOrder : Bool) (h : AlikeAll s counted ws ws') :
    Alike s counted (.near q field ws slop inOrder) (.near q' field ws' slop inOrder)
  /-- The places that a filter keeps. -/
  | filtered {w w' : SpanWeight} (q q' : Query) (filter : SpanFilter) (h : Alike s counted w w') :
    Alike s counted (.filtered q w filter) (.filtered q' w' filter)

/-- Span weights are alike one by one. -/
inductive AlikeAll (s : Snapshot) (counted : Bool) : List SpanWeight → List SpanWeight → Prop
  /-- No weights. -/
  | nil : AlikeAll s counted [] []
  /-- A weight in front of others. -/
  | cons {w w' : SpanWeight} {ws ws' : List SpanWeight} (h : Alike s counted w w')
    (hrest : AlikeAll s counted ws ws') : AlikeAll s counted (w :: ws) (w' :: ws')

end

theorem openTerm_eq {t : Term} {l l' : TermLookup} (h : Serves s t counted l)
    (h' : Serves s t counted l') (least : Option Threshold) (g : Segment) (detail : Detail) :
    openTerm t l least g detail = openTerm t l' least g detail := by
  rw [openTerm, openTerm, h.get_eq h']

mutual

/-- Weights that are alike open the same cursor. -/
theorem Alike.spans_eq (g : Segment) : ∀ (w w' : SpanWeight) (detail : Detail),
    Alike s counted w w' → w.spans g detail = w'.spans g detail
  | .term _ _ _ _, _, detail, .term _ _ _ h h' => by
    rw [spans, spans, openTerm_eq h h']
  | .union _ _ ws, _, detail, .union _ _ _ h => by
    rw [spans, spans, AlikeAll.spansAny_eq g ws _ detail h]
  | .near _ _ ws _ _, _, detail, .near _ _ _ _ _ h => by
    rw [spans, spans, AlikeAll.spansAll_eq g ws _ detail h]
  | .filtered _ w _, _, detail, .filtered _ _ _ h => by
    rw [spans, spans, Alike.spans_eq g w _ _ h]

theorem AlikeAll.spansAny_eq (g : Segment) : ∀ (ws ws' : List SpanWeight) (detail : Detail),
    AlikeAll s counted ws ws' → spansAny g detail ws = spansAny g detail ws'
  | [], _, _, .nil => rfl
  | w :: ws, _, detail, .cons h hrest => by
    rw [spansAny, spansAny, Alike.spans_eq g w _ detail h, AlikeAll.spansAny_eq g ws _ detail hrest]

theorem AlikeAll.spansAll_eq (g : Segment) : ∀ (ws ws' : List SpanWeight) (detail : Detail),
    AlikeAll s counted ws ws' → spansAll g detail ws = spansAll g detail ws'
  | [], _, _, .nil => rfl
  | w :: ws, _, detail, .cons h hrest => by
    rw [spansAll, spansAll, Alike.spans_eq g w _ detail h, AlikeAll.spansAll_eq g ws _ detail hrest]

end

theorem Alike.field_eq : ∀ (w w' : SpanWeight), Alike s counted w w' → w.field = w'.field
  | .term _ _ _ _, _, .term _ _ _ _ _ => rfl
  | .union _ _ _, _, .union _ _ _ _ => rfl
  | .near _ _ _ _ _, _, .near _ _ _ _ _ _ => rfl
  | .filtered _ w _, .filtered _ w' _, .filtered _ _ _ h => Alike.field_eq w w' h

mutual

/-- Weights that are alike look the same terms up, with lookups that serve. -/
theorem Alike.lookups : ∀ (w w' : SpanWeight), Alike s counted w w' →
    List.Forall₂ (fun p p' => p.1 = p'.1 ∧ Serves s p.1 counted p.2 ∧ Serves s p.1 counted p'.2)
      w.lookups w'.lookups
  | .term _ _ _ _, _, .term _ _ _ h h' => .cons ⟨rfl, h, h'⟩ .nil
  | .union _ _ ws, _, .union _ _ _ h => AlikeAll.lookups ws _ h
  | .near _ _ ws _ _, _, .near _ _ _ _ _ h => AlikeAll.lookups ws _ h
  | .filtered _ w _, .filtered _ w' _, .filtered _ _ _ h => Alike.lookups w w' h

theorem AlikeAll.lookups : ∀ (ws ws' : List SpanWeight), AlikeAll s counted ws ws' →
    List.Forall₂ (fun p p' => p.1 = p'.1 ∧ Serves s p.1 counted p.2 ∧ Serves s p.1 counted p'.2)
      (lookupsAll ws) (lookupsAll ws')
  | [], _, .nil => .nil
  | w :: ws, _, .cons h hrest => List.rel_append (Alike.lookups w _ h) (AlikeAll.lookups ws _ hrest)

end

/-- Where totals were asked for, weights that are alike have the same ones. -/
theorem Alike.statistics_eq {w w' : SpanWeight} (h : Alike s true w w') :
    w.statistics = w'.statistics := by
  have hlookups := Alike.lookups w w' h
  have hterms : w.lookups.map (·.1) = w'.lookups.map (·.1) := by
    generalize w.lookups = ls at hlookups
    generalize w'.lookups = ls' at hlookups
    induction hlookups with
    | nil => rfl
    | cons hl _ ih => rw [List.map_cons, List.map_cons, hl.1, ih]
  have hfind : ∀ t, (w.lookups.lookup t).bind (·.statistics?) =
      (w'.lookups.lookup t).bind (·.statistics?) := by
    intro t
    generalize w.lookups = ls at hlookups
    generalize w'.lookups = ls' at hlookups
    induction hlookups with
    | nil => rfl
    | @cons p p' ls ls' hl _ ih =>
      obtain ⟨u, l⟩ := p
      obtain ⟨u', l'⟩ := p'
      obtain ⟨rfl, hserves, hserves'⟩ := hl
      rw [List.lookup_cons, List.lookup_cons]
      cases t == u with
      | true => exact hserves.statistics?_eq hserves'
      | false => exact ih
  rw [statistics, statistics, terms, terms, hterms]
  simp only [hfind]

end SpanWeight

/-! ### Weights -/

variable {R : Type}

namespace Weight

mutual

/-- Two weights come from queries that are written alike, and differ in lookups that serve. -/
inductive Alike (s : Snapshot) : Weight R → Weight R → Prop
  /-- The documents of a term. -/
  | term {q q' : Query} {t : Term} {l l' : TermLookup} (scorer : Option (BM25 R))
    (least : Option Threshold) (hq : q.display = q'.display) (h : Serves s t false l)
    (h' : Serves s t false l') : Alike s (.term q t l scorer least) (.term q' t l' scorer least)
  /-- The documents that have spans. -/
  | spans {q q' : Query} {w w' : SpanWeight} {counted : Bool} (scorer : Option (BM25 R))
    (hq : q.display = q'.display) (h : SpanWeight.Alike s counted w w') :
    Alike s (.spans q w scorer) (.spans q' w' scorer)
  /-- A boolean combination. -/
  | boolean {q q' : Query} {clauses clauses' : List (Occur × Weight R)} (scored : Bool)
    (hq : q.display = q'.display) (h : AlikeClauses s clauses clauses') :
    Alike s (.boolean q clauses scored) (.boolean q' clauses' scored)
  /-- No documents. -/
  | nothing {q q' : Query} (hq : q.display = q'.display) : Alike s (.nothing q) (.nothing q')

/-- Clauses are alike one by one. -/
inductive AlikeClauses (s : Snapshot) : List (Occur × Weight R) → List (Occur × Weight R) → Prop
  /-- No clauses. -/
  | nil : AlikeClauses s [] []
  /-- A clause in front of others. -/
  | cons {w w' : Weight R} {clauses clauses' : List (Occur × Weight R)} (o : Occur)
    (h : Alike s w w') (hrest : AlikeClauses s clauses clauses') :
    AlikeClauses s ((o, w) :: clauses) ((o, w') :: clauses')

end

theorem Alike.display_eq {w w' : Weight R} (h : Alike s w w') :
    w.query.display = w'.query.display := by
  cases h <;> assumption

theorem openTerm_eq {t : Term} {l l' : TermLookup} (h : Serves s t counted l)
    (h' : Serves s t counted l') (scorer : Option (BM25 R)) (least : Option Threshold)
    (g : Segment) : openTerm t l scorer least g = openTerm t l' scorer least g := by
  rw [openTerm, openTerm, h.get_eq h']

theorem openSpans_eq {w w' : SpanWeight} (h : SpanWeight.Alike s counted w w')
    (scorer : Option (BM25 R)) (g : Segment) : openSpans w scorer g = openSpans w' scorer g := by
  rw [openSpans, openSpans, SpanWeight.Alike.spans_eq g w w' _ h]

mutual

/-- Weights that are alike open the same matcher. -/
theorem Alike.matcher_eq (g : Segment) : ∀ (w w' : Weight R),
    Alike s w w' → w.matcher g = w'.matcher g
  | .term _ _ _ _ _, _, .term _ _ _ h h' => openTerm_eq h h' _ _ g
  | .spans _ _ _, _, .spans _ _ h => openSpans_eq h _ g
  | .boolean _ clauses _, _, .boolean _ _ h => by
    rw [matcher, matcher, AlikeClauses.parts_eq g clauses _ h]
  | .nothing _, _, .nothing _ => rfl

theorem AlikeClauses.parts_eq (g : Segment) : ∀ clauses clauses' : List (Occur × Weight R),
    AlikeClauses s clauses clauses' → parts g clauses = parts g clauses'
  | [], _, .nil => rfl
  | (_, w) :: clauses, _, .cons _ h hrest => by
    rw [parts, parts, Alike.matcher_eq g w _ h, AlikeClauses.parts_eq g clauses _ hrest]

end

variable [ScoreNumber R]

theorem Alike.hits_eq {w w' : Weight R} (h : Alike s w w') (g : Segment) :
    w.hits g = w'.hits g := by
  rw [hits, hits, Alike.matcher_eq g w w' h]

theorem explainMatch_eq {q q' : Query} (hq : q.display = q'.display) (scorer : Option (BM25 R))
    (label missing : String) (freq : Matcher R → R) (doc : Nat) (m : Option (Matcher R)) :
    explainMatch q scorer label missing freq doc m =
      explainMatch q' scorer label missing freq doc m := by
  unfold explainMatch
  rw [hq]

mutual

/-- Weights that are alike explain a document in the same way. -/
theorem Alike.explain_eq (g : Segment) (doc : Nat) : ∀ (w w' : Weight R),
    Alike s w w' → w.explain g doc = w'.explain g doc
  | .term _ _ _ _ _, _, .term _ _ hq h h' => by
    rw [explain, explain, openTerm_eq h h']
    simp only [explainMatch_eq hq]
  | .spans _ _ _, _, .spans _ hq h => by
    rw [explain, explain, openSpans_eq h]
    simp only [explainMatch_eq hq]
  | .boolean _ clauses _, _, .boolean _ _ h => AlikeClauses.explainClauses_eq g doc _ clauses _ h
  | .nothing _, _, .nothing hq => by rw [explain, explain, hq]

theorem AlikeClauses.explainClauses_eq (g : Segment) (doc : Nat) :
    ∀ (t : ClauseTally R) (clauses clauses' : List (Occur × Weight R)),
      AlikeClauses s clauses clauses' →
      explainClauses g doc t clauses = explainClauses g doc t clauses'
  | _, [], _, .nil => rfl
  | t, (o, w) :: clauses, _, .cons _ h hrest => by
    have hrests := fun t => AlikeClauses.explainClauses_eq g doc t clauses _ hrest
    rw [explainClauses, explainClauses, Alike.explain_eq g doc w _ h, h.display_eq]
    simp only [hrests]

end

end Weight

/-! ### Binding a query and its plain form -/

namespace Weighing

theorem honest_none (s : Snapshot) (t : Term) : TermLookup.Honest s t none := by
  rintro l ⟨⟩

mutual

/-- A span query and its plain form are bound to weights that are alike. -/
theorem agree_spanWeight : ∀ q : Query, q.Honest s →
    Agree s (SpanWeight.Alike s counted) (spanWeight s counted q) (spanWeight s counted q.plain)
  | .spanTerm t, _ => by
    change Agree s _ (spanWeight s counted (.spanTerm t)) (spanWeight s counted (.spanTerm t))
    rw [spanWeight]
    refine (agree_resolve (honest_none s t) (honest_none s t)).bind fun l l' h => agree_pure ?_
    exact .term _ _ _ h.1 h.2
  | .frequentSpanTerm t least carried, hq => by
    have hcarried : TermLookup.Honest s t carried := by
      rintro l rfl hid
      exact hq (t, l) (List.mem_singleton_self _) hid
    rw [Query.plain, spanWeight, spanWeight]
    refine (agree_resolve hcarried (honest_none s t)).bind fun l l' h => agree_pure ?_
    exact .term _ _ _ h.1 h.2
  | .spanOr field qs, hq => by
    rw [Query.plain, spanWeight, spanWeight]
    exact (agree_spanWeights qs hq).bind fun ws ws' h => agree_pure (.union _ _ _ h)
  | .spanNear field qs slop inOrder, hq => by
    rw [Query.plain, spanWeight, spanWeight]
    exact (agree_spanWeights qs hq).bind fun ws ws' h => agree_pure (.near _ _ _ _ _ h)
  | .withoutPayload q, hq => by
    rw [Query.plain, spanWeight, spanWeight]
    exact (agree_spanWeight q hq).bind fun w w' h => agree_pure (.filtered _ _ _ h)
  | .frequentSpan q least, hq => by
    rw [Query.plain, spanWeight, spanWeight]
    exact (agree_spanWeight q hq).bind fun w w' h => agree_pure (.filtered _ _ _ h)
  | .spanMultiTerm m, _ => agree_throw rfl
  | .deferred q plan, _ =>
    agree_throw (congrArg Fault.notGrounded (Query.display_plain (.deferred q plan)).symm)
  | .boost q factor, _ =>
    agree_throw (congrArg Fault.notSpan (Query.display_plain (.boost q factor)).symm)
  | .boolean clauses, _ =>
    agree_throw (congrArg Fault.notSpan (Query.display_plain (.boolean clauses)).symm)
  | .term _, _ => agree_throw rfl
  | .markedTerm _ _, _ => agree_throw rfl
  | .frequentTerm _ _ _, _ => agree_throw rfl
  | .multiTerm _, _ => agree_throw rfl
  | .nothing, _ => agree_throw rfl

theorem agree_spanWeights : ∀ qs : List Query,
    (∀ l ∈ Query.carriedByAll qs, l.2.snapshot = s.id → l.2.Faithful s l.1) →
    Agree s (SpanWeight.AlikeAll s counted) (spanWeights s counted qs)
      (spanWeights s counted (Query.plainAll qs))
  | [], _ => agree_pure .nil
  | q :: qs, hqs => by
    rw [Query.carriedByAll] at hqs
    obtain ⟨hq, hqs⟩ := List.forall_mem_append.1 hqs
    rw [Query.plainAll, spanWeights, spanWeights]
    exact (agree_spanWeight q hq).bind fun w w' h =>
      (agree_spanWeights qs hqs).bind fun ws ws' hs => agree_pure (.cons h hs)

end

variable [ScoreNumber R]

/-- Lookups that serve give the same scorer. -/
theorem termScorer_eq_of_serves {t : Term} {l l' : TermLookup} {scored : Bool}
    (h : Serves s t scored l) (h' : Serves s t scored l') (boost : R) :
    termScorer s t l scored boost = termScorer s t l' scored boost := by
  cases scored with
  | false => rfl
  | true => rw [termScorer, termScorer, h.statistics?_eq h']

theorem spanScorer_eq_of_alike {w w' : SpanWeight} {scored : Bool}
    (h : SpanWeight.Alike s scored w w') (boost : R) :
    spanScorer s w scored boost = spanScorer s w' scored boost := by
  cases scored with
  | false => rfl
  | true => rw [spanScorer, spanScorer, SpanWeight.Alike.field_eq w w' h, h.statistics_eq]

theorem agree_termWeight {q q' : Query} (hq : q.display = q'.display) {t : Term}
    {carried carried' : Option TermLookup} (h : TermLookup.Honest s t carried)
    (h' : TermLookup.Honest s t carried') (least : Option Threshold) (scored : Bool) (boost : R) :
    Agree s (Weight.Alike s) (termWeight s q t carried least scored boost)
      (termWeight s q' t carried' least scored boost) := by
  rw [termWeight, termWeight]
  refine (agree_resolve h h').bind fun l l' hserves => agree_pure ?_
  rw [termScorer_eq_of_serves hserves.1 hserves.2]
  -- scorers have been made by now, and are all that totals are needed for
  have huncounted : ∀ l, LookupCache.Serves s t scored l → LookupCache.Serves s t false l :=
    fun _ h => ⟨h.1, fun hcounted => absurd hcounted Bool.false_ne_true⟩
  exact .term _ _ hq (huncounted l hserves.1) (huncounted l' hserves.2)

theorem agree_spansWeight {q : Query} (hq : q.Honest s) (scored : Bool) (boost : R) :
    Agree s (Weight.Alike s) (spansWeight s q scored boost)
      (spansWeight s q.plain scored boost) := by
  rw [spansWeight, spansWeight]
  refine (agree_spanWeight q hq).bind fun w w' h => agree_pure ?_
  rw [spanScorer_eq_of_alike h]
  exact .spans _ (Query.display_plain q).symm h

mutual

/-- A query and its plain form are bound to weights that are alike. -/
theorem agree_weight : ∀ (q : Query) (scored : Bool) (boost : R), q.Honest s →
    Agree s (Weight.Alike s) (weight s scored boost q) (weight s scored boost q.plain)
  | .term t, scored, boost, _ =>
    agree_termWeight rfl (honest_none s t) (honest_none s t) _ scored boost
  | .markedTerm t _, scored, boost, _ =>
    agree_termWeight rfl (honest_none s t) (honest_none s t) _ scored boost
  | .frequentTerm t least carried, scored, boost, hq => by
    have hcarried : TermLookup.Honest s t carried := by
      rintro l rfl hid
      exact hq (t, l) (List.mem_singleton_self _) hid
    rw [Query.plain, weight, weight]
    exact agree_termWeight (Query.display_plain (.frequentTerm t least carried)).symm hcarried
      (honest_none s t) _ scored boost
  | .boost q factor, scored, boost, hq => agree_weight q scored _ hq
  | .boolean clauses, scored, boost, hq => by
    rw [Query.plain, weight, weight]
    exact (agree_clauseWeights clauses scored boost hq).bind fun ws ws' h =>
      agree_pure (.boolean _ (Query.display_plain (.boolean clauses)).symm h)
  | .nothing, _, _, _ => agree_pure (.nothing rfl)
  | .multiTerm m, _, _, _ => agree_throw rfl
  | .spanMultiTerm m, _, _, _ => agree_throw rfl
  | .deferred q plan, _, _, _ =>
    agree_throw (congrArg Fault.notGrounded (Query.display_plain (.deferred q plan)).symm)
  | .spanTerm t, scored, boost, hq => agree_spansWeight hq scored boost
  | .frequentSpanTerm t least carried, scored, boost, hq => agree_spansWeight hq scored boost
  | .spanOr field qs, scored, boost, hq => agree_spansWeight hq scored boost
  | .spanNear field qs slop inOrder, scored, boost, hq => agree_spansWeight hq scored boost
  | .withoutPayload q, scored, boost, hq => agree_spansWeight hq scored boost
  | .frequentSpan q least, scored, boost, hq => agree_spansWeight hq scored boost

theorem agree_clauseWeights : ∀ (clauses : List (Occur × Query)) (scored : Bool) (boost : R),
    (∀ l ∈ Query.carriedByClauses clauses, l.2.snapshot = s.id → l.2.Faithful s l.1) →
    Agree s (Weight.AlikeClauses s) (clauseWeights s scored boost clauses)
      (clauseWeights s scored boost (Query.plainClauses clauses))
  | [], _, _, _ => agree_pure .nil
  | (o, q) :: clauses, scored, boost, hclauses => by
    rw [Query.carriedByClauses] at hclauses
    obtain ⟨hq, hclauses⟩ := List.forall_mem_append.1 hclauses
    rw [Query.plainClauses, clauseWeights, clauseWeights]
    exact (agree_weight q _ boost hq).bind fun w w' h =>
      (agree_clauseWeights clauses scored boost hclauses).bind fun ws ws' hs =>
        agree_pure (.cons o h hs)

end

end Weighing

/-! ### Calls -/

/-- A call of a searcher. -/
inductive Call where
  /-- Look for the best hits of a number. -/
  | search (size : Nat) (query : Query)
  /-- Count the documents. -/
  | count (query : Query)
  /-- Explain the score of a document. -/
  | explain (doc : Nat) (query : Query)

namespace Call

/-- The query of a call. -/
def query : Call → Query
  | search _ q => q
  | count q => q
  | explain _ q => q

/-- The call with the plain form of its query. -/
def plain : Call → Call
  | search size q => search size q.plain
  | count q => count q.plain
  | explain doc q => explain doc q.plain

end Call

/-- What a call is answered. -/
inductive Answer (R : Type) where
  /-- The best hits. -/
  | found (top : TopDocs R)
  /-- A number of documents. -/
  | counted (total : Nat)
  /-- An explanation. -/
  | explained (explanation : Explanation R)

namespace Searcher

open Weighing

variable [ScoreNumber R]

/-- Answer a call. -/
def answer (s : Searcher) : Call → Weighing (Answer R)
  | .search size q => do pure (.found (← s.search size q))
  | .count q => do pure (.counted (← s.count q))
  | .explain doc q => do pure (.explained (← s.explain doc q))

/-- Answer calls one after the other, with the lookups that were shared in those before. -/
def answers (s : Searcher) : LookupCache → List Call → List (Except Fault (Answer R))
  | _, [] => []
  | c, call :: calls =>
    ((s.answer call).run.run c).1 :: s.answers ((s.answer (R := R) call).run.run c).2 calls

end Searcher

/-- Every lookup that a query brings along was made for the term that it is used for, from some
snapshot, and with totals or without. Snapshots are told apart by their identities. -/
def Query.BringsOwnLookups (s : Snapshot) (q : Query) : Prop :=
  ∀ l ∈ q.carriedLookups, ∃ (s' : Snapshot) (counted : Bool),
    (s'.id = s.id → s' = s) ∧ l.2 = .ofSnapshot s' l.1 counted

theorem Query.BringsOwnLookups.honest {q : Query} (h : q.BringsOwnLookups s) : q.Honest s := by
  intro l hl hid
  obtain ⟨s', counted, hsame, hmade⟩ := h l hl
  rw [hmade] at hid ⊢
  rw [hsame hid]
  exact TermLookup.faithful_ofSnapshot s l.1 counted

namespace Searcher

open Weighing

variable [ScoreNumber R] {s : Searcher}

/-- Grounding a query and its plain form. -/
theorem agreeing_grounded {q : Query} (hq : q.Honest s.snapshot) :
    Agreeing (fun r r' => r' = r.plain ∧ r.Honest s.snapshot) (s.grounded q)
      (s.grounded q.plain) := by
  rw [grounded_plain]
  cases hr : s.grounded q with
  | error => rfl
  | ok r => exact ⟨rfl, (grounds_of_grounded hr).honest hq⟩

theorem agree_prepare {q : Query} (hq : q.Honest s.snapshot) (scored : Bool) :
    Agree s.snapshot (Weight.Alike s.snapshot) (s.prepare (R := R) scored q)
      (s.prepare scored q.plain) := by
  rw [prepare, prepare]
  refine (agree_lift (agreeing_grounded hq)).bind ?_
  rintro r _ ⟨rfl, hr⟩
  exact agree_weight r scored _ hr

/-- A call and its plain form are answered alike, whatever was looked up before. -/
theorem agree_answer {call : Call} (hcall : call.query.Honest s.snapshot) :
    Agree s.snapshot Eq (s.answer (R := R) call) (s.answer call.plain) := by
  have hpure : ∀ {α β : Type} (f : α → β) (a b : α), a = b →
      Agree s.snapshot Eq (pure (f a)) (pure (f b)) := fun f a b h => agree_pure (congrArg f h)
  cases call with
  | search size q =>
    rw [Call.plain, answer, answer, search, search]
    refine ((agree_prepare hcall true).bind fun w w' h => ?_).bind (hpure Answer.found)
    exact (agree_mapM_lift fun g _ => h.hits_eq g).bind (hpure _)
  | count q =>
    rw [Call.plain, answer, answer, count, count]
    refine ((agree_prepare hcall false).bind fun w w' h => ?_).bind (hpure Answer.counted)
    exact (agree_mapM_lift fun g _ => h.hits_eq g).bind (hpure _)
  | explain doc q =>
    rw [Call.plain, answer, answer, explain, explain]
    refine Agree.bind ?_ (hpure Answer.explained)
    cases s.snapshot.locate? doc with
    | none => exact agree_throw rfl
    | some place =>
      refine (agree_prepare hcall true).bind fun w w' h => agree_lift ?_
      rw [Weight.Alike.explain_eq place.1 place.2 w w' h]
      exact agreeing_eq_iff.2 rfl

/-- However many calls were answered before, and whatever lookups queries bring along, every call
is answered as its plain form is at first. -/
theorem answers_eq {calls : List Call} (hcalls : ∀ call ∈ calls, call.query.Honest s.snapshot)
    {c : LookupCache} (hc : c.Sound s.snapshot) :
    s.answers (R := R) c calls = calls.map fun call => (s.answer call.plain).outcome .empty := by
  induction calls generalizing c with
  | nil => rfl
  | cons call calls ih =>
    obtain ⟨hcall, hrest⟩ := List.forall_mem_cons.1 hcalls
    obtain ⟨hsame, hsound, -⟩ :=
      agree_answer (R := R) hcall c .empty hc (LookupCache.sound_empty s.snapshot)
    rw [answers, List.map_cons, ih hrest hsound, agreeing_eq_iff.1 hsame]
    rfl

/-- Shared and carried lookups change no answers. The calls on a searcher, one after the other, are
answered as each of them is on a fresh searcher, and as its plain form is there. -/
theorem caches_change_nothing (s : Searcher) (calls : List Call)
    (hcalls : ∀ call ∈ calls, call.query.BringsOwnLookups s.snapshot) :
    s.answers (R := R) .empty calls = calls.map (fun call => (s.answer call).outcome .empty) ∧
      s.answers (R := R) .empty calls =
        calls.map fun call => (s.answer call.plain).outcome .empty := by
  have hhonest : ∀ call ∈ calls, call.query.Honest s.snapshot :=
    fun call h => (hcalls call h).honest
  have hplain := answers_eq (R := R) hhonest (LookupCache.sound_empty s.snapshot)
  refine ⟨?_, hplain⟩
  rw [hplain]
  refine List.map_congr_left fun call hcall => ?_
  have hsound := LookupCache.sound_empty s.snapshot
  exact (agreeing_eq_iff.1 (agree_answer (hhonest call hcall) .empty .empty hsound hsound).1).symm

/-- The index of two documents under an identity. -/
def ofTwoDocuments (id : Nat) : Snapshot :=
  .ofSteps [("body", .positions)]
    [.add [("body", [⟨"a", 0, none⟩, ⟨"b", 1, none⟩])], .commit, .add [("body", [⟨"a", 0, none⟩])]] id

/-- A term that occurs in one of them, with a lookup from an index of another identity, and without
a term that occurs in the other, with a lookup that has no totals. -/
def bringingLookups : Query :=
  .boolean
    [(.must, .frequentTerm ⟨"body", "a"⟩ .one
        (some (.ofSnapshot (ofTwoDocuments 6) ⟨"body", "a"⟩ true))),
      (.mustNot, .frequentSpanTerm ⟨"body", "b"⟩ .one
        (some (.ofSnapshot (ofTwoDocuments 5) ⟨"body", "b"⟩ false)))]

theorem bringsOwnLookups_bringingLookups :
    bringingLookups.BringsOwnLookups (ofTwoDocuments 5) := by
  refine List.forall_mem_cons.2 ⟨?_, List.forall_mem_cons.2 ⟨?_, List.forall_mem_nil _⟩⟩
  · exact ⟨ofTwoDocuments 6, true, fun h => absurd h (by decide), rfl⟩
  · exact ⟨ofTwoDocuments 5, false, fun _ => rfl, rfl⟩

theorem caches_change_nothing_foreign :
    (∀ call ∈ [Call.count bringingLookups, .search 3 bringingLookups, .explain 1 bringingLookups],
      call.query.BringsOwnLookups (ofTwoDocuments 5)) ∧
    (⟨ofTwoDocuments 5, default⟩ : Searcher).answers (R := Single) .empty
        [.count bringingLookups, .search 3 bringingLookups, .explain 1 bringingLookups] =
      [.count bringingLookups.plain, .search 3 bringingLookups.plain,
        .explain 1 bringingLookups.plain].map fun call =>
          ((⟨ofTwoDocuments 5, default⟩ : Searcher).answer call).outcome .empty := by
  have hcalls : ∀ call ∈ [Call.count bringingLookups, .search 3 bringingLookups,
      .explain 1 bringingLookups], call.query.BringsOwnLookups (ofTwoDocuments 5) := by
    intro call hcall
    have hquery : call.query = bringingLookups := by
      simp only [List.mem_cons, List.not_mem_nil, or_false] at hcall
      rcases hcall with rfl | rfl | rfl <;> rfl
    rw [hquery]
    exact bringsOwnLookups_bringingLookups
  exact ⟨hcalls, (caches_change_nothing (R := Single) ⟨ofTwoDocuments 5, default⟩ _ hcalls).2⟩

end Searcher

end TextSearch
