import TextSearch.Proofs.Index.Statistics
import TextSearch.Proofs.Search.Answers
import TextSearch.Proofs.Search.Convergence
import TextSearch.Proofs.Search.Scores

/-!
# What documents score

What a document scores for a query, said of the document and of the statistics of the
index alone: `Query.scoreIn?`. Where scores are exact this is what the document scores in
any segment that has it, if gaps are measured in the same way everywhere: a union
of spans stands for its only operand where a segment lacks the others, and gaps are
then measured as this operand measures them. `Query.isSteady` says that no scored part of
a query depends on this. Main statement: `Searcher.scoreAt?_eq_scoreIn?`.
-/

namespace TextSearch

open Trail

variable {R : Type} [ScoreNumber R]

/-! ### Scorers -/

section Scorers

variable {s s' : Snapshot}

/-- The scorer of a term depends on the statistics alone. -/
theorem Weighing.termScorer_eq_of_sameStatistics (h : s.SameStatistics s') (t : Term)
    (scored : Bool) (boost : R) :
    termScorer s t (.ofSnapshot s t true) scored boost =
      termScorer s' t (.ofSnapshot s' t true) scored boost := by
  have hfields := h.fields t.field
  have hterms := h.terms t
  rw [TermLookup.totals?, TermLookup.totals?] at hterms
  rw [termScorer, termScorer]
  cases hf : s.fieldStatistics? t.field <;> cases hf' : s'.fieldStatistics? t.field <;>
    cases hl : (TermLookup.ofSnapshot s t true).statistics? <;>
    cases hl' : (TermLookup.ofSnapshot s' t true).statistics? <;>
    simp_all [averageLength]

/-- The scorer of spans depends on the statistics alone. -/
theorem Query.spanScorer_eq_of_sameStatistics (h : s.SameStatistics s') (q : Query)
    (scored : Bool) (boost : R) : q.spanScorer s scored boost = q.spanScorer s' scored boost := by
  have hterms : ((Term.sorted q.spanTerms).filterMap (TermLookup.totals? s)).map (·.docFreq) =
      ((Term.sorted q.spanTerms).filterMap (TermLookup.totals? s')).map (·.docFreq) := by
    rw [List.map_filterMap, List.map_filterMap]
    exact List.filterMap_congr fun t _ => h.terms t
  have hfields : (q.spanField?.bind s.fieldStatistics?).map
        (fun f => (f.maxDoc, f.docCount, f.tokenCount)) =
      (q.spanField?.bind s'.fieldStatistics?).map
        fun f => (f.maxDoc, f.docCount, f.tokenCount) := by
    cases q.spanField? with
    | none => rfl
    | some field => exact h.fields field
  rw [spanScorer, spanScorer]
  generalize q.spanField?.bind s.fieldStatistics? = f at hfields
  generalize q.spanField?.bind s'.fieldStatistics? = f' at hfields
  generalize (Term.sorted q.spanTerms).filterMap (TermLookup.totals? s) = ts at hterms
  generalize (Term.sorted q.spanTerms).filterMap (TermLookup.totals? s') = ts' at hterms
  cases f <;> cases f' <;> cases ts <;> cases ts' <;> simp_all [Weighing.averageLength]

end Scorers

/-! ### Widths -/

namespace Query

mutual

/-- How many positions of its spans a query may take to go without a gap in a segment. In a union
this depends on which operands the segment has. -/
def spanWidths : Query → List UInt32
  | spanOr _ clauses =>
    if 1 < clauses.length then 1 :: spanWidthsAll clauses else spanWidthsAll clauses
  | spanNear _ clauses _ _ => [clauses.length.toUInt32]
  | _ => [1]

/-- How many positions several queries may take to go without a gap. -/
def spanWidthsAll : List Query → List UInt32
  | [] => []
  | q :: rest => q.spanWidths ++ spanWidthsAll rest

end

mutual

/-- Whether every part of a query that is scored measures gaps in the same way in all segments. -/
def isSteady : Query → Bool
  | boost q _ => q.isSteady
  | boolean clauses => clausesAreSteady clauses
  | q => q.spanWidths.all fun v => q.spanWidths.all fun w => v == w

/-- Whether every clause that is scored does. -/
def clausesAreSteady : List (Occur × Query) → Bool
  | [] => true
  | (o, q) :: rest => (decide (o = .mustNot) || q.isSteady) && clausesAreSteady rest

end

theorem steady_of_mem {clauses : List (Occur × Query)} (h : clausesAreSteady clauses = true)
    {c : Occur × Query} (hc : c ∈ clauses) (ho : c.1 ≠ .mustNot) : c.2.isSteady = true := by
  induction clauses with
  | nil => cases hc
  | cons first rest ih =>
    rw [clausesAreSteady, Bool.and_eq_true, Bool.or_eq_true, decide_eq_true_eq] at h
    rcases List.mem_cons.1 hc with rfl | hc
    · exact h.1.resolve_left ho
    · exact ih h.2 hc

theorem mem_spanWidthsAll {qs : List Query} {q : Query} (hq : q ∈ qs) {w : UInt32}
    (hw : w ∈ q.spanWidths) : w ∈ spanWidthsAll qs := by
  induction qs with
  | nil => cases hq
  | cons first rest ih =>
    rw [spanWidthsAll, List.mem_append]
    rcases List.mem_cons.1 hq with rfl | hq
    · exact .inl hw
    · exact .inr (ih hq)

/-- A source takes one of the widths of its query to go without a gap. -/
theorem mem_spanWidths {g : Segment} {detail : Detail} {q : Query} {source : SpanSource}
    (h : q.spanSource? g detail = some source) : source.1 ∈ q.spanWidths := by
  induction q using byParts generalizing detail source with
  | hspanOr field qs ih =>
    rw [spanSource?] at h
    have hlength : (spanSources g detail qs).length ≤ qs.length := by
      rw [spanSources_eq_filterMap]
      exact List.length_filterMap_le _ _
    match hsources : spanSources g detail qs, h with
    | [one], h =>
      cases h
      have hone : source ∈ spanSources g detail qs := by
        rw [hsources]
        exact List.mem_singleton_self _
      rw [spanSources_eq_filterMap, List.mem_filterMap] at hone
      obtain ⟨q, hq, hsource⟩ := hone
      have hmem := mem_spanWidthsAll hq (ih q hq hsource)
      rw [spanWidths]
      split
      · exact List.mem_cons_of_mem _ hmem
      · exact hmem
    | first :: second :: rest, h =>
      cases h
      rw [hsources, List.length_cons, List.length_cons] at hlength
      rw [spanWidths, if_pos (by omega)]
      exact List.mem_cons_self ..
  | hspanNear field qs slop inOrder ih =>
    obtain ⟨sources, hsources, rfl⟩ := Option.map_eq_some_iff.1 h
    have hlength := (allSpanSources?_eq_some hsources).length_eq
    rw [spanWidths, SpanSource.nearby, hlength]
    exact List.mem_singleton_self _
  | hwithoutPayload q ih =>
    obtain ⟨inner, -, rfl⟩ := Option.map_eq_some_iff.1 h
    exact List.mem_singleton_self _
  | hfrequentSpan q least ih =>
    obtain ⟨inner, -, rfl⟩ := Option.map_eq_some_iff.1 h
    exact List.mem_singleton_self _
  | hboost q factor ih => cases h
  | hboolean clauses ih => cases h
  | hdeferred q plan ih => cases h
  | hatom q hatom =>
    cases q with
    | spanTerm t =>
      obtain ⟨ps, -, rfl⟩ := Option.map_eq_some_iff.1 h
      exact List.mem_singleton_self _
    | frequentSpanTerm t least carried =>
      obtain ⟨ps, -, rfl⟩ := Option.map_eq_some_iff.1 h
      exact List.mem_singleton_self _
    | _ => first | cases h | cases hatom

theorem spanWidths_of_steady {q : Query} (hspan : q.isSpan = true) (h : q.isSteady = true)
    {w : UInt32} (hw : w ∈ q.spanWidths) : w = q.spanWidths.headD 1 := by
  have hall : (q.spanWidths.all fun v => q.spanWidths.all fun w => v == w) = true := by
    cases q with
    | boost => cases hspan
    | boolean => cases hspan
    | _ => exact h
  have hsame : ∀ v ∈ q.spanWidths, v = w := fun v hv =>
    eq_of_beq (List.all_eq_true.1 (List.all_eq_true.1 hall v hv) w hw)
  cases hwidths : q.spanWidths with
  | nil =>
    rw [hwidths] at hw
    cases hw
  | cons first rest =>
    refine (hsame first ?_).symm
    rw [hwidths]
    exact List.mem_cons_self ..

/-! ### Scores of documents -/

/-- What a document scores for a term that occurs often enough in it. -/
def termScoreIn? (s : Snapshot) (declared : Dictionary IndexOptions) (doc : Document) (boost : R)
    (t : Term) (least : Option Threshold) : Option R :=
  if doc.reaches declared least t then
    some ((Weighing.termScorer s t (.ofSnapshot s t true) true boost).elim ScoreNumber.zero
      fun scorer => scorer.score (ScoreNumber.ofCount (doc.frequency declared t)))
  else none

/-- What places of a span query score, if there are any. -/
def spansScore? (s : Snapshot) (boost : R) (q : Query) (ss : List Span) : Option R :=
  if ss.isEmpty then none
  else some (Merit.ofSpans (q.spanScorer s true boost) (q.spanWidths.headD 1) ss).score

mutual

/-- What a document scores for a grounded query that it satisfies. -/
def scoreIn? (s : Snapshot) (declared : Dictionary IndexOptions) (doc : Document) (boost : R) :
    Query → Option R
  | term t => termScoreIn? s declared doc boost t none
  | markedTerm t _ => termScoreIn? s declared doc boost t none
  | frequentTerm t least _ => termScoreIn? s declared doc boost t (some least)
  | Query.boost q factor => scoreIn? s declared doc (boost * ScoreNumber.ofBoost factor) q
  | boolean clauses =>
    if (boolean clauses).satisfiedBy declared doc then
      some (ScoreNumber.sum (clauseScoresIn s declared doc boost clauses))
    else none
  | q => q.spansScore? s boost (q.places declared doc false)

/-- What a document scores for those clauses that it satisfies and may satisfy. -/
def clauseScoresIn (s : Snapshot) (declared : Dictionary IndexOptions) (doc : Document)
    (boost : R) : List (Occur × Query) → List R
  | [] => []
  | (o, q) :: rest =>
    (if o = .mustNot then none else scoreIn? s declared doc boost q).toList ++
      clauseScoresIn s declared doc boost rest

end

theorem scoreIn?_of_isSpan (s : Snapshot) (declared : Dictionary IndexOptions) (doc : Document)
    {boost : R} {q : Query} (h : q.isSpan = true) :
    q.scoreIn? s declared doc boost = q.spansScore? s boost (q.places declared doc false) := by
  cases q <;> first | rfl | cases h

/-- The statistics are all that scores need of an index. -/
theorem scoreIn?_of_sameStatistics {s s' : Snapshot} (h : s.SameStatistics s')
    (declared : Dictionary IndexOptions) (doc : Document) (boost : R) (q : Query) :
    q.scoreIn? s declared doc boost = q.scoreIn? s' declared doc boost := by
  have hspans : ∀ (q : Query) (boost : R) (ss : List Span),
      q.spansScore? s boost ss = q.spansScore? s' boost ss := by
    intro q boost ss
    rw [spansScore?, spansScore?, spanScorer_eq_of_sameStatistics h]
  have hterm : ∀ (boost : R) (t : Term) (least : Option Threshold),
      termScoreIn? s declared doc boost t least = termScoreIn? s' declared doc boost t least := by
    intro boost t least
    rw [termScoreIn?, termScoreIn?, Weighing.termScorer_eq_of_sameStatistics h]
  induction q using byParts generalizing boost with
  | hboost q factor ih => exact ih _
  | hboolean clauses ih =>
    have hclauses : clauseScoresIn s declared doc boost clauses =
        clauseScoresIn s' declared doc boost clauses := by
      induction clauses with
      | nil => rfl
      | cons c rest ihrest =>
        obtain ⟨hc, hrest⟩ := List.forall_mem_cons.1 ih
        rw [clauseScoresIn, clauseScoresIn, hc, ihrest hrest]
    rw [scoreIn?, scoreIn?, hclauses]
  | hatom q hatom =>
    cases q with
    | term t => exact hterm boost t none
    | markedTerm t mark => exact hterm boost t none
    | frequentTerm t least carried => exact hterm boost t (some least)
    | boost => cases hatom
    | boolean => cases hatom
    | _ => exact hspans _ boost _
  | _ => exact hspans _ boost _

end Query

/-- The order in which spans are listed does not matter for what they score. -/
theorem Merit.score_ofSpans_perm [ExactSum R] {ss ss' : List Span} (h : ss.Perm ss')
    (scorer : Option (BM25 R)) (width : UInt32) :
    (Merit.ofSpans scorer width ss).score = (Merit.ofSpans scorer width ss').score := by
  have hsum := ScoreNumber.sum_perm (h.map fun s : Span => (ScoreNumber.one : R) /
    (ScoreNumber.one + ScoreNumber.ofCount (Span.excess s.length width).toNat))
  rw [Merit.ofSpans, Merit.ofSpans, Span.sloppyFrequency, Span.sloppyFrequency, hsum]

namespace Searcher

open SpanSource

variable {s : Searcher} {declared : Dictionary IndexOptions} {g : Segment} {i : Nat}
  {doc : Document}

/-- A document scores for a term what it says about the term itself. -/
theorem scoreAt?_term (h : s.snapshot.HasDocument declared g i doc) (boost : R) (t : Term)
    (least : Option Threshold) :
    (Query.termTrail? s.snapshot g true boost t least.toList).bind (scoreAt? i) =
      Query.termScoreIn? s.snapshot declared doc boost t least := by
  have htrail : (Query.termTrail? s.snapshot g true boost t least.toList).bind (scoreAt? i) =
      (((g.postingsOf t).find? fun p => p.doc == i).filter (passes least.toList)).map fun p =>
        (Merit.ofPosting (Weighing.termScorer s.snapshot t (.ofSnapshot s.snapshot t true) true
          boost) p).score := by
    have hpostings := h.once t
    rw [Query.termTrail?, Segment.postingsOf] at *
    cases hps : g.postings? t with
    | none => rfl
    | some ps =>
      rw [hps, Option.getD_some] at hpostings
      rw [Option.map_some, Option.bind_some, scoreAt?, at?_showing, Option.map_map,
        at?_gatedVisits hpostings]
      rfl
  have hview := h.view t
  have hreaches := doc.any_passes_posting? declared t least
  rw [htrail, Query.termScoreIn?, ← hreaches]
  rw [Segment.view] at hview
  cases hfind : (g.postingsOf t).find? fun p => p.doc == i with
  | none =>
    rw [hfind, Option.map_none] at hview
    rw [← hview]
    rfl
  | some p =>
    rw [hfind, Option.map_some] at hview
    have hfrequency : (p.under 0).frequency = doc.frequency declared t :=
      Document.frequency_of_posting? hview.symm
    have hunder : passes least.toList (p.under 0) = passes least.toList p := rfl
    rw [← hview, Option.any_some, hunder, Option.filter_some]
    by_cases hpasses : passes least.toList p = true
    · rw [if_pos hpasses, if_pos hpasses, ← hfrequency]
      rfl
    · rw [if_neg hpasses, if_neg hpasses]
      rfl

/-- A document scores for a grounded span query what its places score. -/
theorem scoreAt?_spans [ExactSum R] (h : s.snapshot.HasDocument declared g i doc) {q : Query}
    (hspan : q.isSpan = true) (hq : q.hasNode Query.isUnbound = false)
    (hsteady : q.isSteady = true) (boost : R) :
    (q.trail? s.snapshot g true boost).bind (scoreAt? i) =
      q.scoreIn? s.snapshot declared doc boost := by
  have hperm := listed_perm_places h q .positions (Query.defersNothing_of_bound hq)
    (grounds_self hq)
  rw [Query.trail?_of_isSpan _ _ hspan, Query.scoreIn?_of_isSpan _ _ _ hspan, Query.spansScore?]
  change (SpanSource.listed _ _).Perm (q.places declared doc false) at hperm
  cases hsource : q.spanSource? g .positions with
  | none =>
    rw [hsource] at hperm
    rw [← hperm.nil_eq]
    rfl
  | some source =>
    have hwidth := Query.spanWidths_of_steady hspan hsteady (Query.mem_spanWidths hsource)
    have hfilled := (Query.tidy_spanSource? h.sound h.once q hsource).filled
    rw [hsource, SpanSource.listed, Option.elim_some, Trail.listed] at hperm
    rw [Option.map_some, Option.bind_some, scoreAt?, at?_showing, ← hwidth]
    cases hat : source.2.at? i with
    | none =>
      rw [hat] at hperm
      rw [← hperm.nil_eq]
      rfl
    | some ss =>
      rw [hat, Option.getD_some] at hperm
      have hne : (q.places declared doc false).isEmpty ≠ true := fun hempty => by
        rw [List.isEmpty_iff.1 hempty] at hperm
        exact hfilled _ (mem_of_at?_eq_some hat) hperm.eq_nil
      rw [if_neg hne, ← Merit.score_ofSpans_perm hperm]
      rfl

/-- The clauses of a combination score together what the clauses score that the document may
satisfy. -/
theorem scoreAt_trailParts? [ExactSum R] {boost : R} {clauses : List (Occur × Query)}
    (h : ∀ c ∈ clauses, c.1 ≠ .mustNot → (c.2.trail? s.snapshot g true boost).bind (scoreAt? i) =
      c.2.scoreIn? s.snapshot declared doc boost) {p : TrailParts R}
    (hp : Query.trailParts? s.snapshot g true boost clauses = some p) :
    p.scoreAt i =
      ScoreNumber.sum (Query.clauseScoresIn s.snapshot declared doc boost clauses) := by
  induction clauses generalizing p with
  | nil =>
    cases hp
    exact ExactScore.emptySum_add _
  | cons c rest ih =>
    obtain ⟨o, q⟩ := c
    obtain ⟨hfirst, hrest⟩ := List.forall_mem_cons.1 h
    rw [Query.trailParts?] at hp
    rw [Query.clauseScoresIn]
    by_cases ho : o = .mustNot
    · rw [if_pos ho, if_neg (by rw [ho]; decide)] at *
      rw [Option.toList_none, List.nil_append]
      split at hp
      · exact ih hrest hp
      · obtain ⟨p', hp', rfl⟩ := Option.map_eq_some_iff.1 hp
        rw [TrailParts.scoreAt_add_of_not_mem (.inl ho), ih hrest hp']
    · rw [if_neg ho] at hp ⊢
      have hscore := hfirst ho
      cases htrail : q.trail? s.snapshot g true boost with
      | none =>
        simp only [htrail] at hp hscore
        rw [← hscore]
        split at hp
        · cases hp
        · exact ih hrest hp
      | some t =>
        simp only [htrail] at hp hscore
        obtain ⟨p', hp', rfl⟩ := Option.map_eq_some_iff.1 hp
        rw [← hscore, Option.bind_some]
        cases hat : t.scoreAt? i with
        | none =>
          have hnot : i ∉ t.docs := fun hmem => by
            rw [← isSome_scoreAt?_iff, hat] at hmem
            cases hmem
          rw [TrailParts.scoreAt_add_of_not_mem (.inr hnot)]
          exact ih hrest hp'
        | some x =>
          rw [TrailParts.scoreAt_add ho hat, ih hrest hp', Option.toList_some,
            List.singleton_append, ScoreNumber.sum_cons]

/-- A document scores the same for a grounded query in every segment that has it. -/
theorem scoreAt?_eq_scoreIn? [ExactSum R] (h : s.snapshot.HasDocument declared g i doc) {q : Query}
    (hq : q.hasNode Query.isUnbound = false) (hsteady : q.isSteady = true) (boost : R) :
    (q.trail? s.snapshot g true boost).bind (scoreAt? i) =
      q.scoreIn? s.snapshot declared doc boost := by
  induction q using Query.byParts generalizing boost with
  | hboost q factor ih => exact ih hq hsteady _
  | hboolean clauses ih =>
    have hclauses : ∀ c ∈ clauses, c.1 ≠ .mustNot →
        (c.2.trail? s.snapshot g true boost).bind (scoreAt? i) =
          c.2.scoreIn? s.snapshot declared doc boost := fun c hc ho =>
      ih c hc ((Query.hasNode_boolean rfl).1 hq c hc) (Query.steady_of_mem hsteady hc ho) boost
    have hshows := shows_eq_satisfiedBy h (.boolean clauses) (Query.defersNothing_of_bound hq)
      (grounds_self hq)
    have hdocs := Query.mem_docs_trail? s.snapshot g i (.boolean clauses) true boost
    rw [hshows] at hdocs
    rw [Query.scoreIn?]
    by_cases hsatisfied : (Query.boolean clauses).satisfiedBy declared doc = true
    · rw [if_pos hsatisfied]
      have hmem := hdocs.2 hsatisfied
      rw [Query.trail?] at hmem ⊢
      cases hp : Query.trailParts? s.snapshot g true boost clauses with
      | none =>
        rw [hp] at hmem
        cases hmem
      | some p =>
        rw [hp, Option.bind_some] at hmem
        obtain ⟨hallows, hbacks⟩ := TrailParts.mem_docsOf_combine.1 hmem
        have hsimple := Query.simple_trailParts? h.sound h.once s.snapshot clauses hp
        rw [← scoreAt_trailParts? hclauses hp, Option.bind_some]
        cases hcombine : p.combine true with
        | none =>
          rw [hcombine] at hmem
          cases hmem
        | some t =>
          exact TrailParts.scoreAt?_combine (fun t ht => (hsimple.optional t ht).sound) hallows
            hbacks hcombine
    · rw [if_neg hsatisfied]
      have hnot := mt hdocs.1 hsatisfied
      cases htrail : (Query.boolean clauses).trail? s.snapshot g true boost with
      | none => rfl
      | some t =>
        rw [htrail, docsOf, Option.elim_some, ← isSome_scoreAt?_iff,
          Option.not_isSome_iff_eq_none] at hnot
        exact hnot
  | hdeferred q plan ih => cases hq
  | hatom q hatom =>
    cases q with
    | term t => exact scoreAt?_term h boost t none
    | markedTerm t mark => exact scoreAt?_term h boost t none
    | frequentTerm t least carried => exact scoreAt?_term h boost t (some least)
    | multiTerm m => cases hq
    | spanMultiTerm m => cases hq
    | nothing => rfl
    | spanTerm t => exact scoreAt?_spans h rfl hq hsteady boost
    | frequentSpanTerm t least carried => exact scoreAt?_spans h rfl hq hsteady boost
    | _ => cases hatom
  | _ => exact scoreAt?_spans h rfl hq hsteady boost

end Searcher

end TextSearch
