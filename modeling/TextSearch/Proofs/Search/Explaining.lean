import TextSearch.Proofs.Search.Answers
import TextSearch.Proofs.Search.Convergence
import TextSearch.Proofs.Search.Counting
import TextSearch.Proofs.Search.Scores

/-!
# Explanations

An explanation is a second way to run a query, for one document alone: every leaf is
opened anew and skipped to the document, and the clauses of a combination are taken
one after the other. Main statement: `Searcher.explanation_agrees`, that where scores
are exact it matches the hits of a search and comes to their scores.
-/

namespace TextSearch

open Trail

variable {R : Type} [ScoreNumber R]

/-! ### Moves keep leaves -/

namespace PostingMatcher

omit [ScoreNumber R] in
@[simp] theorem scorer_skipTo (m : PostingMatcher R) (target : Nat) :
    (m.skipTo target).2.scorer = m.scorer := by
  rw [skipTo]
  split <;> rfl

/-- What is shown is scored by how often the term occurs. -/
theorem score_of_scorer {m : PostingMatcher R} {scorer : BM25 R} (hscorer : m.scorer = some scorer)
    (hexhausted : m.exhausted = false) :
    m.score = scorer.score (ScoreNumber.ofCount m.frequency) := by
  rw [score, frequency, hscorer, hexhausted]
  rfl

end PostingMatcher

namespace SpanMatcher

omit [ScoreNumber R] in
theorem scorer_of_skipTo {m m' : SpanMatcher R} {target : Nat} {found : Bool}
    (h : m.skipTo target = .ok (found, m')) : m'.scorer = m.scorer := by
  rw [skipTo] at h
  split at h
  · cases h
    rfl
  · obtain ⟨move, -, h⟩ := except_bind_eq_ok.1 h
    cases h
    rfl

/-- What is shown is scored by the widths of the spans. -/
theorem score_of_scorer {m : SpanMatcher R} {scorer : BM25 R} (hscorer : m.scorer = some scorer)
    (hexhausted : m.exhausted = false) : m.score = scorer.score m.sloppyFreq := by
  rw [score, sloppyFreq, hscorer, hexhausted]
  rfl

end SpanMatcher

namespace Matcher

omit [ScoreNumber R] in
theorem postings_of_skipTo {m : PostingMatcher R} {m' : Matcher R} {target : Nat} {found : Bool}
    (h : (postings m).skipTo target = .ok (found, m')) :
    ∃ m₁, m' = postings m₁ ∧ m₁.scorer = m.scorer := by
  cases h
  exact ⟨_, rfl, m.scorer_skipTo target⟩

omit [ScoreNumber R] in
theorem spans_of_skipTo {m : SpanMatcher R} {m' : Matcher R} {target : Nat} {found : Bool}
    (h : (spans m).skipTo target = .ok (found, m')) :
    ∃ m₁, m' = spans m₁ ∧ m₁.scorer = m.scorer := by
  have h : wrapped spans (m.skipTo target) = .ok (found, m') := h
  rw [wrapped] at h
  obtain ⟨move, hmove, h⟩ := except_map_eq_ok.1 h
  cases h
  exact ⟨_, rfl, SpanMatcher.scorer_of_skipTo hmove⟩

end Matcher

/-! ### Explanations of leaves -/

/-- An explanation tells whether a trail visits a document, and the score there if it is
needed. -/
structure Explanation.Tells (e : Explanation R) (scored : Bool) (d : Nat)
    (t : Option (Trail (Merit R))) : Prop where
  /-- The document matches if the trail visits it. -/
  isMatch : e.isMatch = true ↔ d ∈ docsOf t
  /-- The value of a match is its score. -/
  value : scored = true → e.isMatch = true → t.bind (scoreAt? d) = some e.value

theorem Explanation.tells_noMatch {scored : Bool} {d : Nat} {t : Option (Trail (Merit R))}
    (h : d ∉ docsOf t) (description : String) (details : List (Explanation R)) :
    (Explanation.noMatch description details).Tells scored d t :=
  ⟨⟨fun hmatch => by simp at hmatch, fun hmem => (h hmem).elim⟩, fun _ hmatch => by simp at hmatch⟩

namespace Weight

/-- A matcher that shows scores as its scorer does is explained by them. -/
theorem tells_explainMatch [ExactSum R] {m : Matcher R} {t : Trail (Merit R)} (hm : m.Walks t)
    {scored : Bool} {scorer : Option (BM25 R)} (hscorer : scored = true → scorer.isSome)
    {freq : Matcher R → R} {d : Nat} (hd : d < endOfDocs)
    (hscore : ∀ found m', m.skipTo d = .ok (found, m') → m'.exhausted = false →
      ∀ s, scorer = some s → m'.score = s.score (freq m')) (q : Query) (label missing : String) :
    ∃ e, explainMatch q scorer label missing freq d (some m) = .ok e ∧
      e.Tells scored d (some t) := by
  obtain ⟨m', hskip, hwalks⟩ := hm.skipTo d
  have hdocs : d ∈ docsOf (some t) ↔ (t.since d).firstDoc = d := by
    rw [docsOf, Option.elim_some, ← hwalks.sound.mem_docs_iff_firstDoc hd
      (hm.sound.le_firstDoc_since (Nat.le_of_lt hd)), hm.sound.mem_docs_since]
    exact (and_iff_left (Nat.le_refl d)).symm
  simp only [explainMatch, hskip, bind, Except.bind, hwalks.doc]
  cases hsince : t.since d with
  | nil =>
    rw [hsince, firstDoc_nil] at hdocs
    refine ⟨_, rfl, Explanation.tells_noMatch (fun hmem => ?_) _ _⟩
    have := hdocs.1 hmem
    omega
  | cons v rest =>
    rw [hsince, firstDoc_cons] at hdocs
    rw [hsince] at hwalks hskip
    by_cases hv : v.doc = d
    · have htrue : (!(v :: rest).isEmpty && (firstDoc (v :: rest)) == d) = true := by
        simp [hv]
      rw [if_pos htrue]
      refine ⟨_, rfl, ⟨⟨fun _ => hdocs.2 hv, fun _ => rfl⟩, fun hscored _ => ?_⟩⟩
      obtain ⟨s, hs⟩ := Option.isSome_iff_exists.1 (hscorer hscored)
      have hshown : t.scoreAt? d = some v.shown.score := by
        rw [scoreAt?, ← at?_since (Nat.le_refl d) t, hsince, at?_cons, if_pos hv]
        rfl
      have hvalue : s.boost * s.idf * s.saturated (freq m') s.averageLength = v.shown.score := by
        rw [← hwalks.score, hscore _ _ hskip hwalks.exhausted s hs, BM25.score]
        split
        · next hzero => exact ExactSum.mul_isZero _ _ _ hzero
        · rfl
      rw [Option.bind_some, hshown, hs, Option.getD_some]
      exact congrArg some hvalue.symm
    · have hfalse : (!(v :: rest).isEmpty && (firstDoc (v :: rest)) == d) = false := by
        simp [hv]
      rw [if_neg (Bool.not_eq_true _ ▸ hfalse)]
      exact ⟨_, rfl, Explanation.tells_noMatch (fun hmem => hv (hdocs.1 hmem)) _ _⟩

omit [ScoreNumber R] in
theorem openTerm_eq_some {t : Term} {l : TermLookup} {scorer : Option (BM25 R)}
    {least : Option Threshold} {g : Segment} {m : Matcher R}
    (h : openTerm t l scorer least g = .ok (some m)) : ∃ p, m = .postings p ∧ p.scorer = scorer := by
  rw [openTerm] at h
  obtain ⟨entry, -, h⟩ := except_bind_eq_ok.1 h
  cases entry with
  | none => cases h
  | some entry =>
    obtain ⟨c, -, h⟩ := except_bind_eq_ok.1 h
    cases h
    exact ⟨_, rfl, rfl⟩

omit [ScoreNumber R] in
theorem openSpans_eq_some {w : SpanWeight} {scorer : Option (BM25 R)} {g : Segment}
    {m : Matcher R} (h : openSpans w scorer g = .ok (some m)) :
    ∃ p, m = .spans p ∧ p.scorer = scorer := by
  rw [openSpans] at h
  obtain ⟨c, -, h⟩ := except_bind_eq_ok.1 h
  cases c with
  | none => cases h
  | some c =>
    obtain ⟨m', hm', h⟩ := except_map_eq_ok.1 h
    cases h
    rw [Matcher.ofSpans, SpanMatcher.ofCursor] at hm'
    obtain ⟨p, hp, rfl⟩ := except_map_eq_ok.1 hm'
    obtain ⟨move, -, hp⟩ := except_bind_eq_ok.1 hp
    cases hp
    exact ⟨_, rfl, rfl⟩

end Weight

namespace Weighing

variable {s : Snapshot} {g : Segment} {scored : Bool} {boost : R}

theorem isSome_termScorer (s : Snapshot) (t : Term) (l : TermLookup) (boost : R) :
    (termScorer s t l true boost).isSome := by
  rw [termScorer, if_pos rfl]
  split <;> rfl

theorem isSome_spanScorer (s : Snapshot) (w : SpanWeight) (boost : R) :
    (spanScorer s w true boost).isSome := by
  rw [spanScorer, if_pos rfl]
  split <;> rfl

/-- Where a weight can be opened in a segment it explains what its query comes to. -/
def Explains (s : Snapshot) (g : Segment) (scored : Bool) (boost : R) (q : Query)
    (w : Weight R) : Prop :=
  ∀ opened, w.matcher g = .ok opened → ∀ d < endOfDocs,
    ∃ e, w.explain g d = .ok e ∧ e.Tells scored d (q.trail? s g scored boost)

variable [ExactSum R]

theorem explains_term {q : Query} {t : Term} {l : TermLookup} {least : Option Threshold}
    (hopens : Opens s g scored boost q (.term q t l (termScorer s t l scored boost) least)) :
    Explains s g scored boost q (.term q t l (termScorer s t l scored boost) least) := by
  intro opened hopened d hd
  have hrel := hopens opened hopened
  rw [Weight.matcher] at hopened
  simp only [Weight.explain, hopened, bind, Except.bind]
  generalize q.trail? s g scored boost = trail at hrel
  cases hrel with
  | none => exact ⟨_, rfl, Explanation.tells_noMatch List.not_mem_nil _ _⟩
  | @some m u hm =>
    obtain ⟨p, rfl, hp⟩ := Weight.openTerm_eq_some hopened
    refine Weight.tells_explainMatch hm ?_ hd (fun found m' hskip hexhausted scorer hs => ?_) ..
    · rintro rfl
      exact isSome_termScorer s t l boost
    · obtain ⟨p', rfl, hp'⟩ := Matcher.postings_of_skipTo hskip
      exact p'.score_of_scorer (hp'.trans (hp.trans hs)) hexhausted

theorem explains_spans {q : Query} {w : SpanWeight}
    (hopens : Opens s g scored boost q (.spans q w (spanScorer s w scored boost))) :
    Explains s g scored boost q (.spans q w (spanScorer s w scored boost)) := by
  intro opened hopened d hd
  have hrel := hopens opened hopened
  rw [Weight.matcher] at hopened
  simp only [Weight.explain, hopened, bind, Except.bind]
  generalize q.trail? s g scored boost = trail at hrel
  cases hrel with
  | none => exact ⟨_, rfl, Explanation.tells_noMatch List.not_mem_nil _ _⟩
  | @some m u hm =>
    obtain ⟨p, rfl, hp⟩ := Weight.openSpans_eq_some hopened
    refine Weight.tells_explainMatch hm ?_ hd (fun found m' hskip hexhausted scorer hs => ?_) ..
    · rintro rfl
      exact isSome_spanScorer s w boost
    · obtain ⟨p', rfl, hp'⟩ := Matcher.spans_of_skipTo hskip
      exact p'.score_of_scorer (hp'.trans (hp.trans hs)) hexhausted

end Weighing

/-! ### Explanations of combinations -/

/-- Some clause has matched. -/
def ClauseTally.Counts (t : ClauseTally R) : Prop := t.isRequired = true ∨ t.details ≠ []

/-- An explanation comes to what the clauses that are left add to a tally. -/
def Explanation.Sums (e : Explanation R) (scored : Bool) (d : Nat) (t : ClauseTally R) :
    Option (TrailParts R) → Prop
  | none => e.isMatch = false
  | some p => (e.isMatch = true ↔ p.Allows d ∧ (t.Counts ∨ p.Backs d)) ∧
      (scored = true → e.isMatch = true → e.value = t.sum + p.scoreAt d)

namespace Explanation.Sums

variable {e e' : Explanation R} {scored : Bool} {d : Nat} {t : ClauseTally R}
  {p : Option (TrailParts R)} {o : Occur} {u : Trail (Merit R)}

/-- A clause that hides the document settles the matter. -/
theorem hidden (he : e.isMatch = false) (ho : o.allows (decide (d ∈ u.docs)) = false) :
    e.Sums scored d t (p.map (·.add o u)) := by
  cases p with
  | none => exact he
  | some p =>
    refine ⟨⟨fun hmatch => ?_, fun ⟨hallows, _⟩ => ?_⟩, fun _ hmatch => ?_⟩
    · rw [he] at hmatch
      cases hmatch
    · rw [(TrailParts.allows_add.1 hallows).1] at ho
      cases ho
    · rw [he] at hmatch
      cases hmatch

/-- A clause that need not match and does not adds nothing. -/
theorem passed (ho : o ≠ .must) (hd : d ∉ u.docs) (h : e.Sums scored d t p) :
    e.Sums scored d t (p.map (·.add o u)) := by
  cases p with
  | none => exact h
  | some p =>
    have hallows : (p.add o u).Allows d ↔ p.Allows d := by
      rw [TrailParts.allows_add, decide_eq_false hd]
      cases o <;> simp [Occur.allows] at ho ⊢
    have hbacks : (p.add o u).Backs d ↔ p.Backs d := by
      rw [TrailParts.backs_add, decide_eq_false hd]
      cases o <;> simp [Occur.backs] at ho ⊢
    refine ⟨by rw [hallows, hbacks]; exact h.1, fun hscored hmatch => ?_⟩
    rw [TrailParts.scoreAt_add_of_not_mem (.inr hd)]
    exact h.2 hscored hmatch

variable [ExactSum R]

/-- A clause that matches adds its value. -/
theorem tallied (ho : o ≠ .mustNot) (hd : d ∈ u.docs)
    (hvalue : scored = true → u.scoreAt? d = some e'.value) {t' : ClauseTally R}
    (h : e.Sums scored d (Weight.tallied t' e') p) (ht' : t'.sum = t.sum) :
    e.Sums scored d t (p.map (·.add o u)) := by
  cases p with
  | none => exact h
  | some p =>
    have hallows : (p.add o u).Allows d ↔ p.Allows d := by
      rw [TrailParts.allows_add, decide_eq_true hd]
      cases o <;> simp [Occur.allows] at ho ⊢
    have hbacks : (p.add o u).Backs d := by
      rw [TrailParts.backs_add, decide_eq_true hd]
      cases o <;> simp [Occur.backs] at ho ⊢
    have hcounts : (Weight.tallied t' e').Counts := .inr (by simp [Weight.tallied])
    refine ⟨?_, fun hscored hmatch => ?_⟩
    · rw [h.1, hallows, and_iff_left (.inl hcounts), and_iff_left (.inr hbacks)]
    · rw [h.2 hscored hmatch, TrailParts.scoreAt_add ho (hvalue hscored), ← ExactSum.add_assoc,
        ← ht']
      rfl

/-- Without any more clauses the tally is the value. -/
theorem summedUp (scored : Bool) (d : Nat) (t : ClauseTally R) :
    (Weight.summedUp t).Sums scored d t (some .empty) := by
  have hallows : (TrailParts.empty : TrailParts R).Allows d := by
    simp [TrailParts.Allows, TrailParts.empty]
  have hbacks : ¬ (TrailParts.empty : TrailParts R).Backs d := by
    simp [TrailParts.Backs, TrailParts.empty]
  have hscore : (TrailParts.empty : TrailParts R).scoreAt d = ScoreNumber.zero := by
    have hempty : (ScoreNumber.emptySum : R) + ScoreNumber.emptySum = ScoreNumber.emptySum :=
      ExactScore.emptySum_add _
    exact hempty.trans ScoreNumber.emptySum_eq_zero
  have hcounts : (!t.isRequired && t.details.isEmpty) = true ↔ ¬ t.Counts := by
    simp [ClauseTally.Counts]
  rw [Weight.summedUp]
  by_cases hnone : (!t.isRequired && t.details.isEmpty) = true
  · rw [if_pos hnone]
    refine ⟨⟨fun hmatch => by simp at hmatch, fun hboth => ?_⟩, fun _ hmatch => by simp at hmatch⟩
    exact (hcounts.1 hnone (hboth.2.resolve_right hbacks)).elim
  · rw [if_neg hnone]
    have hcounted : t.Counts := not_not.1 fun hnot => hnone (hcounts.2 hnot)
    refine ⟨⟨fun _ => ⟨hallows, .inl hcounted⟩, fun _ => rfl⟩, fun _ _ => ?_⟩
    rw [hscore, ExactScore.add_zero]
    rfl

end Explanation.Sums

namespace Weighing

variable {s : Snapshot} {g : Segment} {scored : Bool} {boost : R}

/-- Where weights can be opened in a segment they explain what their clauses come to. -/
def ExplainsParts (s : Snapshot) (g : Segment) (scored : Bool) (boost : R)
    (clauses : List (Occur × Query)) (ws : List (Occur × Weight R)) : Prop :=
  ∀ opened, Weight.parts g ws = .ok opened → ∀ d < endOfDocs, ∀ t : ClauseTally R,
    ∃ e, Weight.explainClauses g d t ws = .ok e ∧
      e.Sums scored d t (Query.trailParts? s g scored boost clauses)

variable [ExactSum R]

theorem explainsParts_cons {o : Occur} {q : Query} {w : Weight R}
    (hopens : Opens s g (if o = .mustNot then false else scored) boost q w)
    (hexplains : Explains s g (if o = .mustNot then false else scored) boost q w)
    {rest : List (Occur × Query)} {ws : List (Occur × Weight R)}
    (hrest : ExplainsParts s g scored boost rest ws) :
    ExplainsParts s g scored boost ((o, q) :: rest) ((o, w) :: ws) := by
  intro opened hopened d hd t
  rw [Weight.parts] at hopened
  obtain ⟨first, hfirst, hopened⟩ := except_bind_eq_ok.1 hopened
  obtain ⟨e, he, htells⟩ := hexplains first hfirst d hd
  have hrel := hopens first hfirst
  simp only [Weight.explainClauses, he, bind, Except.bind, Query.trailParts?]
  generalize q.trail? s g (if o = .mustNot then false else scored) boost = trail at hrel htells
  cases hrel with
  | none =>
    have hmiss : e.isMatch = false :=
      Bool.eq_false_iff.2 fun hmatch => List.not_mem_nil (htells.isMatch.1 hmatch)
    cases o with
    | must => exact ⟨_, by rw [hmiss]; exact rfl, Explanation.isMatch_noMatch _ _⟩
    | should =>
      obtain ⟨e', he', hsums⟩ := hrest _ hopened d hd t
      exact ⟨e', by rw [hmiss]; exact he', hsums⟩
    | mustNot =>
      obtain ⟨e', he', hsums⟩ := hrest _ hopened d hd t
      exact ⟨e', by rw [hmiss]; exact he', hsums⟩
  | @some m u hm =>
    obtain ⟨parts, hparts, -⟩ := except_bind_eq_ok.1 hopened
    have hrest := hrest parts hparts d hd
    have hmatch : e.isMatch = true ↔ d ∈ u.docs := htells.isMatch
    by_cases hdocs : d ∈ u.docs
    · rw [hmatch.2 hdocs]
      cases o with
      | must =>
        obtain ⟨e', he', hsums⟩ := hrest (Weight.tallied { t with isRequired := true } e)
        exact ⟨e', he', hsums.tallied (by decide) hdocs
          (fun hscored => htells.value hscored (hmatch.2 hdocs)) rfl⟩
      | should =>
        obtain ⟨e', he', hsums⟩ := hrest (Weight.tallied t e)
        exact ⟨e', he', hsums.tallied (by decide) hdocs
          (fun hscored => htells.value hscored (hmatch.2 hdocs)) rfl⟩
      | mustNot => exact ⟨_, rfl, .hidden rfl (by simp [hdocs, Occur.allows])⟩
    · have hmiss : e.isMatch = false := Bool.eq_false_iff.2 fun h => hdocs (hmatch.1 h)
      rw [hmiss]
      cases o with
      | must => exact ⟨_, rfl, .hidden rfl (by simp [hdocs, Occur.allows])⟩
      | should =>
        obtain ⟨e', he', hsums⟩ := hrest t
        exact ⟨e', he', hsums.passed (by decide) hdocs⟩
      | mustNot =>
        obtain ⟨e', he', hsums⟩ := hrest t
        exact ⟨e', he', hsums.passed (by decide) hdocs⟩

/-- Bound clauses explain what they come to if each of them does. -/
theorem explainsParts_of_forall₂ {clauses : List (Occur × Query)} {ws : List (Occur × Weight R)}
    (h : List.Forall₂ (fun c w => c.1 = w.1 ∧
      Opens s g (if c.1 = .mustNot then false else scored) boost c.2 w.2 ∧
        Explains s g (if c.1 = .mustNot then false else scored) boost c.2 w.2) clauses ws) :
    ExplainsParts s g scored boost clauses ws := by
  induction h with
  | nil => exact fun _ _ d _ t => ⟨_, rfl, .summedUp scored d t⟩
  | @cons c w _ _ hfirst _ ih =>
    obtain ⟨o, q⟩ := c
    obtain ⟨o', w⟩ := w
    obtain ⟨rfl, hopens, hexplains⟩ := hfirst
    exact explainsParts_cons hopens hexplains ih

theorem explains_boolean {clauses : List (Occur × Query)} {ws : List (Occur × Weight R)}
    (hopens : OpensParts s g scored boost clauses ws)
    (hexplains : ExplainsParts s g scored boost clauses ws) (q : Query) :
    Explains s g scored boost (.boolean clauses) (.boolean q ws scored) := by
  intro opened hopened d hd
  rw [Weight.matcher] at hopened
  obtain ⟨parts, hparts, -⟩ := except_bind_eq_ok.1 hopened
  obtain ⟨e, he, hsums⟩ := hexplains parts hparts d hd ⟨ScoreNumber.zero, [], false⟩
  refine ⟨e, by rw [Weight.explain]; exact he, ?_⟩
  have hrel := hopens parts hparts
  rw [Query.trail?]
  generalize Query.trailParts? s g scored boost clauses = tp at hrel hsums
  cases hrel with
  | none =>
    have hmiss : e.isMatch = false := hsums
    exact ⟨⟨fun h => by simp [hmiss] at h, fun h => (List.not_mem_nil h).elim⟩,
      fun _ h => by simp [hmiss] at h⟩
  | @some mp p hwalks =>
    obtain ⟨hmatch, hvalue⟩ := hsums
    have hnone : ¬ ClauseTally.Counts (⟨ScoreNumber.zero, [], false⟩ : ClauseTally R) := by
      simp [ClauseTally.Counts]
    have hadmits : d ∈ docsOf (p.combine scored) ↔ TrailParts.Allows d p ∧ TrailParts.Backs d p :=
      TrailParts.mem_docsOf_combine
    rw [or_iff_right hnone, ← hadmits] at hmatch
    refine ⟨hmatch, ?_⟩
    rintro rfl hmatched
    have hdocs := hmatch.1 hmatched
    obtain ⟨hallows, hbacks⟩ := TrailParts.mem_docsOf_combine.1 hdocs
    cases hcombine : p.combine true with
    | none =>
      rw [hcombine] at hdocs
      cases hdocs
    | some u =>
      have hsound : ∀ t ∈ p.optional, t.Sound := by
        intro t ht
        obtain ⟨m, -, hm⟩ := exists_mem_of_forall₂ hwalks.optional ht
        exact hm.sound
      have hscore := TrailParts.scoreAt?_combine hsound hallows hbacks hcombine
      rw [Option.bind_some, hcombine, Option.bind_some, hscore, hvalue rfl hmatched,
        ExactSum.add_comm, ExactScore.add_zero]

theorem closed_explains (hs : s.Numbered) (hsound : ∀ g ∈ s.segments, g.Sound) :
    Closed s fun scored boost q (w : Weight R) => ∀ g ∈ s.segments,
      Opens s g scored boost q w ∧ Explains s g scored boost q w where
  term hsought hserves g hg :=
    have hopens := (closed_opens hs hsound).term hsought hserves g hg
    ⟨hopens, explains_term hopens⟩
  spans hspan hw g hg :=
    have hopens := (closed_opens hs hsound).spans hspan hw g hg
    ⟨hopens, explains_spans hopens⟩
  boost hw := hw
  boolean hall g hg := by
    have hopens := opensParts_of_forall₂ (hall.imp fun _ _ h => ⟨h.1, (h.2 g hg).1⟩)
    have hexplains := explainsParts_of_forall₂ (hall.imp fun _ _ h => ⟨h.1, h.2 g hg⟩)
    exact ⟨opens_boolean hopens _, explains_boolean hopens hexplains _⟩
  nothing g hg := by
    refine ⟨(closed_opens hs hsound).nothing g hg, fun _ _ d _ => ?_⟩
    exact ⟨_, rfl, Explanation.tells_noMatch List.not_mem_nil _ _⟩

end Weighing

/-! ### Explanations of documents -/

namespace Searcher

open Weighing

variable {s : Searcher} {declared : Dictionary IndexOptions} {parts : List (List Document)}

/-- What a prepared query explains in a segment where it can be opened. -/
theorem explains_of_yields_prepare [ExactSum R] (hs : s.snapshot.Numbered)
    (hsound : ∀ g ∈ s.snapshot.segments, g.Sound) {scored : Bool} {q r : Query}
    {c c' : LookupCache} {w : Weight R} (hq : q.Honest s.snapshot) (hc : c.Sound s.snapshot)
    (hr : s.grounded q = .ok r) (h : Yields (s.prepare scored q) c w c') :
    ∀ g ∈ s.snapshot.segments, Explains s.snapshot g scored ScoreNumber.one r w := by
  obtain ⟨r', hr', hw⟩ := yields_prepare_iff.1 h
  cases hr.symm.trans hr'
  have hclosed := closed_explains (R := R) hs hsound
  have hhonest := (grounds_of_grounded hr).honest hq
  exact fun g hg => ((weight_induction hclosed hs hsound r hhonest hc hw).1 g hg).2

/-- A search that lists all hits lists the visits of the grounded query's trails, with what they
score. -/
theorem mem_hits_iff_visit (hs : s.snapshot.Numbered)
    (hsound : ∀ g ∈ s.snapshot.segments, g.Sound) {size : Nat} {q r : Query}
    (hq : q.Honest s.snapshot) (hr : s.grounded q = .ok r) {c c' : LookupCache} {top : TopDocs R}
    (hc : c.Sound s.snapshot) (h : Yields (s.search size q) c top c')
    (hsize : top.totalHits ≤ size) {hit : Hit R} :
    hit ∈ top.hits ↔ ∃ g ∈ s.snapshot.segments,
      ∃ t, r.trail? s.snapshot g true (ScoreNumber.one : R) = some t ∧
        ∃ v ∈ t, (⟨g.docBase + v.doc, v.shown.score⟩ : Hit R) = hit := by
  obtain ⟨r', hr', hrest⟩ := topDocs_of_yields_search hs hsound hc h
  rw [hr, Except.ok.injEq] at hr'
  subst hr'
  obtain ⟨rfl, -⟩ := hrest ((grounds_of_grounded hr).honest hq)
  have hseen := TopHits.seen_ofParts size
    (s.snapshot.segments.map (r.segmentHits (R := R) s.snapshot))
  have hkept := TopHits.kept_ofParts_perm (Nat.le_trans (Nat.le_of_eq hseen.symm) hsize)
  have hvisits : ∀ g, hit ∈ r.segmentHits s.snapshot g ↔
      ∃ t, r.trail? s.snapshot g true (ScoreNumber.one : R) = some t ∧
        ∃ v ∈ t, (⟨g.docBase + v.doc, v.shown.score⟩ : Hit R) = hit := by
    intro g
    rw [Query.segmentHits]
    cases r.trail? s.snapshot g true (ScoreNumber.one : R) <;> simp
  refine hkept.mem_iff.trans ?_
  simp only [List.mem_flatten, List.mem_map, exists_exists_and_eq_and, hvisits]

/-- A grounded query visits documents of the segment only. -/
theorem lt_maxDoc_of_mem_docs (h : s.snapshot.Holds declared parts)
    (hcount : parts.flatten.length ≤ endOfDocs) (honce : ∀ doc ∈ parts.flatten, doc.NamesOnce)
    {r : Query} (hdefers : r.defersNothing = true) (hr : s.Grounds r r) {g : Segment}
    (hg : g ∈ s.snapshot.segments) {scored : Bool} {b : R} {d : Nat}
    (hd : d ∈ docsOf (r.trail? s.snapshot g scored b)) : d < g.maxDoc := by
  obtain ⟨docs, hdocs, hholds⟩ := h.exists_part g hg
  rw [docsOf_trail? h hcount honce hdefers hr hg hdocs hholds] at hd
  rw [hholds.maxDoc]
  obtain ⟨doc, hdoc, -⟩ := mem_idsWhere.1 hd
  exact (List.getElem?_eq_some_iff.1 hdoc).1

/-- A hit under the number of a document in a segment is a visit to the document. -/
theorem exists_visit_of_doc_eq (h : s.snapshot.Holds declared parts)
    (hcount : parts.flatten.length ≤ endOfDocs) (honce : ∀ doc ∈ parts.flatten, doc.NamesOnce)
    {size : Nat} {q r : Query} (hq : q.Honest s.snapshot) (hr : s.grounded q = .ok r)
    {c c' : LookupCache} {top : TopDocs R} (hc : c.Sound s.snapshot)
    (hsearch : Yields (s.search size q) c top c') (hsize : top.totalHits ≤ size) {g : Segment}
    (hg : g ∈ s.snapshot.segments) {i : Nat} (hi : i < g.maxDoc) {hit : Hit R}
    (hhit : hit ∈ top.hits) (hdoc : hit.doc = g.docBase + i) :
    ∃ t, r.trail? s.snapshot g true (ScoreNumber.one : R) = some t ∧
      ∃ v ∈ t, v.doc = i ∧ v.shown.score = hit.score := by
  obtain ⟨g', hg', t, ht, v, hv, rfl⟩ :=
    (mem_hits_iff_visit h.numbered (h.sound hcount) hq hr hc hsearch hsize).1 hhit
  have hself : s.Grounds r r := grounds_self (bound_of_grounded hr)
  have hdefers := Query.defersNothing_of_bound (bound_of_grounded hr)
  have hmem : v.doc ∈ docsOf (r.trail? s.snapshot g' true (ScoreNumber.one : R)) := by
    rw [ht]
    exact mem_docs.2 ⟨v, hv, rfl⟩
  have hlt := lt_maxDoc_of_mem_docs h hcount honce hdefers hself hg' hmem
  have hlocated := h.locate?_eq hg' hlt
  rw [show g'.docBase + v.doc = g.docBase + i from hdoc, h.locate?_eq hg hi] at hlocated
  obtain ⟨rfl, rfl⟩ := Prod.mk.inj (Option.some.inj hlocated)
  exact ⟨t, ht, v, hv, rfl, rfl⟩

/-- A search that succeeds has prepared the query, and has opened it in every segment. -/
theorem exists_opened_of_yields_search {size : Nat} {q : Query} {c c' : LookupCache}
    {top : TopDocs R} (h : Yields (s.search size q) c top c') :
    ∃ (w : Weight R) (c₁ : LookupCache), Yields (s.prepare true q) c w c₁ ∧
      ∀ g ∈ s.snapshot.segments, ∃ opened, w.matcher g = .ok opened := by
  rw [search] at h
  obtain ⟨w, c₁, hw, h⟩ := yields_bind.1 h
  obtain ⟨found, c₂, hfound, -⟩ := yields_bind.1 h
  refine ⟨w, c₁, hw, fun g hg => ?_⟩
  obtain ⟨hits, -, hhits⟩ := exists_mem_of_forall₂ (yields_mapM_lift hfound).1.flip hg
  obtain ⟨opened, hopened, -⟩ := except_bind_eq_ok.1 hhits
  exact ⟨opened, hopened⟩

/-- Where a search succeeds, every document of a segment can be explained as its trails say. -/
theorem exists_explanation [ExactSum R] (hs : s.snapshot.Numbered)
    (hsound : ∀ g ∈ s.snapshot.segments, g.Sound) {size : Nat} {q r : Query}
    (hq : q.Honest s.snapshot) (hr : s.grounded q = .ok r) {c c' c₁ : LookupCache}
    (hc : c.Sound s.snapshot) (hc' : c'.Sound s.snapshot) {top : TopDocs R}
    (hsearch : Yields (s.search size q) c top c₁) {g : Segment} (hg : g ∈ s.snapshot.segments)
    {i : Nat} (hi : i < endOfDocs) {doc : Nat} (hlocate : s.snapshot.locate? doc = some (g, i)) :
    ∃ (e : Explanation R) (c₂ : LookupCache), Yields (s.explain doc q) c' e c₂ ∧
      e.Tells true i (r.trail? s.snapshot g true (ScoreNumber.one : R)) := by
  obtain ⟨w, c₂, hw, hopened⟩ := exists_opened_of_yields_search hsearch
  -- preparing and opening fail in the same way whatever was looked up before
  have hnot : ∀ e, ¬ Fails (s.prepare (R := R) true q) c' e := fun e hfails =>
    not_fails_of_yields hw (fails_prepare_iff.2 (fails_prepare_iff.1 hfails))
  obtain ⟨w', c₃, hw'⟩ := exists_yields_of_not_fails hnot
  obtain ⟨opened, hmatcher⟩ : ∃ opened, w'.matcher g = .ok opened := by
    have hsame := (opening_of_yields_prepare hs hsound hq hc hr hw g hg).2
    rw [← (opening_of_yields_prepare hs hsound hq hc' hr hw' g hg).2] at hsame
    obtain ⟨opened, hok⟩ := hopened g hg
    rw [hok] at hsame
    cases hmatcher : w'.matcher g with
    | error =>
      rw [hmatcher] at hsame
      cases hsame
    | ok opened => exact ⟨opened, rfl⟩
  obtain ⟨e, he, htells⟩ := explains_of_yields_prepare hs hsound hq hc' hr hw' g hg opened hmatcher
    i hi
  refine ⟨e, c₃, ?_, htells⟩
  rw [explain, hlocate]
  exact yields_bind.2 ⟨w', c₃, hw', yields_lift.2 ⟨he, rfl⟩⟩

/-- Where a search lists all hits, every document can be explained. It is a match if it is a hit,
and its value is then the score of the hit. -/
theorem explanation_agrees_of_holds [ExactSum R] (h : s.snapshot.Holds declared parts)
    (hcount : parts.flatten.length ≤ endOfDocs) (honce : ∀ doc ∈ parts.flatten, doc.NamesOnce)
    {size : Nat} {q : Query} (hq : q.Honest s.snapshot) {c c' c₁ : LookupCache}
    (hc : c.Sound s.snapshot) (hc' : c'.Sound s.snapshot) {top : TopDocs R}
    (hsearch : Yields (s.search size q) c top c₁) (hsize : top.totalHits ≤ size) {doc : Nat}
    (hdoc : doc < s.snapshot.maxDoc) :
    ∃ (e : Explanation R) (c₂ : LookupCache), Yields (s.explain doc q) c' e c₂ ∧
      (e.isMatch = true ↔ doc ∈ top.hits.map (·.doc)) ∧
        ∀ hit ∈ top.hits, hit.doc = doc → e.value = hit.score := by
  have hs := h.numbered
  have hsound := h.sound hcount
  obtain ⟨r, hr, -⟩ := topDocs_of_yields_search hs hsound hc hsearch
  obtain ⟨g, hg, i, hi, rfl, hlocate⟩ := h.exists_locate? hdoc
  have hi' : i < endOfDocs := by
    obtain ⟨docs, hdocs, hholds⟩ := h.exists_part g hg
    have := Snapshot.Holds.length_le_of_mem hdocs
    have := hholds.maxDoc
    omega
  obtain ⟨e, c₂, he, htells⟩ := exists_explanation hs hsound hq hr hc hc' hsearch hg hi' hlocate
  refine ⟨e, c₂, he, htells.isMatch.trans ⟨fun hmem => ?_, fun hmem => ?_⟩, fun hit hhit hdoc => ?_⟩
  · cases ht : r.trail? s.snapshot g true (ScoreNumber.one : R) with
    | none =>
      rw [ht] at hmem
      cases hmem
    | some t =>
      rw [ht] at hmem
      obtain ⟨v, hv, rfl⟩ := mem_docs.1 hmem
      exact List.mem_map.2 ⟨_, (mem_hits_iff_visit hs hsound hq hr hc hsearch hsize).2
        ⟨g, hg, t, ht, v, hv, rfl⟩, rfl⟩
  · obtain ⟨hit, hhit, hdoc⟩ := List.mem_map.1 hmem
    obtain ⟨t, ht, v, hv, rfl, -⟩ :=
      exists_visit_of_doc_eq h hcount honce hq hr hc hsearch hsize hg hi hhit hdoc
    rw [ht]
    exact mem_docs.2 ⟨v, hv, rfl⟩
  · obtain ⟨t, ht, v, hv, rfl, hscore⟩ :=
      exists_visit_of_doc_eq h hcount honce hq hr hc hsearch hsize hg hi hhit hdoc
    have hmatch : e.isMatch = true := by
      rw [htells.isMatch, ht]
      exact mem_docs.2 ⟨v, hv, rfl⟩
    have hnames : g.NamesOnce := by
      obtain ⟨docs, hdocs, hholds⟩ := h.exists_part g hg
      exact hholds.pairwise_postingsOf fun doc hmem =>
        honce doc (List.mem_flatten.2 ⟨docs, hdocs, hmem⟩)
    have hsimple := Query.simple_trail? (hsound g hg) hnames s.snapshot r ht
    have hvalue := htells.value rfl hmatch
    rw [ht, Option.bind_some, scoreAt?, at?_of_mem hsimple.once hv, Option.map_some,
      Option.some.injEq] at hvalue
    rw [← hvalue, hscore]

/-- Whatever the order in which an index was built, an explanation agrees with a search that lists
all of its hits: it succeeds for every document, matches exactly the hits, and comes to their
scores where scores are exact. The lookups that the two share with other searches may differ. -/
theorem explanation_agrees [ExactSum R] (fields : List (String × IndexOptions))
    (steps : List BuilderStep) (id : Nat) (settings : Settings)
    (hcount : (IndexBuilder.accepted (.ofList fields) steps).length ≤ endOfDocs)
    (honce : ∀ doc ∈ IndexBuilder.accepted (.ofList fields) steps, doc.NamesOnce)
    {q : Query} (hq : q.Honest (.ofSteps fields steps id)) {c c' c₁ : LookupCache}
    (hc : c.Sound (.ofSteps fields steps id)) (hc' : c'.Sound (.ofSteps fields steps id))
    {size : Nat} {top : TopDocs R}
    (hsearch : Yields (search ⟨.ofSteps fields steps id, settings⟩ size q) c top c₁)
    (hsize : top.totalHits ≤ size) (doc : Nat)
    (hdoc : doc < (Snapshot.ofSteps fields steps id).maxDoc) :
    ∃ (e : Explanation R) (c₂ : LookupCache),
      Yields (explain ⟨.ofSteps fields steps id, settings⟩ doc q) c' e c₂ ∧
        (e.isMatch = true ↔ doc ∈ top.hits.map (·.doc)) ∧
          ∀ hit ∈ top.hits, hit.doc = doc → e.value = hit.score := by
  have hholds := IndexBuilder.holds_build fields steps id
  rw [← IndexBuilder.flatten_ofSteps] at hcount honce
  exact explanation_agrees_of_holds (s := ⟨.ofSteps fields steps id, settings⟩) hholds hcount honce
    hq hc hc' hsearch hsize hdoc

/-- The second of three documents, in two segments, has the places of a term, which count for it,
beside the term that it has to have, and lacks the one that it must not have. -/
theorem explanation_agrees_optional :
    let fields : List (String × IndexOptions) := [("body", .positions)]
    let steps : List BuilderStep :=
      [.add [("body", [⟨"slow", 0, none⟩, ⟨"fox", 1, none⟩])],
        .add [("body", [⟨"quick", 0, none⟩, ⟨"fox", 1, none⟩])], .commit,
        .add [("body", [⟨"fox", 0, none⟩])]]
    let q : Query := .boolean [(.must, .term ⟨"body", "fox"⟩), (.should, .spanTerm ⟨"body", "quick"⟩),
      (.mustNot, .term ⟨"body", "slow"⟩)]
    ∃ (top : TopDocs ℚ) (e : Explanation ℚ) (c₁ c₂ : LookupCache),
      Yields (search ⟨.ofSteps fields steps 0, default⟩ 10 q) .empty top c₁ ∧
        Yields (explain ⟨.ofSteps fields steps 0, default⟩ 1 q) .empty e c₂ ∧
          e.isMatch = true ∧ ∃ hit ∈ top.hits, hit.doc = 1 ∧ e.value = hit.score := by
  intro fields steps q
  obtain ⟨top, c₁, hsearch, htotal, hdocs⟩ := exists_yields_search_eq (R := ℚ)
    ⟨.ofSteps fields steps 0, default⟩ 10 q .empty 2 [1, 2] (by decide +kernel)
  obtain ⟨e, c₂, he, hmatch, hvalue⟩ := explanation_agrees fields steps 0 default
    (by decide +kernel) (by decide +kernel) (by rintro l ⟨⟩) (LookupCache.sound_empty _)
    (LookupCache.sound_empty _) hsearch (by omega) 1 (by decide +kernel)
  have hmem : 1 ∈ top.hits.map (·.doc) := by
    rw [hdocs]
    exact List.mem_cons_self ..
  obtain ⟨hit, hhit, hdoc⟩ := List.mem_map.1 hmem
  exact ⟨top, e, c₁, c₂, hsearch, he, hmatch.2 hmem, hit, hhit, hdoc, hvalue hit hhit hdoc⟩

end Searcher

end TextSearch
