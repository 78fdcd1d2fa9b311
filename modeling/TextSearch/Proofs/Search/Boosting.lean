import TextSearch.Proofs.Cursor.Alike
import TextSearch.Proofs.Search.PlainQueries
import TextSearch.Proofs.Search.Splitting
import TextSearch.Proofs.Search.ThresholdOfOne

/-!
# Boosts as factors

A boost has no weight of its own: it is a factor that is handed down to the scorers below it. Where
products are exact this makes no difference, and what a query comes to in a segment under a boost is
what it comes to without it, with the factor on every score. The clauses that must not match have no
scores, so that a boost may be put on each of the other clauses instead of their combination. Main
statement: `Searcher.boost_scales`.
-/

namespace TextSearch

open Trail

variable {R : Type} [ScoreNumber R]

/-! ### Scorers -/

namespace BM25

/-- The same terms with one more factor on their scores. -/
def boostedBy (b : R) (s : BM25 R) : BM25 R := s.withBoost (b * s.boost)

/-- A scorer scores nothing, or it has its boost as a factor. -/
theorem score_boostedBy [ExactProduct R] (b : R) (s : BM25 R) (freq : R) :
    (s.boostedBy b).score freq = b * s.score freq := by
  change (if ScoreNumber.isZero s.idf then ScoreNumber.zero
    else b * s.boost * s.idf * s.saturated freq s.averageLength) = b * s.score freq
  rw [score]
  split
  · rw [ExactProduct.mul_zero]
  · rw [ExactProduct.mul_assoc b, ExactProduct.mul_assoc b]

end BM25

/-- The same hit with a factor on its score. -/
def Hit.scaled (b : R) (hit : Hit R) : Hit R := ⟨hit.doc, b * hit.score⟩

/-! ### Merits -/

namespace Merit

/-- The same matches with a factor on their score. -/
def scaled (b : R) (m : Merit R) : Merit R := ⟨m.frequency, b * m.score⟩

variable [ExactProduct R]

theorem sum_scaled {b : R} {ms ns : List (Merit R)}
    (h : List.Forall₂ (fun m n => n = m.scaled b) ms ns) : sum ns = (sum ms).scaled b := by
  have hmap : ns = ms.map (scaled b) := by
    induction h with
    | nil => rfl
    | cons hmn _ ih => rw [List.map_cons, hmn, ih]
  rw [hmap, sum, sum, scaled, List.map_map, List.map_map, ← ScoreNumber.sum_map_mul, List.map_map]
  rfl

theorem prefer_scaled {b : R} (m : Merit R) {o o' : Option (Merit R)}
    (h : Option.Rel (fun m n => n = m.scaled b) o o') :
    prefer (m.scaled b) o' = (prefer m o).scaled b := by
  rw [prefer, prefer, scaled, scaled]
  cases h with
  | none => rw [Option.elim_none, ExactProduct.mul_add, ExactProduct.mul_zero]
  | some h => rw [h, Option.elim_some, Option.elim_some, ExactProduct.mul_add, scaled]

/-- What a scorer gives under one more factor, and no score without a scorer. -/
theorem elim_boostedBy (b : R) (scorer : Option (BM25 R)) (freq : R) :
    (scorer.map (BM25.boostedBy b)).elim ScoreNumber.zero (fun s => s.score freq) =
      b * scorer.elim ScoreNumber.zero fun s => s.score freq := by
  cases scorer with
  | none => exact (ExactProduct.mul_zero b).symm
  | some s => exact s.score_boostedBy b freq

theorem ofPosting_scaled (b : R) (scorer : Option (BM25 R)) (p : Posting) :
    ofPosting (scorer.map (BM25.boostedBy b)) p = (ofPosting scorer p).scaled b := by
  rw [ofPosting, elim_boostedBy]
  rfl

theorem ofSpans_scaled (b : R) (scorer : Option (BM25 R)) (width : UInt32) (ss : List Span) :
    ofSpans (scorer.map (BM25.boostedBy b)) width ss = (ofSpans scorer width ss).scaled b := by
  rw [ofSpans, elim_boostedBy]
  rfl

end Merit

/-! ### Trails -/

namespace Trail

/-- The same visits with a factor on every score. -/
abbrev ScaledBy (b : R) : Trail (Merit R) → Trail (Merit R) → Prop :=
  Alike fun m n => n = m.scaled b

theorem Alike.without {β γ δ ε : Type} {P : β → γ → Prop} {t : Trail β} {u : Trail γ}
    (h : Alike P t u) {ns : List (Trail δ)} {ms : List (Trail ε)}
    (hns : List.Forall₂ SameDocs ns ms) : Alike P (t.without ns) (u.without ms) := by
  have hall : ∀ d, (ns.all fun n => (n.at? d).isNone) = ms.all fun m => (m.at? d).isNone := by
    intro d
    induction hns with
    | nil => rfl
    | cons hnm _ ih =>
      rw [List.all_cons, List.all_cons, ih, ← Option.not_isSome, ← Option.not_isSome,
        hnm.isSome_at? d]
  induction h with
  | nil => exact .nil
  | @cons v w t u hvw _ ih =>
    rw [Trail.without, Trail.without, List.filter_cons, List.filter_cons, hall, hvw.1]
    split
    · exact .cons hvw ih
    · exact ih

theorem Alike.accompanied {β γ : Type} {P : β → γ → Prop} {t o : Trail β} {u o' : Trail γ}
    (h : Alike P t u) (ho : Alike P o o') {prefer : β → Option β → β}
    {prefer' : γ → Option γ → γ} (hprefer : ∀ b c, P b c → ∀ x y, Option.Rel P x y →
      P (prefer b x) (prefer' c y)) :
    Alike P (MatchPreference.accompanied prefer o t) (MatchPreference.accompanied prefer' o' u) := by
  induction h with
  | nil => exact .nil
  | @cons v w t u hvw _ ih =>
    rw [MatchPreference.accompanied_cons, MatchPreference.accompanied_cons]
    exact .cons ⟨hvw.1, hprefer _ _ hvw.2 _ _ (hvw.1 ▸ ho.at? v.doc)⟩ ih

end Trail

namespace TrailParts

/-- The same parts with a factor on every score. -/
structure ScaledBy (b : R) (p q : TrailParts R) : Prop where
  /-- What has to match. -/
  required : List.Forall₂ (Trail.ScaledBy b) p.required q.required
  /-- What may match. -/
  optional : List.Forall₂ (Trail.ScaledBy b) p.optional q.optional
  /-- What must not match. -/
  prohibited : List.Forall₂ (Trail.ScaledBy b) p.prohibited q.prohibited

variable {b : R} {p q : TrailParts R}

theorem ScaledBy.add (h : ScaledBy b p q) (o : Occur) {t u : Trail (Merit R)}
    (htu : Trail.ScaledBy b t u) : ScaledBy b (p.add o t) (q.add o u) := by
  cases o with
  | must => exact ⟨.cons htu h.required, h.optional, h.prohibited⟩
  | should => exact ⟨h.required, .cons htu h.optional, h.prohibited⟩
  | mustNot => exact ⟨h.required, h.optional, .cons htu h.prohibited⟩

variable [ExactProduct R]

theorem scaledBy_anyOf {ts us : List (Trail (Merit R))}
    (h : List.Forall₂ (Trail.ScaledBy b) ts us) :
    Option.Rel (Trail.ScaledBy b) (anyOf ts) (anyOf us) := by
  match ts, us, h with
  | [], [], .nil => exact .none
  | [_], [_], .cons htu .nil => exact .some htu
  | _ :: _ :: _, _ :: _ :: _, h =>
    exact .some ((alike_union h).showing fun _ _ hall => Merit.sum_scaled hall)

theorem scaledBy_allOf {ts us : List (Trail (Merit R))}
    (h : List.Forall₂ (Trail.ScaledBy b) ts us) :
    Option.Rel (Trail.ScaledBy b) (allOf ts) (allOf us) := by
  match ts, us, h with
  | [], [], .nil => exact .none
  | [_], [_], .cons htu .nil => exact .some htu
  | _ :: _ :: _, _ :: _ :: _, h =>
    exact .some ((alike_meet h).showing fun _ _ hall => Merit.sum_scaled hall)

theorem ScaledBy.positive (h : ScaledBy b p q) (scored : Bool) :
    Option.Rel (Trail.ScaledBy b) (p.positive scored) (q.positive scored) := by
  have hrequired := scaledBy_allOf h.required
  have hoptional := scaledBy_anyOf h.optional
  rw [TrailParts.positive, TrailParts.positive]
  generalize allOf p.required = rt at hrequired
  generalize allOf q.required = ru at hrequired
  generalize anyOf p.optional = ot at hoptional
  generalize anyOf q.optional = ou at hoptional
  cases hrequired with
  | none => exact hoptional
  | some htu =>
    cases hoptional with
    | none => exact .some htu
    | some hou =>
      cases scored with
      | false => exact .some htu
      | true =>
        refine .some (htu.accompanied hou fun m n hmn x y hxy => ?_)
        rw [hmn]
        exact Merit.prefer_scaled m hxy

theorem ScaledBy.combine (h : ScaledBy b p q) (scored : Bool) :
    Option.Rel (Trail.ScaledBy b) (p.combine scored) (q.combine scored) := by
  refine rel_map_map (h.positive scored) fun t u htu => ?_
  have hprohibited := h.prohibited
  generalize p.prohibited = ns at hprohibited
  generalize q.prohibited = ms at hprohibited
  cases hprohibited with
  | nil => exact htu
  | cons hnm hrest => exact htu.without (.cons hnm.sameDocs (hrest.imp fun _ _ h => h.sameDocs))

end TrailParts

/-! ### Queries -/

namespace Query

section Factors

variable (s : Snapshot) (g : Segment) (b : R)

omit [ScoreNumber R] in
theorem scaledBy_showing {β : Type} [ScoreNumber R] (t : Trail β) {f f' : β → Merit R}
    (h : ∀ x, f' x = (f x).scaled b) : Trail.ScaledBy b (t.showing f) (t.showing f') :=
  (Alike.refl (P := (· = ·)) (fun _ => rfl) t).showing fun x _ hxy => hxy ▸ h x

theorem termScorer_boosted (scored : Bool) (boost : R) (t : Term) (l : TermLookup) :
    Weighing.termScorer s t l scored (b * boost) =
      (Weighing.termScorer s t l scored boost).map (BM25.boostedBy b) := by
  rw [Weighing.termScorer, Weighing.termScorer]
  cases scored with
  | false => rfl
  | true =>
    cases s.fieldStatistics? t.field with
    | none => rfl
    | some field => cases l.statistics? <;> rfl

theorem spanScorer_boosted (q : Query) (scored : Bool) (boost : R) :
    q.spanScorer s scored (b * boost) = (q.spanScorer s scored boost).map (BM25.boostedBy b) := by
  rw [spanScorer, spanScorer]
  cases scored with
  | false => rfl
  | true =>
    cases q.spanField?.bind s.fieldStatistics? with
    | none => rfl
    | some field => cases (Term.sorted q.spanTerms).filterMap (TermLookup.totals? s) <;> rfl

theorem scaledBy_termTrail? [ExactProduct R] (scored : Bool) (boost : R) (t : Term)
    (gates : List Threshold) :
    Option.Rel (Trail.ScaledBy b) (termTrail? s g scored boost t gates)
      (termTrail? s g scored (b * boost) t gates) := by
  rw [termTrail?, termTrail?, termScorer_boosted]
  cases g.postings? t with
  | none => exact .none
  | some ps => exact .some (scaledBy_showing b _ (Merit.ofPosting_scaled b _))

theorem scaledBy_spans [ExactProduct R] (q : Query) (scored : Bool) (boost : R) :
    Option.Rel (Trail.ScaledBy b)
      ((q.spanSource? g .positions).map fun source =>
        source.2.showing (Merit.ofSpans (q.spanScorer s scored boost) source.1))
      ((q.spanSource? g .positions).map fun source =>
        source.2.showing (Merit.ofSpans (q.spanScorer s scored (b * boost)) source.1)) := by
  rw [spanScorer_boosted]
  cases q.spanSource? g .positions with
  | none => exact .none
  | some source => exact .some (scaledBy_showing b _ (Merit.ofSpans_scaled b _ _))

mutual

/-- What a query comes to under one more factor are the same visits with the factor on every
score. -/
theorem scaledBy_trail? [ExactProduct R] : ∀ (q : Query) (scored : Bool) (x : R),
    Option.Rel (Trail.ScaledBy b) (q.trail? s g scored x) (q.trail? s g scored (b * x))
  | .term t, scored, x => scaledBy_termTrail? s g b scored x t []
  | .markedTerm t _, scored, x => scaledBy_termTrail? s g b scored x t []
  | .frequentTerm t least _, scored, x => scaledBy_termTrail? s g b scored x t [least]
  | .boost q factor, scored, x => by
    rw [trail?, trail?, ExactProduct.mul_assoc]
    exact scaledBy_trail? q scored _
  | .boolean clauses, scored, x => by
    have hparts := scaledBy_trailParts? clauses scored x
    rw [trail?, trail?]
    generalize trailParts? s g scored x clauses = p at hparts
    generalize trailParts? s g scored (b * x) clauses = p' at hparts
    cases hparts with
    | none => exact .none
    | some h => exact h.combine scored
  | .spanTerm _, scored, x => scaledBy_spans s g b _ scored x
  | .frequentSpanTerm _ _ _, scored, x => scaledBy_spans s g b _ scored x
  | .spanOr _ _, scored, x => scaledBy_spans s g b _ scored x
  | .spanNear _ _ _ _, scored, x => scaledBy_spans s g b _ scored x
  | .withoutPayload _, scored, x => scaledBy_spans s g b _ scored x
  | .frequentSpan _ _, scored, x => scaledBy_spans s g b _ scored x
  | .multiTerm _, _, _ => .none
  | .spanMultiTerm _, _, _ => .none
  | .deferred _ _, scored, x => scaledBy_spans s g b _ scored x
  | .nothing, _, _ => .none

/-- The same for clauses, part by part. -/
theorem scaledBy_trailParts? [ExactProduct R] :
    ∀ (clauses : List (Occur × Query)) (scored : Bool) (x : R),
    Option.Rel (TrailParts.ScaledBy b) (trailParts? s g scored x clauses)
      (trailParts? s g scored (b * x) clauses)
  | [], _, _ => .some ⟨.nil, .nil, .nil⟩
  | (o, q) :: rest, scored, x => by
    have hfirst := scaledBy_trail? q (if o = .mustNot then false else scored) x
    have hrest := scaledBy_trailParts? rest scored x
    rw [trailParts?, trailParts?]
    generalize q.trail? s g (if o = .mustNot then false else scored) x = t at hfirst
    generalize q.trail? s g (if o = .mustNot then false else scored) (b * x) = u at hfirst
    generalize trailParts? s g scored x rest = p at hrest
    generalize trailParts? s g scored (b * x) rest = p' at hrest
    cases hfirst with
    | none =>
      by_cases ho : o = .must
      · simp only [if_pos ho]
        exact .none
      · simp only [if_neg ho]
        exact hrest
    | some htu =>
      cases hrest with
      | none => exact .none
      | some h => exact .some (h.add o htu)

end

end Factors

/-! ### Boosts on clauses -/

/-- A boost on the query of a clause that adds to scores. -/
def boostClause (factor : Single) (c : Occur × Query) : Occur × Query :=
  (c.1, if c.1 = .mustNot then c.2 else .boost c.2 factor)

section Clauses

variable (s : Snapshot) (g : Segment) (factor : Single)

mutual

/-- Where no scores are needed boosts make no difference. -/
theorem trail?_unscored : ∀ (q : Query) (x y : R), q.trail? s g false x = q.trail? s g false y
  | .boost q _, _, _ => trail?_unscored q _ _
  | .boolean clauses, x, y => by
    rw [trail?, trail?, trailParts?_unscored clauses x y]
  | .term _, _, _ => rfl
  | .markedTerm _ _, _, _ => rfl
  | .frequentTerm _ _ _, _, _ => rfl
  | .spanTerm _, _, _ => rfl
  | .frequentSpanTerm _ _ _, _, _ => rfl
  | .spanOr _ _, _, _ => rfl
  | .spanNear _ _ _ _, _, _ => rfl
  | .withoutPayload _, _, _ => rfl
  | .frequentSpan _ _, _, _ => rfl
  | .multiTerm _, _, _ => rfl
  | .spanMultiTerm _, _, _ => rfl
  | .deferred _ _, _, _ => rfl
  | .nothing, _, _ => rfl

/-- The same for clauses. -/
theorem trailParts?_unscored : ∀ (clauses : List (Occur × Query)) (x y : R),
    trailParts? s g false x clauses = trailParts? s g false y clauses
  | [], _, _ => rfl
  | (o, q) :: rest, x, y => by
    rw [trailParts?, trailParts?, ite_self, trail?_unscored q x y, trailParts?_unscored rest x y]

end

/-- A boost on every clause that adds to scores is a boost on all of them. -/
theorem trailParts?_boostClause (scored : Bool) (x : R) (clauses : List (Occur × Query)) :
    trailParts? s g scored x (clauses.map (boostClause factor)) =
      trailParts? s g scored (x * ScoreNumber.ofBoost factor) clauses := by
  induction clauses with
  | nil => rfl
  | cons c clauses ih =>
    obtain ⟨o, q⟩ := c
    have hclause : (boostClause factor (o, q)).2.trail? s g
        (if o = .mustNot then false else scored) x =
          q.trail? s g (if o = .mustNot then false else scored)
            (x * ScoreNumber.ofBoost factor) := by
      rw [boostClause]
      by_cases ho : o = .mustNot
      · rw [if_pos ho, if_pos ho]
        exact trail?_unscored s g q x _
      · rw [if_neg ho, if_neg ho, trail?]
    rw [List.map_cons, trailParts?, trailParts?, ← ih, ← hclause]
    rfl

theorem trail?_boostClause (scored : Bool) (x : R) (clauses : List (Occur × Query)) :
    (boolean (clauses.map (boostClause factor))).trail? s g scored x =
      (Query.boost (boolean clauses) factor).trail? s g scored x := by
  rw [trail?, trail?, trail?, trailParts?_boostClause]

theorem clausesOpening_boostClause (clauses : List (Occur × Query)) :
    clausesOpening g (clauses.map (boostClause factor)) = clausesOpening g clauses := by
  induction clauses with
  | nil => rfl
  | cons c clauses ih =>
    obtain ⟨o, q⟩ := c
    have hclause : (boostClause factor (o, q)).2.opening g = q.opening g := by
      rw [boostClause]
      split <;> rfl
    rw [List.map_cons, clausesOpening, hclause, ih]
    rfl

theorem firstBindingFault?_boostClause (clauses : List (Occur × Query)) :
    firstBindingFault? (clauses.map (boostClause factor)) = firstBindingFault? clauses := by
  induction clauses with
  | nil => rfl
  | cons c clauses ih =>
    obtain ⟨o, q⟩ := c
    have hclause : (boostClause factor (o, q)).2.bindingFault? = q.bindingFault? := by
      rw [boostClause]
      split <;> rfl
    rw [List.map_cons, firstBindingFault?, hclause, ih]
    rfl

theorem carriedByClauses_boostClause (clauses : List (Occur × Query)) :
    carriedByClauses (clauses.map (boostClause factor)) = carriedByClauses clauses := by
  induction clauses with
  | nil => rfl
  | cons c clauses ih =>
    obtain ⟨o, q⟩ := c
    have hclause : (boostClause factor (o, q)).2.carriedLookups = q.carriedLookups := by
      rw [boostClause]
      split <;> rfl
    rw [List.map_cons, carriedByClauses, hclause, ih]
    rfl

end Clauses

end Query

namespace Searcher

open Query Weighing

variable {s : Searcher}

/-! ### Grounding -/

/-- Queries that are put together in two ways of parts that take the same steps are grounded hand
in hand. -/
theorem concur_grounded_of_steps {α : Type} {f f' : α → Query}
    {step : α → Except Fault (Option α)}
    (hf : ∀ a, s.groundStep (f a) = Option.map f <$> step a)
    (hf' : ∀ a, s.groundStep (f' a) = Option.map f' <$> step a) (a : α) :
    Concur (fun r r' => ∃ b, r = f b ∧ r' = f' b) (s.grounded (f a)) (s.grounded (f' a)) := by
  have hwithin : ∀ (given given' : Query) (passes : Nat) (a : α),
      Concur (Option.Rel fun r r' => ∃ b, r = f b ∧ r' = f' b)
        (s.groundWithin given passes (f a)) (s.groundWithin given' passes (f' a)) := by
    intro given given' passes
    induction passes with
    | zero => exact fun a => .error _ _
    | succ passes ih =>
      intro a
      rw [groundWithin, groundWithin, hf, hf']
      cases step a with
      | error e => exact .error e e
      | ok o =>
        cases o with
        | none => exact .ok .none
        | some b =>
          exact (ih b).bind fun _ _ hlast => .ok (.some (rel_getD hlast ⟨b, rfl, rfl⟩))
  exact (hwithin (f a) (f' a) _ a).map fun _ _ hrel => rel_getD hrel ⟨a, rfl, rfl⟩

theorem groundStep_boost (s : Searcher) (factor : Single) (q : Query) :
    s.groundStep (.boost q factor) = Option.map (Query.boost · factor) <$> s.groundStep q := by
  rw [groundStep]
  cases s.groundStep q <;> rfl

/-- A boosted query is grounded to the boost of what the query is grounded to. -/
theorem concur_grounded_boost (s : Searcher) (factor : Single) (q : Query) :
    Concur (fun r r' => r' = .boost r factor) (s.grounded q) (s.grounded (.boost q factor)) := by
  have hself : ∀ q, s.groundStep (id q) = Option.map id <$> s.groundStep q := by
    intro q
    rw [Option.map_id, id_map, id_eq]
  refine (concur_grounded_of_steps hself (s.groundStep_boost factor) q).mono_of_ok ?_
  rintro _ _ - ⟨r, rfl, rfl⟩
  rfl

theorem changeClause_boostClause (s : Searcher) (factor : Single) (c : Occur × Query) :
    changeClause s.groundStep (boostClause factor c) =
      Option.map (boostClause factor) <$> changeClause s.groundStep c := by
  obtain ⟨o, q⟩ := c
  rw [changeClause, changeClause, boostClause]
  by_cases ho : o = .mustNot
  · simp only [if_pos ho]
    cases s.groundStep q with
    | error => rfl
    | ok next => cases next <;> simp [Functor.map, Except.map, boostClause, ho]
  · simp only [if_neg ho, groundStep_boost]
    cases s.groundStep q with
    | error => rfl
    | ok next => cases next <;> simp [Functor.map, Except.map, boostClause, ho]

/-- A combination with boosts on its clauses is grounded as the boost of the combination is. -/
theorem concur_grounded_boostClause (s : Searcher) (factor : Single)
    (clauses : List (Occur × Query)) :
    Concur (fun r r' => ∃ clauses, r = .boost (.boolean clauses) factor ∧
        r' = .boolean (clauses.map (boostClause factor)))
      (s.grounded (.boost (.boolean clauses) factor))
      (s.grounded (.boolean (clauses.map (boostClause factor)))) := by
  have hboost : ∀ clauses : List (Occur × Query),
      s.groundStep (.boost (.boolean clauses) factor) =
        Option.map (fun clauses => .boost (.boolean clauses) factor) <$>
          changeAll (changeClause s.groundStep) clauses := by
    intro clauses
    rw [groundStep_boost, groundStep_boolean]
    cases changeAll (changeClause s.groundStep) clauses with
    | error => rfl
    | ok o => cases o <;> rfl
  have hclauses : ∀ clauses : List (Occur × Query),
      s.groundStep (.boolean (clauses.map (boostClause factor))) =
        Option.map (fun clauses => .boolean (clauses.map (boostClause factor))) <$>
          changeAll (changeClause s.groundStep) clauses := by
    intro clauses
    rw [groundStep_boolean, changeAll_map fun c _ => s.changeClause_boostClause factor c]
    cases changeAll (changeClause s.groundStep) clauses with
    | error => rfl
    | ok o => cases o <;> rfl
  exact concur_grounded_of_steps hboost hclauses clauses

/-! ### Searches -/

/-- Searches succeed together if their queries are grounded to queries that can be bound and opened
together. -/
theorem exists_yields_iff_of_concur (hs : s.snapshot.Numbered)
    (hsound : ∀ g ∈ s.snapshot.segments, g.Sound) {rel : Query → Query → Prop} {q q' : Query}
    (h : Concur rel (s.grounded q) (s.grounded q'))
    (hbinds : ∀ r r', rel r r' → r'.bindingFault? = r.bindingFault?)
    (hopens : ∀ r r', rel r r' → ∀ g, r'.opening g = r.opening g) (hq : q.Honest s.snapshot)
    (hq' : q'.Honest s.snapshot) {c c' : LookupCache} (hc : c.Sound s.snapshot)
    (hc' : c'.Sound s.snapshot) (size size' : Nat) :
    (∃ (top : TopDocs R) (c₁ : LookupCache), Yields (s.search size q) c top c₁) ↔
      ∃ (top : TopDocs R) (c₁ : LookupCache), Yields (s.search size' q') c' top c₁ := by
  rw [exists_yields_search_iff hs hsound hq hc, exists_yields_search_iff hs hsound hq' hc']
  constructor
  · rintro ⟨r, hr, hbinding, hopening⟩
    obtain ⟨r', hr', hrel⟩ := h.exists_ok hr
    refine ⟨r', hr', (hbinds r r' hrel).trans hbinding, fun g hg => ?_⟩
    rw [hopens r r' hrel g]
    exact hopening g hg
  · rintro ⟨r', hr', hbinding, hopening⟩
    obtain ⟨r, hr, hrel⟩ := h.exists_ok' hr'
    refine ⟨r, hr, (hbinds r r' hrel).symm.trans hbinding, fun g hg => ?_⟩
    rw [← hopens r r' hrel g]
    exact hopening g hg

variable [ExactProduct R]

theorem segmentHits_boost (s : Snapshot) (q : Query) (factor : Single) (g : Segment) :
    (Query.boost q factor).segmentHits s g =
      (q.segmentHits (R := R) s g).map (Hit.scaled (ScoreNumber.ofBoost factor)) := by
  have hscaled := scaledBy_trail? s g (ScoreNumber.ofBoost factor : R) q true ScoreNumber.one
  rw [segmentHits, segmentHits, trail?, ExactProduct.mul_comm ScoreNumber.one]
  generalize q.trail? s g true (ScoreNumber.one : R) = t at hscaled
  generalize q.trail? s g true (ScoreNumber.ofBoost factor * ScoreNumber.one : R) = u at hscaled
  cases hscaled with
  | none => rfl
  | some h =>
    simp only [Option.elim_some]
    induction h with
    | nil => rfl
    | @cons v w t u hvw _ ih =>
      rw [List.map_cons, List.map_cons, List.map_cons, ih, ← hvw.1, hvw.2]
      rfl

/-- The hits of a boosted query are those of the query with the factor on every score. -/
theorem scaled_of_searches (hs : s.snapshot.Numbered)
    (hsound : ∀ g ∈ s.snapshot.segments, g.Sound) {q : Query} (hq : q.Honest s.snapshot)
    {factor : Single} {c c' c₁ c₁' : LookupCache} (hc : c.Sound s.snapshot)
    (hc' : c'.Sound s.snapshot) {size size' : Nat} {top top' : TopDocs R}
    (hsearch : Yields (s.search size q) c top c₁)
    (hsearch' : Yields (s.search size' (.boost q factor)) c' top' c₁') :
    top'.totalHits = top.totalHits ∧ (top.totalHits ≤ size →
      (∀ hit ∈ top'.hits, hit ∈ top.hits.map (Hit.scaled (ScoreNumber.ofBoost factor))) ∧
      (top.totalHits ≤ size' →
        top'.hits.Perm (top.hits.map (Hit.scaled (ScoreNumber.ofBoost factor))))) := by
  obtain ⟨r, hr, hrest⟩ := topDocs_of_yields_search hs hsound hc hsearch
  obtain ⟨r', hr', hrest'⟩ := topDocs_of_yields_search hs hsound hc' hsearch'
  obtain ⟨_, hboost, rfl⟩ := (s.concur_grounded_boost factor q).exists_ok hr
  rw [hr', Except.ok.injEq] at hboost
  subst hboost
  obtain ⟨htop, -⟩ := hrest ((grounds_of_grounded hr).honest hq)
  obtain ⟨htop', -⟩ := hrest' ((grounds_of_grounded hr').honest hq)
  let hss : List (List (Hit R)) := s.snapshot.segments.map (r.segmentHits s.snapshot)
  let hss' : List (List (Hit R)) :=
    s.snapshot.segments.map ((Query.boost r factor).segmentHits s.snapshot)
  have hscaled : hss'.flatten = hss.flatten.map (Hit.scaled (ScoreNumber.ofBoost factor)) := by
    rw [List.map_flatten, List.map_map]
    exact congrArg List.flatten
      (List.map_congr_left fun g _ => segmentHits_boost s.snapshot r factor g)
  have hseen : (TopHits.ofParts size hss).seen = hss.flatten.length := TopHits.seen_ofParts size hss
  have hseen' : (TopHits.ofParts size' hss').seen = hss.flatten.length := by
    rw [TopHits.seen_ofParts, hscaled, List.length_map]
  rw [htop, htop']
  refine ⟨hseen'.trans hseen.symm, fun hsize => ?_⟩
  have hkept := (TopHits.kept_ofParts_perm (hseen.ge.trans hsize)).map
    (Hit.scaled (ScoreNumber.ofBoost factor))
  rw [← hscaled] at hkept
  refine ⟨fun hit hmem => hkept.mem_iff.2 (TopHits.mem_of_mem_kept hmem), fun hsize' => ?_⟩
  have hall : hss'.flatten.length ≤ size' := by
    rw [hscaled, List.length_map]
    exact hseen.ge.trans hsize'
  exact (TopHits.kept_ofParts_perm hall).trans hkept.symm

omit [ExactProduct R] in
/-- A combination with boosts on its clauses finds what the boost of the combination finds. -/
theorem eq_of_boostClause (hs : s.snapshot.Numbered)
    (hsound : ∀ g ∈ s.snapshot.segments, g.Sound) {clauses : List (Occur × Query)}
    (hq : (boolean clauses).Honest s.snapshot) {factor : Single} {c c' c₁ c₁' : LookupCache}
    (hc : c.Sound s.snapshot) (hc' : c'.Sound s.snapshot) {size : Nat} {top top' : TopDocs R}
    (hsearch : Yields (s.search size (.boost (.boolean clauses) factor)) c top c₁)
    (hsearch' : Yields (s.search size (.boolean (clauses.map (boostClause factor)))) c' top' c₁') :
    top' = top := by
  obtain ⟨r, hr, hrest⟩ := topDocs_of_yields_search hs hsound hc hsearch
  obtain ⟨r', hr', hrest'⟩ := topDocs_of_yields_search hs hsound hc' hsearch'
  have hq' : (boolean (clauses.map (boostClause factor))).Honest s.snapshot := by
    rw [Honest, carriedLookups, carriedByClauses_boostClause]
    exact hq
  obtain ⟨htop, -⟩ := hrest ((grounds_of_grounded hr).honest hq)
  obtain ⟨htop', -⟩ := hrest' ((grounds_of_grounded hr').honest hq')
  obtain ⟨_, hsame, after, rfl, rfl⟩ :=
    (s.concur_grounded_boostClause factor clauses).exists_ok hr
  rw [hr', Except.ok.injEq] at hsame
  subst hsame
  rw [htop, htop']
  refine congrArg (fun hss => (TopHits.ofParts size hss).topDocs) ?_
  refine List.map_congr_left fun g _ => ?_
  rw [segmentHits, segmentHits, trail?_boostClause]

open IndexBuilder (accepted)

/-- A boost scales: a search for a boosted query succeeds exactly if one for the query does, counts
the same documents, and lists those of the query with the factor on their scores; if there is room
for all of them it lists all of them. Boosts on all clauses of a combination, but for those that
must not match, find the same as a boost on the combination. The documents have to be few enough to
be numbered, and lookups that the query or the caches bring along have to be what they claim to
be. -/
theorem boost_scales (fields : List (String × IndexOptions)) (steps : List BuilderStep) (id : Nat)
    (settings : Settings) (hcount : (accepted (.ofList fields) steps).length ≤ endOfDocs)
    {q : Query} (hhonest : q.Honest (.ofSteps fields steps id)) (factor : Single)
    {c c' c'' : LookupCache} (hc : c.Sound (.ofSteps fields steps id))
    (hc' : c'.Sound (.ofSteps fields steps id)) (hc'' : c''.Sound (.ofSteps fields steps id))
    (size size' : Nat) :
    let s : Searcher := ⟨.ofSteps fields steps id, settings⟩
    let scaled : Hit R → Hit R := Hit.scaled (ScoreNumber.ofBoost factor)
    ((∃ (top : TopDocs R) (c₁ : LookupCache), Yields (s.search size q) c top c₁) ↔
        ∃ (top : TopDocs R) (c₁ : LookupCache),
          Yields (s.search size' (.boost q factor)) c' top c₁) ∧
      (∀ (top top' : TopDocs R) (c₁ c₁' : LookupCache), Yields (s.search size q) c top c₁ →
        Yields (s.search size' (.boost q factor)) c' top' c₁' →
          top'.totalHits = top.totalHits ∧ (top.totalHits ≤ size →
            (∀ hit ∈ top'.hits, hit ∈ top.hits.map scaled) ∧
              (top.totalHits ≤ size' → top'.hits.Perm (top.hits.map scaled)))) ∧
      ∀ clauses, q = .boolean clauses →
        ((∃ (top : TopDocs R) (c₁ : LookupCache),
            Yields (s.search size' (.boost q factor)) c' top c₁) ↔
          ∃ (top : TopDocs R) (c₁ : LookupCache),
            Yields (s.search size' (.boolean (clauses.map (boostClause factor)))) c'' top c₁) ∧
        ∀ (top top' : TopDocs R) (c₁ c₁' : LookupCache),
          Yields (s.search size' (.boost q factor)) c' top c₁ →
          Yields (s.search size' (.boolean (clauses.map (boostClause factor)))) c'' top' c₁' →
            top' = top := by
  intro s scaled
  have hholds : s.snapshot.Holds _ _ := IndexBuilder.holds_build fields steps id
  rw [← IndexBuilder.flatten_ofSteps] at hcount
  have hs := hholds.numbered
  have hsound := hholds.sound hcount
  refine ⟨?_, fun top top' c₁ c₁' => scaled_of_searches hs hsound hhonest hc hc', ?_⟩
  · refine exists_yields_iff_of_concur hs hsound (s.concur_grounded_boost factor q) ?_ ?_ hhonest
      hhonest hc hc' size size'
    · rintro r _ rfl
      rfl
    · rintro r _ rfl g
      rfl
  · rintro clauses rfl
    have hhonest' : (boolean (clauses.map (boostClause factor))).Honest s.snapshot := by
      rw [Honest, carriedLookups, carriedByClauses_boostClause]
      exact hhonest
    refine ⟨?_, fun top top' c₁ c₁' => eq_of_boostClause hs hsound hhonest hc' hc''⟩
    refine exists_yields_iff_of_concur hs hsound (s.concur_grounded_boostClause factor clauses) ?_
      ?_ hhonest hhonest' hc' hc'' size' size'
    · rintro _ _ ⟨after, rfl, rfl⟩
      exact firstBindingFault?_boostClause factor after
    · rintro _ _ ⟨after, rfl, rfl⟩ g
      rw [opening, opening, opening, clausesOpening_boostClause]

/-- A factor of three on a combination of a term, of a proximity that adds to its score, and of a
term that must not match. -/
theorem boost_scales_clauses :
    let fields : List (String × IndexOptions) := [("body", .positions)]
    let steps : List BuilderStep :=
      [.add [("body", [⟨"quick", 0, none⟩, ⟨"fox", 1, none⟩])], .commit,
        .add [("body", [⟨"quick", 0, none⟩, ⟨"bear", 1, none⟩])],
        .add [("body", [⟨"quick", 0, none⟩, ⟨"brown", 1, none⟩, ⟨"quick", 2, none⟩])]]
    let clauses : List (Occur × Query) :=
      [(.must, .term ⟨"body", "quick"⟩),
        (.should, .spanNear "body" [.spanTerm ⟨"body", "quick"⟩, .spanTerm ⟨"body", "fox"⟩] 1 true),
        (.mustNot, .term ⟨"body", "bear"⟩)]
    let factor : Single := ⟨0x40400000⟩
    let s : Searcher := ⟨.ofSteps fields steps 0, default⟩
    ∃ (top top' : TopDocs ℚ) (c₁ c₂ c₃ : LookupCache),
      Yields (s.search 10 (.boolean clauses)) .empty top c₁ ∧
        Yields (s.search 10 (.boost (.boolean clauses) factor)) .empty top' c₂ ∧
          Yields (s.search 10 (.boolean (clauses.map (boostClause factor)))) .empty top' c₃ ∧
            top.hits.map (·.doc) = [0, 2] ∧ top'.hits.Perm (top.hits.map (Hit.scaled 3)) := by
  intro fields steps clauses factor s
  have hfactor : (ScoreNumber.ofBoost factor : ℚ) = 3 := by decide +kernel
  obtain ⟨top, c₁, hsearch, htotal, hdocs⟩ := exists_yields_search_eq (R := ℚ) s 10
    (.boolean clauses) .empty 2 [0, 2] (by cbv)
  have hempty := LookupCache.sound_empty s.snapshot
  obtain ⟨hsucceeds, hscaled, hclauses⟩ := boost_scales (R := ℚ) fields steps 0 default
    (by decide +kernel) (q := .boolean clauses) (by rintro l ⟨⟩) factor hempty hempty hempty 10 10
  obtain ⟨top', c₂, hboosted⟩ := hsucceeds.1 ⟨top, c₁, hsearch⟩
  obtain ⟨hsucceeds', hsame⟩ := hclauses clauses rfl
  obtain ⟨top'', c₃, hwrapped⟩ := hsucceeds'.1 ⟨top', c₂, hboosted⟩
  obtain rfl := hsame top' top'' c₂ c₃ hboosted hwrapped
  obtain ⟨-, hrest⟩ := hscaled top top'' c₁ c₂ hsearch hboosted
  rw [hfactor] at hrest
  have hroom : top.totalHits ≤ 10 := by rw [htotal]; decide
  exact ⟨top, top'', c₁, c₂, c₃, hsearch, hboosted, hwrapped, hdocs, (hrest hroom).2 hroom⟩

end Searcher

end TextSearch
