import TextSearch.Proofs.Plan.Keeping
import TextSearch.Proofs.Search.SpanOpening

/-!
# Thresholds of one

A query is screened by asking some of its terms, selections and span queries to occur
once at least. `Query.Screened` relates a query to what screening makes of it, at any
number of places. The screened query asks for the same places of the same terms on the
same field, can be built if the query can, and carries the same lookups along.

A plan that is carried out around a term has to treat the term as it treats the
screened one. Where scores are needed, places may be screened only if the query takes a
single position of each of its spans to go without a gap, as filters do.
-/

namespace TextSearch

/-- Whether a plan does to a term what it does to the term with a threshold of one: it fails on
both, leaves both, or makes the same places of both up to that threshold. -/
def Plan.TreatsAlike (p : Plan) (t : Term) : Prop :=
  Concur (Option.Rel fun q q' => q' = q ∨ q' = .frequentSpan q .one)
    (p.traverse (.term t)) (p.traverse (.frequentTerm t .one none))

namespace Query

mutual

/-- Whether a span query takes a single position of each span to go without a gap. Proximities of
several clauses take more, and so may unions and deferrals of them. -/
def hasUnitWidth : Query → Bool
  | spanOr _ qs => allHaveUnitWidth qs
  | spanNear _ qs _ _ => qs.length == 1
  | deferred q _ => q.hasUnitWidth
  | _ => true

/-- Whether all of several span queries take a single position of each span to go without a gap. -/
def allHaveUnitWidth : List Query → Bool
  | [] => true
  | q :: rest => q.hasUnitWidth && allHaveUnitWidth rest

end

theorem allHaveUnitWidth_iff {qs : List Query} :
    allHaveUnitWidth qs = true ↔ ∀ q ∈ qs, q.hasUnitWidth = true := by
  induction qs with
  | nil => simp [allHaveUnitWidth]
  | cons q qs ih => rw [allHaveUnitWidth, Bool.and_eq_true, ih, List.forall_mem_cons]

/-- A query and what becomes of it when thresholds of one are put in, at any number of places.
`plans` are the plans that are carried out around it, and `scored` tells whether scores are
needed. A deferred query is carried out only if something is selected in it. -/
inductive Screened : List Plan → Bool → Query → Query → Prop
  /-- Nothing is put in. -/
  | refl (plans : List Plan) (scored : Bool) (q : Query) : Screened plans scored q q
  /-- A term is asked to occur once at least. -/
  | term {plans : List Plan} {scored : Bool} (t : Term) (h : ∀ p ∈ plans, p.TreatsAlike t) :
    Screened plans scored (.term t) (.frequentTerm t .one none)
  /-- The places of a term are asked for where it occurs once at least. -/
  | spanTerm {plans : List Plan} {scored : Bool} (t : Term) :
    Screened plans scored (.spanTerm t) (.frequentSpanTerm t .one none)
  /-- Every selected term is asked to occur once at least. -/
  | multiTerm {plans : List Plan} {scored : Bool} (m : MultiTerm) (hleast : m.least = none)
    (h : ∀ p ∈ plans, ∀ text, m.selects text = true → p.TreatsAlike ⟨m.field, text⟩) :
    Screened plans scored (.multiTerm m) (.multiTerm (m.withMinimum .one))
  /-- The places of every selected term are asked for where it occurs once at least. -/
  | spanMultiTerm {plans : List Plan} {scored : Bool} (m : MultiTerm) (hleast : m.least = none) :
    Screened plans scored (.spanMultiTerm m) (.spanMultiTerm (m.withMinimum .one))
  /-- One place at least is asked for. -/
  | atLeastOne {plans : List Plan} {scored : Bool} {q q' : Query} (hspan : q.isSpan = true)
    (hwidth : scored = true → q.hasUnitWidth = true) (h : Screened plans false q q') :
    Screened plans scored q (.frequentSpan q' .one)
  /-- Below a boost. -/
  | boost {plans : List Plan} {scored : Bool} {q q' : Query} (factor : Single)
    (h : Screened plans scored q q') : Screened plans scored (.boost q factor) (.boost q' factor)
  /-- In clauses of a combination. Those that must not match need no scores. -/
  | boolean {plans : List Plan} {scored : Bool} {clauses clauses' : List (Occur × Query)}
    (hlength : clauses.length = clauses'.length)
    (hoccur : ∀ c ∈ clauses.zip clauses', c.1.1 = c.2.1)
    (h : ∀ c ∈ clauses.zip clauses',
      Screened plans (if c.1.1 = .mustNot then false else scored) c.1.2 c.2.2) :
    Screened plans scored (.boolean clauses) (.boolean clauses')
  /-- In operands of a union. -/
  | spanOr {plans : List Plan} {scored : Bool} {qs qs' : List Query} (field : String)
    (hlength : qs.length = qs'.length) (h : ∀ c ∈ qs.zip qs', Screened plans scored c.1 c.2) :
    Screened plans scored (.spanOr field qs) (.spanOr field qs')
  /-- In operands of a proximity, which measures the gaps itself. -/
  | spanNear {plans : List Plan} {scored : Bool} {qs qs' : List Query} (field : String)
    (slop : UInt32) (inOrder : Bool) (hlength : qs.length = qs'.length)
    (h : ∀ c ∈ qs.zip qs', Screened plans false c.1 c.2) :
    Screened plans scored (.spanNear field qs slop inOrder) (.spanNear field qs' slop inOrder)
  /-- Below a check of payloads, which measures the gaps itself. -/
  | withoutPayload {plans : List Plan} {scored : Bool} {q q' : Query}
    (h : Screened plans false q q') :
    Screened plans scored (.withoutPayload q) (.withoutPayload q')
  /-- Below another threshold, which measures the gaps itself. -/
  | frequentSpan {plans : List Plan} {scored : Bool} {q q' : Query} (least : Threshold)
    (h : Screened plans false q q') :
    Screened plans scored (.frequentSpan q least) (.frequentSpan q' least)
  /-- Below a deferral. -/
  | deferred {plans : List Plan} {scored : Bool} {q q' : Query} (plan : Plan)
    (h : Screened (if q.hasNode isSelection then plan :: plans else plans) scored q q') :
    Screened plans scored (.deferred q plan) (.deferred q' plan)

variable {plans : List Plan} {scored : Bool} {q q' : Query}

/-! ### Lists of parts -/

theorem screened_boolean {clauses clauses' : List (Occur × Query)}
    (h : List.Forall₂ (fun c c' => c.1 = c'.1 ∧
      Screened plans (if c.1 = .mustNot then false else scored) c.2 c'.2) clauses clauses') :
    Screened plans scored (boolean clauses) (boolean clauses') := by
  obtain ⟨hlength, hzip⟩ := List.forall₂_iff_zip.1 h
  exact .boolean hlength (fun _ hc => (hzip hc).1) fun _ hc => (hzip hc).2

theorem screened_spanOr {qs qs' : List Query} (h : List.Forall₂ (Screened plans scored) qs qs')
    (field : String) : Screened plans scored (spanOr field qs) (spanOr field qs') := by
  obtain ⟨hlength, hzip⟩ := List.forall₂_iff_zip.1 h
  exact .spanOr field hlength fun _ hc => hzip hc

theorem screened_spanNear {qs qs' : List Query} (h : List.Forall₂ (Screened plans false) qs qs')
    (field : String) (slop : UInt32) (inOrder : Bool) :
    Screened plans scored (spanNear field qs slop inOrder) (spanNear field qs' slop inOrder) := by
  obtain ⟨hlength, hzip⟩ := List.forall₂_iff_zip.1 h
  exact .spanNear field slop inOrder hlength fun _ hc => hzip hc

/-- With fewer plans around it a query may be screened in the same places. -/
theorem Screened.mono (h : Screened plans scored q q') {plans' : List Plan}
    (hsub : plans' ⊆ plans) : Screened plans' scored q q' := by
  induction h generalizing plans' with
  | refl => exact .refl _ _ _
  | term t h => exact .term t fun p hp => h p (hsub hp)
  | spanTerm t => exact .spanTerm t
  | multiTerm m hleast h => exact .multiTerm m hleast fun p hp => h p (hsub hp)
  | spanMultiTerm m hleast => exact .spanMultiTerm m hleast
  | atLeastOne hspan hwidth _ ih => exact .atLeastOne hspan hwidth (ih hsub)
  | boost factor _ ih => exact .boost factor (ih hsub)
  | boolean hlength hoccur _ ih => exact .boolean hlength hoccur fun c hc => ih c hc hsub
  | spanOr field hlength _ ih => exact .spanOr field hlength fun c hc => ih c hc hsub
  | spanNear field slop inOrder hlength _ ih =>
    exact .spanNear field slop inOrder hlength fun c hc => ih c hc hsub
  | withoutPayload _ ih => exact .withoutPayload (ih hsub)
  | frequentSpan least _ ih => exact .frequentSpan least (ih hsub)
  | deferred plan _ ih =>
    refine .deferred plan (ih ?_)
    split
    · exact List.cons_subset_cons plan hsub
    · exact hsub

/-! ### What screening leaves as it is -/

theorem Screened.spanField? (h : Screened plans scored q q') : q'.spanField? = q.spanField? := by
  induction h with
  | atLeastOne _ _ _ ih => exact ih
  | withoutPayload _ ih => exact ih
  | frequentSpan _ _ ih => exact ih
  | deferred _ _ ih => exact ih
  | _ => rfl

theorem Screened.isSpan (h : Screened plans scored q q') : q'.isSpan = q.isSpan := by
  induction h with
  | atLeastOne hspan => exact hspan.symm
  | deferred _ _ ih => exact ih
  | _ => rfl

theorem Screened.selects (h : Screened plans scored q q') :
    q'.hasNode isSelection = q.hasNode isSelection := by
  induction h with
  | boolean hlength _ _ ih => exact clausesHaveNode_congr (forall₂_of_zip hlength ih)
  | spanOr _ hlength _ ih => exact someHasNode_congr (forall₂_of_zip hlength ih)
  | spanNear _ _ _ hlength _ ih => exact someHasNode_congr (forall₂_of_zip hlength ih)
  | atLeastOne _ _ _ ih => exact ih
  | boost _ _ ih => exact ih
  | withoutPayload _ ih => exact ih
  | frequentSpan _ _ ih => exact ih
  | deferred _ _ ih => exact ih
  | _ => rfl

theorem Screened.height (h : Screened plans scored q q') : q'.height = q.height := by
  induction h with
  | atLeastOne hspan => exact (height_of_isSpan hspan).symm
  | boost _ _ ih => exact congrArg (· + 1) ih
  | boolean hlength _ _ ih =>
    exact congrArg (· + 1) (heightClauses_congr (forall₂_of_zip hlength ih))
  | _ => rfl

theorem carriedByClauses_congr {clauses clauses' : List (Occur × Query)}
    (h : List.Forall₂ (fun c c' => c'.2.carriedLookups = c.2.carriedLookups) clauses clauses') :
    carriedByClauses clauses' = carriedByClauses clauses := by
  induction h with
  | nil => rfl
  | cons hc _ ih => rw [carriedByClauses, carriedByClauses, hc, ih]

theorem carriedByAll_congr {qs qs' : List Query}
    (h : List.Forall₂ (fun q q' => q'.carriedLookups = q.carriedLookups) qs qs') :
    carriedByAll qs' = carriedByAll qs := by
  induction h with
  | nil => rfl
  | cons hq _ ih => rw [carriedByAll, carriedByAll, hq, ih]

theorem Screened.carriedLookups (h : Screened plans scored q q') :
    q'.carriedLookups = q.carriedLookups := by
  induction h with
  | boolean hlength _ _ ih => exact carriedByClauses_congr (forall₂_of_zip hlength ih)
  | spanOr _ hlength _ ih => exact carriedByAll_congr (forall₂_of_zip hlength ih)
  | spanNear _ _ _ hlength _ ih => exact carriedByAll_congr (forall₂_of_zip hlength ih)
  | atLeastOne _ _ _ ih => exact ih
  | boost _ _ ih => exact ih
  | withoutPayload _ ih => exact ih
  | frequentSpan _ _ ih => exact ih
  | deferred _ _ ih => exact ih
  | _ => rfl

theorem Screened.honest (h : Screened plans scored q q') {s : Snapshot} (hq : q.Honest s) :
    q'.Honest s := by
  rw [Honest, h.carriedLookups]
  exact hq

/-- What could have been built can be built with thresholds put in. -/
theorem Screened.built (h : Screened plans scored q q') (hq : q.Built) : q'.Built := by
  induction h with
  | refl => exact hq
  | term => exact .atom rfl
  | spanTerm => exact .atom rfl
  | multiTerm => exact .atom rfl
  | spanMultiTerm => exact .atom rfl
  | atLeastOne hspan _ h ih =>
    obtain ⟨field, hfield⟩ := hq.exists_spanField? hspan
    exact .frequentSpan .one (ih hq) (h.spanField?.trans hfield)
  | boost factor _ ih => exact .boost factor (ih (built_boost.1 hq))
  | boolean hlength _ _ ih =>
    exact .boolean (built_clauses hlength ih (built_boolean.1 hq))
  | spanOr field hlength h ih =>
    have hoperands := fun c hc => And.intro (ih c hc) (h c hc).spanField?
    exact built_spanOr.2 (built_operands hlength hoperands (built_spanOr.1 hq))
  | spanNear field slop inOrder hlength h ih =>
    obtain ⟨hsome, hqs⟩ := built_spanNear.1 hq
    have hoperands := fun c hc => And.intro (ih c hc) (h c hc).spanField?
    refine built_spanNear.2 ⟨?_, built_operands hlength hoperands hqs⟩
    rintro rfl
    exact hsome (List.length_eq_zero_iff.1 hlength)
  | withoutPayload h ih =>
    obtain ⟨hq, field, hfield⟩ := built_withoutPayload.1 hq
    exact .withoutPayload (ih hq) (h.spanField?.trans hfield)
  | frequentSpan least h ih =>
    obtain ⟨hq, field, hfield⟩ := built_frequentSpan.1 hq
    exact .frequentSpan least (ih hq) (h.spanField?.trans hfield)
  | deferred plan _ ih => exact .deferred plan (ih (built_deferred.1 hq))

end Query

end TextSearch
