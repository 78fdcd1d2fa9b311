import TextSearch.Proofs.Query.Nodes
import TextSearch.Search.Grounding

/-!
# Plain queries

Lookups that a query carries along are no part of what it means. `Query.plain` takes
them off, and grounding does to a plain query what it does to the query itself: no rule
and no comparison looks at them. Main statement: `Searcher.grounded_plain`.
-/

namespace TextSearch

namespace Query

mutual

/-- A query without the lookups that it carries along. -/
def plain : Query → Query
  | frequentTerm t least _ => frequentTerm t least none
  | frequentSpanTerm t least _ => frequentSpanTerm t least none
  | boost q factor => boost q.plain factor
  | boolean clauses => boolean (plainClauses clauses)
  | spanOr field qs => spanOr field (plainAll qs)
  | spanNear field qs slop inOrder => spanNear field (plainAll qs) slop inOrder
  | withoutPayload q => withoutPayload q.plain
  | frequentSpan q least => frequentSpan q.plain least
  | deferred q plan => deferred q.plain plan
  | q => q

/-- Clauses without the lookups that they carry along. -/
def plainClauses : List (Occur × Query) → List (Occur × Query)
  | [] => []
  | (o, q) :: rest => (o, q.plain) :: plainClauses rest

/-- Queries without the lookups that they carry along. -/
def plainAll : List Query → List Query
  | [] => []
  | q :: rest => q.plain :: plainAll rest

end

theorem plainClauses_eq_map (clauses : List (Occur × Query)) :
    plainClauses clauses = clauses.map fun c => (c.1, c.2.plain) := by
  induction clauses with
  | nil => rfl
  | cons c clauses ih => rw [List.map_cons, ← ih]; rfl

theorem plainAll_eq_map (qs : List Query) : plainAll qs = qs.map plain := by
  induction qs with
  | nil => rfl
  | cons q qs ih => rw [List.map_cons, ← ih]; rfl

/-! ### What does not look at carried lookups -/

theorem isBoolean_plain (q : Query) : q.plain.isBoolean = q.isBoolean := by
  cases q <;> rfl

theorem spanField?_plain (q : Query) : q.plain.spanField? = q.spanField? := by
  induction q using byParts with
  | hwithoutPayload q ih => exact ih
  | hfrequentSpan q least ih => exact ih
  | hdeferred q plan ih => exact ih
  | hatom q hq => cases q <;> first | rfl | cases hq
  | _ => rfl

theorem displayAll_plainAll {qs : List Query} (h : ∀ q ∈ qs, q.plain.display = q.display) :
    displayAll (plainAll qs) = displayAll qs := by
  rw [displayAll_eq_map, displayAll_eq_map, plainAll_eq_map, List.map_map]
  exact List.map_congr_left h

/-- A plain query is written like the query itself. -/
theorem display_plain (q : Query) : q.plain.display = q.display := by
  induction q using byParts with
  | hboost q factor ih => exact congrArg (fun text => "(" ++ text ++ ")^" ++ factor.text) ih
  | hboolean clauses ih =>
    have hclauses : displayClauses (plainClauses clauses) = displayClauses clauses := by
      rw [displayClauses_eq_map, displayClauses_eq_map, plainClauses_eq_map, List.map_map]
      refine List.map_congr_left fun c hc => ?_
      rw [Function.comp, ih c hc, isBoolean_plain]
    exact congrArg (String.intercalate " ") hclauses
  | hspanOr field qs ih =>
    exact congrArg (fun texts => "spanOr([" ++ String.intercalate ", " texts ++ "])")
      (displayAll_plainAll ih)
  | hspanNear field qs slop inOrder ih =>
    exact congrArg (fun texts => "spanNear([" ++ String.intercalate ", " texts ++
      s!"], {slop}, {inOrder})") (displayAll_plainAll ih)
  | hwithoutPayload q ih => exact congrArg (fun text => "SpanEmptyPayloadCheck(" ++ text ++ ")") ih
  | hfrequentSpan q least ih =>
    exact congrArg (fun text => "SpanMinFrequencyFilter(" ++ text ++ s!", {least.value})") ih
  | hdeferred q plan ih => exact congrArg (fun text => "LazyTraverserQuery(" ++ text ++ ")") ih
  | hatom q hq => cases q <;> first | rfl | cases hq

theorem heightClauses_map {f : Query → Query} {clauses : List (Occur × Query)}
    (h : ∀ c ∈ clauses, (f c.2).height = c.2.height) :
    heightClauses (clauses.map fun c => (c.1, f c.2)) = heightClauses clauses := by
  induction clauses with
  | nil => rfl
  | cons c clauses ih =>
    obtain ⟨hc, hclauses⟩ := List.forall_mem_cons.1 h
    rw [List.map_cons, heightClauses, heightClauses, hc, ih hclauses]

theorem height_plain (q : Query) : q.plain.height = q.height := by
  induction q using byParts with
  | hboost q factor ih => rw [plain, height, height, ih]
  | hboolean clauses ih =>
    rw [plain, height, height, plainClauses_eq_map, heightClauses_map ih]
  | hatom q hq => cases q <;> first | rfl | cases hq
  | _ => rfl

theorem peel_plain (q : Query) : q.plain.peel = q.peel.plain := by
  induction q using byParts with
  | hdeferred q plan ih => rw [plain, peel, peel, ih]
  | hatom q hq => cases q <;> first | rfl | cases hq
  | _ => rfl

theorem sameClauses_plain {clauses : List (Occur × Query)}
    (h : ∀ c ∈ clauses, ∀ r : Query, c.2.plain.same r.plain = c.2.same r)
    (clauses' : List (Occur × Query)) :
    sameClauses (plainClauses clauses) (plainClauses clauses') = sameClauses clauses clauses' := by
  induction clauses generalizing clauses' with
  | nil => cases clauses' <;> rfl
  | cons c clauses ih =>
    obtain ⟨hc, hclauses⟩ := List.forall_mem_cons.1 h
    cases clauses' with
    | nil => rfl
    | cons c' clauses' =>
      rw [plainClauses, plainClauses, sameClauses, sameClauses, hc, ih hclauses]

theorem sameAll_plain {qs : List Query}
    (h : ∀ q ∈ qs, ∀ r : Query, q.plain.same r.plain = q.same r) (rs : List Query) :
    sameAll (plainAll qs) (plainAll rs) = sameAll qs rs := by
  induction qs generalizing rs with
  | nil => cases rs <;> rfl
  | cons q qs ih =>
    obtain ⟨hq, hqs⟩ := List.forall_mem_cons.1 h
    cases rs with
    | nil => rfl
    | cons r rs => rw [plainAll, plainAll, sameAll, sameAll, hq, ih hqs]

/-- Plain queries are the same if the queries themselves are. -/
theorem same_plain (q r : Query) : q.plain.same r.plain = q.same r := by
  induction q using byParts generalizing r with
  | hdeferred q plan ih => exact ih r
  | hboost q factor ih =>
    rw [plain, same, same, peel_plain]
    cases r.peel with
    | boost r factor' => simp only [plain, ih]
    | _ => rfl
  | hboolean clauses ih =>
    rw [plain, same, same, peel_plain]
    cases r.peel with
    | boolean clauses' => exact sameClauses_plain ih clauses'
    | _ => rfl
  | hspanOr field qs ih =>
    rw [plain, same, same, peel_plain]
    cases r.peel with
    | spanOr field' qs' => simp only [plain, sameAll_plain ih]
    | _ => rfl
  | hspanNear field qs slop inOrder ih =>
    rw [plain, same, same, peel_plain]
    cases r.peel with
    | spanNear field' qs' slop' inOrder' => simp only [plain, sameAll_plain ih]
    | _ => rfl
  | hwithoutPayload q ih =>
    rw [plain, same, same, peel_plain]
    cases r.peel with
    | withoutPayload r => exact ih r
    | _ => rfl
  | hfrequentSpan q least ih =>
    rw [plain, same, same, peel_plain]
    cases r.peel with
    | frequentSpan r least' => simp only [plain, ih]
    | _ => rfl
  | hatom q hq =>
    cases q with
    | boost => cases hq
    | boolean => cases hq
    | spanOr => cases hq
    | spanNear => cases hq
    | withoutPayload => cases hq
    | frequentSpan => cases hq
    | deferred => cases hq
    | _ =>
      simp only [plain, same, peel_plain]
      cases r.peel <;> rfl

/-! ### Building -/

theorem operandField_plain (q : Query) : q.plain.operandField = q.operandField := by
  rw [operandField, operandField, spanField?_plain, display_plain]

theorem checkOperand_plain (field : String) (q : Query) :
    checkOperand field q.plain = checkOperand field q := by
  rw [checkOperand, checkOperand, operandField_plain, display_plain]

theorem forM_checkOperand_plain (field : String) (qs : List Query) :
    (qs.map plain).forM (checkOperand field) = qs.forM (checkOperand field) := by
  induction qs with
  | nil => rfl
  | cons q qs ih => rw [List.map_cons, List.forM, List.forM, checkOperand_plain, ih]

theorem spanUnion_plain (field : String) (qs : List Query) :
    spanUnion field (qs.map plain) = plain <$> spanUnion field qs := by
  rw [spanUnion, spanUnion, forM_checkOperand_plain]
  cases qs.forM (checkOperand field) with
  | error => rfl
  | ok => rw [← plainAll_eq_map]; rfl

theorem spanProximity_plain (qs : List Query) (slop : UInt32) (inOrder : Bool) :
    spanProximity (qs.map plain) slop inOrder = plain <$> spanProximity qs slop inOrder := by
  cases qs with
  | nil => rfl
  | cons first rest =>
    rw [List.map_cons, spanProximity, spanProximity, operandField_plain]
    cases first.operandField with
    | error => rfl
    | ok field =>
      simp only [forM_checkOperand_plain, bind, Except.bind]
      cases rest.forM (checkOperand field) with
      | error => rfl
      | ok => rw [← plainAll_eq_map]; rfl

theorem exactSpan_plain (q : Query) : q.plain.exactSpan = plain <$> q.exactSpan := by
  rw [exactSpan, exactSpan, operandField_plain]
  cases q.operandField <;> rfl

theorem spanAtLeast_plain (q : Query) (least : Nat) :
    q.plain.spanAtLeast least = plain <$> q.spanAtLeast least := by
  rw [spanAtLeast, spanAtLeast, operandField_plain]
  cases q.operandField with
  | error => rfl
  | ok field => cases Threshold.ofNat least <;> rfl

end Query

/-! ### Steps on lists -/

/-- A step that does to the images of the members what it does to the members does so to the
list. -/
theorem changeAll_map {α : Type} {f : α → α} {step : α → Except Fault (Option α)} {as : List α}
    (h : ∀ a ∈ as, step (f a) = Option.map f <$> step a) :
    changeAll step (as.map f) = Option.map (List.map f) <$> changeAll step as := by
  induction as with
  | nil => rfl
  | cons a as ih =>
    obtain ⟨ha, has⟩ := List.forall_mem_cons.1 h
    rw [List.map_cons, changeAll, changeAll, ha, ih has]
    cases step a with
    | error => rfl
    | ok a' =>
      cases changeAll step as with
      | error => rfl
      | ok as' => cases a' <;> cases as' <;> rfl

/-- A step on clauses that does to plain queries what it does to the queries themselves. -/
theorem changeAll_plainClauses {step : Query → Except Fault (Option Query)}
    {clauses : List (Occur × Query)}
    (h : ∀ c ∈ clauses, step c.2.plain = Option.map Query.plain <$> step c.2) :
    changeAll (changeClause step) (Query.plainClauses clauses) =
      Option.map Query.plainClauses <$> changeAll (changeClause step) clauses := by
  have hmap : Query.plainClauses = List.map fun c : Occur × Query => (c.1, c.2.plain) :=
    funext Query.plainClauses_eq_map
  rw [hmap]
  refine changeAll_map fun c hc => ?_
  rw [changeClause, changeClause, h c hc]
  cases step c.2 with
  | error => rfl
  | ok o => cases o <;> rfl

/-! ### Traversals -/

namespace Plan

variable (p : Plan)

theorem accepts_plain (r : Rule) (q : Query) : r.accepts q.plain = r.accepts q := by
  cases r <;> cases q <;> rfl

theorem plain_exactForm (q : Query) (t : Term) (fromPhrase : Bool) :
    (p.exactForm q t fromPhrase).plain = p.exactForm q.plain t fromPhrase := by
  rw [exactForm, exactForm]
  cases p.options.boostExactTokens with
  | none => rfl
  | some factor => cases fromPhrase <;> rfl

/-- A rule makes of a plain query the plain form of what it makes of the query. -/
theorem changeNode_plain (r : Rule) (q : Query) :
    p.changeNode r q.plain = (p.changeNode r q).map Query.plain := by
  cases r with
  | exactTerm =>
    cases q with
    | term t =>
      simp only [changeNode, Query.plain]
      split <;> simp [plain_exactForm, Query.plain]
    | markedTerm t mark =>
      simp only [changeNode, Query.plain]
      split <;> simp [plain_exactForm, Query.plain]
    | _ => rfl
  | exactFrequentMultiTerm =>
    cases q with
    | multiTerm m =>
      simp only [changeNode, Query.plain]
      cases m.least with
      | none => rfl
      | some least => simp only; split <;> rfl
    | _ => rfl
  | requireFrequency least =>
    cases q with
    | term t =>
      simp only [changeNode, Query.plain]
      split <;> rfl
    | _ => rfl
  | throughBoost => rfl
  | deferRange => rfl
  | _ =>
    cases q <;> simp only [changeNode, Query.plain] <;> first | rfl | (split <;> rfl)

theorem find?_plain (passed : Option Nat) (q : Query) :
    p.find? passed q.plain = p.find? passed q := by
  rw [find?, find?]
  simp only [accepts_plain]

variable {p}

theorem apply_plain {inner : Query → Except Fault (Option Query)}
    (hinner : ∀ q : Query, inner q.plain = Option.map Query.plain <$> inner q) (r : Rule)
    (q : Query) : p.apply inner r q.plain = Option.map Query.plain <$> p.apply inner r q := by
  cases r with
  | throughBoost =>
    cases q with
    | boost q factor =>
      simp only [Query.plain, apply, hinner]
      cases inner q with
      | error => rfl
      | ok o => cases o <;> rfl
    | _ => rfl
  | _ => exact congrArg Except.ok (p.changeNode_plain _ q)

/-- Handing a plain query from rule to rule. -/
theorem hand_plain {inner : Query → Except Fault (Option Query)}
    (hinner : ∀ q : Query, inner q.plain = Option.map Query.plain <$> inner q) (given : Query)
    (passes : Nat) (found : Nat × Rule) (q : Query) :
    p.hand inner given.plain passes found q.plain =
      Option.map Query.plain <$> p.hand inner given passes found q := by
  induction passes generalizing found q with
  | zero => rw [hand, hand, Query.display_plain]; rfl
  | succ passes ih =>
    obtain ⟨i, r⟩ := found
    rw [hand, hand, apply_plain hinner]
    cases p.apply inner r q with
    | error => rfl
    | ok o =>
      cases o with
      | none => rfl
      | some next =>
        simp only [Functor.map, Except.map, bind, Except.bind, Option.map_some, find?_plain]
        cases p.find? (some i) next with
        | none => rfl
        | some found =>
          simp only [ih]
          cases p.hand inner given passes found next with
          | error => rfl
          | ok o => cases o <;> rfl

theorem traverseTo_plain (depth : Nat) (q : Query) :
    p.traverseTo depth q.plain = Option.map Query.plain <$> p.traverseTo depth q := by
  induction depth generalizing q with
  | zero => rfl
  | succ depth ih =>
    rw [traverseTo.eq_def, traverseTo.eq_def]
    simp only [find?_plain]
    cases p.find? none q with
    | some found => exact hand_plain ih q _ found q
    | none =>
      cases q with
      | boost q factor =>
        simp only [Query.plain, ih]
        cases p.traverseTo depth q with
        | error => rfl
        | ok o => cases o <;> rfl
      | boolean clauses =>
        simp only [Query.plain]
        rw [changeAll_plainClauses fun c _ => ih c.2]
        cases changeAll (changeClause (p.traverseTo depth)) clauses with
        | error => rfl
        | ok o => cases o <;> rfl
      | _ => rfl

theorem traversed_plain (q : Query) : p.traversed q.plain = Query.plain <$> p.traversed q := by
  rw [traversed, traversed, traverse, traverse, depthFor, depthFor, Query.height_plain,
    traverseTo_plain]
  cases p.traverseTo _ q with
  | error => rfl
  | ok o => cases o <;> rfl

end Plan

/-! ### Grounding -/

namespace Searcher

variable {s : Searcher}

theorem settle_plain (q : Query) (plan : Plan) (o : Option Query) :
    settle q.plain plan (o.map Query.plain) = Query.plain <$> settle q plan o := by
  cases o with
  | none => rfl
  | some next =>
    rw [Option.map_some, settle, settle, Query.same_plain]
    split
    · rfl
    · exact Plan.traversed_plain next

theorem plain_expandTerms (s : Searcher) (m : MultiTerm) :
    Query.plain <$> s.expandTerms m = s.expandTerms m := by
  rw [expandTerms]
  cases expand s.snapshot s.settings.maxClauseCount m with
  | error => rfl
  | ok ts =>
    have hselected : ∀ t, (selectedTerm m t).plain = selectedTerm m t := by
      intro t
      rw [selectedTerm]
      cases m.least <;> rfl
    change Except.ok (Query.plain _) = Except.ok _
    refine congrArg Except.ok ?_
    split
    · rfl
    · rw [Query.plain, Query.plainClauses_eq_map, List.map_map]
      refine congrArg Query.boolean (List.map_congr_left fun t _ => ?_)
      rw [Function.comp, hselected]

theorem plain_expandSpanTerms (s : Searcher) (m : MultiTerm) :
    Query.plain <$> s.expandSpanTerms m = s.expandSpanTerms m := by
  rw [expandSpanTerms]
  cases expand s.snapshot s.settings.maxClauseCount m with
  | error => rfl
  | ok ts =>
    have hselected : ∀ t, (selectedSpanTerm m t).plain = selectedSpanTerm m t := by
      intro t
      rw [selectedSpanTerm]
      cases m.least <;> rfl
    change Query.plain <$> Query.spanUnion m.field (ts.map (selectedSpanTerm m)) = _
    rw [← Query.spanUnion_plain, List.map_map]
    refine congrArg (Query.spanUnion m.field) (List.map_congr_left fun t _ => ?_)
    rw [Function.comp, hselected]

theorem map_plain_some (x : Except Fault Query) :
    Option.map Query.plain <$> some <$> x = some <$> Query.plain <$> x := by
  cases x <;> rfl

/-- A step of grounding does to a plain query what it does to the query. -/
theorem groundStep_plain (s : Searcher) (q : Query) :
    s.groundStep q.plain = Option.map Query.plain <$> s.groundStep q := by
  -- with the steps on the parts exchanged, what is left is what each kind builds of them
  induction q using Query.byParts with
  | hboost q factor ih =>
    rw [Query.plain, groundStep, groundStep, ih, bind_map_left, map_bind]
    refine bind_congr fun o => ?_
    cases o <;> rfl
  | hboolean clauses ih =>
    rw [Query.plain, groundStep_boolean, groundStep_boolean, changeAll_plainClauses ih,
      bind_map_left, map_bind]
    refine bind_congr fun o => ?_
    cases o <;> rfl
  | hspanOr field qs ih =>
    rw [Query.plain, Query.plainAll_eq_map, groundStep_spanOr, groundStep_spanOr, changeAll_map ih,
      bind_map_left, map_bind]
    refine bind_congr fun o => ?_
    cases o with
    | none => rfl
    | some qs' => simp only [Option.map_some, Query.spanUnion_plain, map_plain_some]
  | hspanNear field qs slop inOrder ih =>
    rw [Query.plain, Query.plainAll_eq_map, groundStep_spanNear, groundStep_spanNear,
      changeAll_map ih, bind_map_left, map_bind]
    refine bind_congr fun o => ?_
    cases o with
    | none => rfl
    | some qs' => simp only [Option.map_some, Query.spanProximity_plain, map_plain_some]
  | hwithoutPayload q ih =>
    rw [Query.plain, groundStep, groundStep, ih, bind_map_left, map_bind]
    refine bind_congr fun o => ?_
    cases o with
    | none => rfl
    | some q' => simp only [Option.map_some, Query.exactSpan_plain, map_plain_some]
  | hfrequentSpan q least ih =>
    rw [Query.plain, groundStep, groundStep, ih, bind_map_left, map_bind]
    refine bind_congr fun o => ?_
    cases o with
    | none => rfl
    | some q' => simp only [Option.map_some, Query.spanAtLeast_plain, map_plain_some]
  | hdeferred q plan ih =>
    rw [Query.plain, groundStep, groundStep, ih, bind_map_left, map_bind]
    refine bind_congr fun o => ?_
    rw [settle_plain, map_plain_some]
  | hatom q hatom =>
    cases q with
    | multiTerm m =>
      change some <$> s.expandTerms m = Option.map Query.plain <$> some <$> s.expandTerms m
      rw [map_plain_some, plain_expandTerms]
    | spanMultiTerm m =>
      change some <$> s.expandSpanTerms m = Option.map Query.plain <$> some <$> s.expandSpanTerms m
      rw [map_plain_some, plain_expandSpanTerms]
    | boost => cases hatom
    | boolean => cases hatom
    | spanOr => cases hatom
    | spanNear => cases hatom
    | withoutPayload => cases hatom
    | frequentSpan => cases hatom
    | deferred => cases hatom
    | _ => rfl

theorem groundWithin_plain (given : Query) (passes : Nat) (q : Query) :
    s.groundWithin given.plain passes q.plain =
      Option.map Query.plain <$> s.groundWithin given passes q := by
  induction passes generalizing q with
  | zero => rw [groundWithin, groundWithin, Query.display_plain]; rfl
  | succ passes ih =>
    rw [groundWithin, groundWithin, groundStep_plain]
    cases s.groundStep q with
    | error => rfl
    | ok o =>
      cases o with
      | none => rfl
      | some next =>
        simp only [Functor.map, Except.map, bind, Except.bind, Option.map_some]
        rw [ih]
        cases s.groundWithin given passes next with
        | error => rfl
        | ok o => cases o <;> rfl

/-- A plain query is grounded to the plain form of what the query is grounded to, or fails
alike. -/
theorem grounded_plain (s : Searcher) (q : Query) :
    s.grounded q.plain = Query.plain <$> s.grounded q := by
  rw [grounded, grounded, ground, ground, groundWithin_plain]
  cases s.groundWithin q s.settings.maxPasses q with
  | error => rfl
  | ok o => cases o <;> rfl

end Searcher

end TextSearch
