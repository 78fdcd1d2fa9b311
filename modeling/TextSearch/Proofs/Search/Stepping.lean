import TextSearch.Proofs.Search.GroundSteps

/-!
# What a step comes to

`Searcher.stepped` is the query that one step of grounding comes to, whether the step
changes anything or not. It is computed along the query: the steps of the parts come
first, and the whole is put together from what they come to. A step fails at a node, a
selection that is too large or a deferred query whose plan does not come to an end, so
that it does not fail where nothing is selected. Main statement:
`Searcher.exists_failing_node`.
-/

namespace TextSearch

/-! ### Lists -/

section Lists

variable {α β : Type}

/-- What the members of a list are changed to, or are where nothing changes, is found member by
member. -/
theorem getD_changeAll (step : α → Except Fault (Option α)) (as : List α) :
    (·.getD as) <$> changeAll step as = as.mapM fun a => (·.getD a) <$> step a := by
  induction as with
  | nil => rfl
  | cons a as ih =>
    rw [changeAll, List.mapM_cons, ← ih]
    cases step a with
    | error => rfl
    | ok o =>
      cases changeAll step as with
      | error => rfl
      | ok rest => cases o <;> cases rest <;> rfl

theorem exists_of_mapM_eq_error {ε : Type} {f : α → Except ε β} {as : List α} {e : ε}
    (h : as.mapM f = .error e) : ∃ a ∈ as, f a = .error e := by
  induction as with
  | nil => cases h
  | cons a as ih =>
    rw [List.mapM_cons] at h
    rcases except_bind_eq_error.1 h with ha | ⟨b, -, h⟩
    · exact ⟨a, List.mem_cons_self .., ha⟩
    · rcases except_bind_eq_error.1 h with has | ⟨bs, -, h⟩
      · obtain ⟨a', ha', herror⟩ := ih has
        exact ⟨a', List.mem_cons_of_mem _ ha', herror⟩
      · cases h

end Lists

namespace Query

/-! ### Nodes inside of others -/

/-- The nodes of one query are nodes of another, as far as tests can tell. -/
def Contains (q r : Query) : Prop :=
  ∀ test : Query → Bool, r.hasNode test = true → q.hasNode test = true

theorem contains_self (q : Query) : q.Contains q := fun _ h => h

variable {q r : Query}

theorem Contains.boost (h : q.Contains r) (factor : Single) : (boost q factor).Contains r :=
  fun test hr => Bool.or_eq_true_iff.2 (.inr (h test hr))

theorem Contains.withoutPayload (h : q.Contains r) : (withoutPayload q).Contains r :=
  fun test hr => Bool.or_eq_true_iff.2 (.inr (h test hr))

theorem Contains.frequentSpan (h : q.Contains r) (least : Threshold) :
    (frequentSpan q least).Contains r :=
  fun test hr => Bool.or_eq_true_iff.2 (.inr (h test hr))

theorem Contains.deferred (h : q.Contains r) (plan : Plan) : (deferred q plan).Contains r :=
  fun test hr => Bool.or_eq_true_iff.2 (.inr (h test hr))

theorem Contains.boolean {clauses : List (Occur × Query)} {c : Occur × Query}
    (hc : c ∈ clauses) (h : c.2.Contains r) : (boolean clauses).Contains r := by
  refine fun test hr => Bool.or_eq_true_iff.2 (.inr ?_)
  rw [← Bool.not_eq_false, clausesHaveNode_eq_false]
  exact fun hnone => Bool.eq_false_iff.1 (hnone c hc) (h test hr)

theorem someHasNode_of_contains {qs : List Query} (hq : q ∈ qs) (h : q.Contains r)
    {test : Query → Bool} (hr : r.hasNode test = true) : someHasNode test qs = true := by
  rw [← Bool.not_eq_false, someHasNode_eq_false]
  exact fun hnone => Bool.eq_false_iff.1 (hnone q hq) (h test hr)

theorem Contains.spanOr (field : String) {qs : List Query} (hq : q ∈ qs) (h : q.Contains r) :
    (spanOr field qs).Contains r :=
  fun _ hr => Bool.or_eq_true_iff.2 (.inr (someHasNode_of_contains hq h hr))

theorem Contains.spanNear (field : String) {qs : List Query} (slop : UInt32) (inOrder : Bool)
    (hq : q ∈ qs) (h : q.Contains r) : (spanNear field qs slop inOrder).Contains r :=
  fun _ hr => Bool.or_eq_true_iff.2 (.inr (someHasNode_of_contains hq h hr))

end Query

namespace Searcher

open Query

/-- The query that one step of grounding comes to. -/
def stepped (s : Searcher) (q : Query) : Except Fault Query := (·.getD q) <$> s.groundStep q

variable {s : Searcher} {q r : Query}

theorem stepped_eq_ok : s.stepped q = .ok r ↔ s.StepsTo q r := by
  rw [stepped, except_map_eq_ok]
  exact exists_congr fun o => and_congr_right fun _ => eq_comm

theorem stepped_eq_error {e : Fault} : s.stepped q = .error e ↔ s.groundStep q = .error e :=
  except_map_eq_error

/-! ### Steps along the query -/

/-- A query that is rebuilt from its parts where a step changes them is made of what the parts come
to. -/
theorem getD_rebuilt {α : Type} {x : Except Fault (Option α)}
    {rebuild : Option α → Except Fault (Option Query)} {build : α → Except Fault Query}
    (make : α → Query) (a : α) (hnone : rebuild none = .ok none)
    (hsome : ∀ a, rebuild (some a) = some <$> build a)
    (hbuild : ∀ a', x = .ok (some a') → build a' = .ok (make a')) :
    (·.getD (make a)) <$> (x >>= rebuild) = make <$> ((·.getD a) <$> x) := by
  cases x with
  | error => rfl
  | ok o =>
    cases o with
    | none =>
      change (·.getD (make a)) <$> rebuild none = _
      rw [hnone]
      rfl
    | some a' =>
      change (·.getD (make a)) <$> rebuild (some a') = _
      rw [hsome, hbuild a' rfl]
      rfl

theorem stepped_boost (q : Query) (factor : Single) :
    s.stepped (.boost q factor) = (Query.boost · factor) <$> s.stepped q := by
  rw [stepped, groundStep]
  exact getD_rebuilt (Query.boost · factor) q rfl (fun _ => rfl) fun _ _ => rfl

theorem stepped_boolean (clauses : List (Occur × Query)) :
    s.stepped (.boolean clauses) =
      Query.boolean <$> clauses.mapM fun c => (c.1, ·) <$> s.stepped c.2 := by
  have hclause : ∀ c : Occur × Query,
      (·.getD c) <$> changeClause s.groundStep c = (c.1, ·) <$> s.stepped c.2 := by
    intro c
    rw [changeClause, stepped]
    cases s.groundStep c.2 with
    | error => rfl
    | ok o => cases o <;> rfl
  rw [stepped, groundStep_boolean, ← funext hclause, ← getD_changeAll]
  exact getD_rebuilt Query.boolean clauses rfl (fun _ => rfl) fun _ _ => rfl

theorem stepped_spanOr {field : String} {qs : List Query} (hq : (Query.spanOr field qs).Built) :
    s.stepped (.spanOr field qs) = Query.spanOr field <$> qs.mapM s.stepped := by
  have hall : (·.getD qs) <$> changeAll s.groundStep qs = qs.mapM s.stepped := getD_changeAll ..
  rw [stepped, groundStep_spanOr, ← hall]
  refine getD_rebuilt (Query.spanOr field) qs rfl (fun _ => rfl) fun qs' hqs' => ?_
  have hsteps : List.Forall₂ s.StepsTo qs qs' := forall₂_of_changeAll hqs'
  have hfields := spanField?_of_steps (fun q h => (built_spanOr.1 hq q h).1)
    (fun q h => (built_spanOr.1 hq q h).2) hsteps
  exact spanUnion_eq_ok.2 ⟨hfields, rfl⟩

/-- The operands stay on their field, so that a proximity query does as well. -/
theorem stepped_spanNear {field : String} {qs : List Query} {slop : UInt32} {inOrder : Bool}
    (hq : (Query.spanNear field qs slop inOrder).Built) :
    s.stepped (.spanNear field qs slop inOrder) =
      (Query.spanNear field · slop inOrder) <$> qs.mapM s.stepped := by
  have hall : (·.getD qs) <$> changeAll s.groundStep qs = qs.mapM s.stepped := getD_changeAll ..
  rw [stepped, groundStep_spanNear, ← hall]
  refine getD_rebuilt (Query.spanNear field · slop inOrder) qs rfl (fun _ => rfl) fun qs' hqs' => ?_
  obtain ⟨hsome, hqs⟩ := built_spanNear.1 hq
  have hsteps : List.Forall₂ s.StepsTo qs qs' := forall₂_of_changeAll hqs'
  have hfields := spanField?_of_steps (fun q h => (hqs q h).1) (fun q h => (hqs q h).2) hsteps
  exact spanProximity_eq_ok.2 ⟨ne_nil_of_forall₂ hsteps hsome, field, hfields, rfl⟩

theorem stepped_withoutPayload (hq : (Query.withoutPayload q).Built) :
    s.stepped (.withoutPayload q) = Query.withoutPayload <$> s.stepped q := by
  rw [stepped, groundStep]
  refine getD_rebuilt Query.withoutPayload q rfl (fun _ => rfl) fun q' hq' => ?_
  obtain ⟨hbuilt, field, hfield⟩ := built_withoutPayload.1 hq
  have hstep : s.StepsTo q q' := ⟨some q', hq', rfl⟩
  exact exactSpan_eq_ok.2 ⟨⟨field, (hstep.built hbuilt).2 field hfield⟩, rfl⟩

theorem stepped_frequentSpan {least : Threshold} (hq : (Query.frequentSpan q least).Built) :
    s.stepped (.frequentSpan q least) = (Query.frequentSpan · least) <$> s.stepped q := by
  rw [stepped, groundStep]
  refine getD_rebuilt (Query.frequentSpan · least) q rfl (fun _ => rfl) fun q' hq' => ?_
  obtain ⟨hbuilt, field, hfield⟩ := built_frequentSpan.1 hq
  have hstep : s.StepsTo q q' := ⟨some q', hq', rfl⟩
  exact spanAtLeast_eq_ok.2 ⟨⟨field, (hstep.built hbuilt).2 field hfield⟩, rfl⟩

/-- The plan of a deferred query in which something is selected is carried out on what a step makes
of the query. -/
theorem stepped_deferred_of_selects (hselects : q.hasNode isSelection = true) (plan : Plan) :
    s.stepped (.deferred q plan) = s.stepped q >>= plan.traversed := by
  rw [stepped, stepped, groundStep]
  cases hstep : s.groundStep q with
  | error => rfl
  | ok o =>
    change (·.getD (Query.deferred q plan)) <$> (some <$> settle q plan o) =
      plan.traversed (o.getD q)
    rw [settle_of_selects hselects plan hstep]
    cases plan.traversed (o.getD q) <;> rfl

/-! ### Steps that fail -/

/-- A step fails at a node: it selects too many terms, or it is deferred and the traversal by its
plan does not come to an end. -/
inductive FailsAt (s : Searcher) (e : Fault) : Query → Prop
  | multiTerm {m : MultiTerm} (h : expand s.snapshot s.settings.maxClauseCount m = .error e) :
    FailsAt s e (.multiTerm m)
  | spanMultiTerm {m : MultiTerm} (h : expand s.snapshot s.settings.maxClauseCount m = .error e) :
    FailsAt s e (.spanMultiTerm m)
  | deferred {q next : Query} {plan : Plan} (hselects : q.hasNode isSelection = true)
    (hstep : s.StepsTo q next) (h : plan.traversed next = .error e) : FailsAt s e (.deferred q plan)

/-- A failing step on what can be built fails at some node. In particular the operands of span
queries stay span queries on one field. -/
theorem exists_failing_node {e : Fault} (hq : q.Built) (h : s.stepped q = .error e) :
    ∃ r, s.FailsAt e r ∧ q.Contains r := by
  induction hq with
  | @atom q hatom =>
    by_cases hselects : q.isSelection = false
    · rw [stepped, groundStep_atom s hatom hselects] at h
      cases h
    · refine ⟨q, ?_, contains_self q⟩
      have hstep := stepped_eq_error.1 h
      cases q with
      | multiTerm m =>
        rcases except_bind_eq_error.1 (except_map_eq_error.1 hstep) with hm | ⟨ts, -, hnone⟩
        · exact .multiTerm hm
        · cases hnone
      | spanMultiTerm m =>
        rcases except_bind_eq_error.1 (except_map_eq_error.1 hstep) with hm | ⟨ts, hts, hunion⟩
        · exact .spanMultiTerm hm
        · have hfield : ∀ q ∈ ts.map (selectedSpanTerm m), q.spanField? = some m.field := by
            intro q hq
            obtain ⟨t, ht, rfl⟩ := List.mem_map.1 hq
            rw [spanField?_selectedSpanTerm, field_of_expand hts t ht]
          rw [spanUnion_eq_ok.2 ⟨hfield, rfl⟩] at hunion
          cases hunion
      | _ => exact absurd rfl hselects
  | boost factor _ ih =>
    rw [stepped_boost] at h
    obtain ⟨r, hr, hin⟩ := ih (except_map_eq_error.1 h)
    exact ⟨r, hr, hin.boost factor⟩
  | boolean _ ih =>
    rw [stepped_boolean] at h
    obtain ⟨c, hc, herror⟩ := exists_of_mapM_eq_error (except_map_eq_error.1 h)
    obtain ⟨r, hr, hin⟩ := ih c hc (except_map_eq_error.1 herror)
    exact ⟨r, hr, .boolean hc hin⟩
  | spanOr hbuilt hfields ih =>
    rw [stepped_spanOr (.spanOr hbuilt hfields)] at h
    obtain ⟨q, hq, herror⟩ := exists_of_mapM_eq_error (except_map_eq_error.1 h)
    obtain ⟨r, hr, hin⟩ := ih q hq herror
    exact ⟨r, hr, .spanOr _ hq hin⟩
  | spanNear slop inOrder hbuilt hfields hsome ih =>
    rw [stepped_spanNear (.spanNear slop inOrder hbuilt hfields hsome)] at h
    obtain ⟨q, hq, herror⟩ := exists_of_mapM_eq_error (except_map_eq_error.1 h)
    obtain ⟨r, hr, hin⟩ := ih q hq herror
    exact ⟨r, hr, .spanNear _ slop inOrder hq hin⟩
  | withoutPayload hbuilt hfield ih =>
    rw [stepped_withoutPayload (.withoutPayload hbuilt hfield)] at h
    obtain ⟨r, hr, hin⟩ := ih (except_map_eq_error.1 h)
    exact ⟨r, hr, hin.withoutPayload⟩
  | frequentSpan least hbuilt hfield ih =>
    rw [stepped_frequentSpan (.frequentSpan least hbuilt hfield)] at h
    obtain ⟨r, hr, hin⟩ := ih (except_map_eq_error.1 h)
    exact ⟨r, hr, hin.frequentSpan least⟩
  | @deferred q plan hbuilt ih =>
    rcases except_bind_eq_error.1 (stepped_eq_error.1 h) with hinner | ⟨o, ho, hsettle⟩
    · obtain ⟨r, hr, hin⟩ := ih (stepped_eq_error.2 hinner)
      exact ⟨r, hr, hin.deferred plan⟩
    · have herror := except_map_eq_error.1 hsettle
      cases hselects : q.hasNode isSelection with
      | false =>
        rw [settle_of_not_selects hbuilt hselects plan ho] at herror
        cases herror
      | true =>
        rw [settle_of_selects hselects plan ho] at herror
        exact ⟨_, .deferred hselects ⟨o, ho, rfl⟩ herror, contains_self _⟩

/-- A step fails only where something is selected. -/
theorem FailsAt.selects {e : Fault} (h : s.FailsAt e q) : q.hasNode isSelection = true := by
  cases h with
  | multiTerm => rfl
  | spanMultiTerm => rfl
  | deferred hselects => exact hselects

/-- Where nothing is selected a step comes to a query, which is the same as before. -/
theorem exists_stepped_of_not_selects (s : Searcher) (hq : q.Built)
    (hselects : q.hasNode isSelection = false) : ∃ r, s.stepped q = .ok r ∧ r.same q = true := by
  cases h : s.stepped q with
  | ok r => exact ⟨r, rfl, (stepped_eq_ok.1 h).same hq hselects⟩
  | error e =>
    obtain ⟨r, hr, hin⟩ := exists_failing_node hq h
    rw [hin _ hr.selects] at hselects
    cases hselects

/-- A deferred query in which nothing is selected comes to what was deferred. -/
theorem stepped_deferred_of_not_selects (hq : q.Built) (hselects : q.hasNode isSelection = false)
    (plan : Plan) : s.stepped (.deferred q plan) = .ok q := by
  obtain ⟨r, hr, -⟩ := exists_stepped_of_not_selects s hq hselects
  obtain ⟨o, ho, -⟩ := stepped_eq_ok.1 hr
  rw [stepped, groundStep, ho]
  change (·.getD (Query.deferred q plan)) <$> (some <$> settle q plan o) = .ok q
  rw [settle_of_not_selects hq hselects plan ho]
  rfl

end Searcher

end TextSearch
