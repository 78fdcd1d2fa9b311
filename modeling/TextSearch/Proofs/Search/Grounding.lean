import TextSearch.Proofs.Plan.Rewriting
import TextSearch.Proofs.Search.SpanOpening
import TextSearch.Search.Grounding

/-!
# Grounded queries

Grounding takes steps until one changes nothing, and `Searcher.Grounds` relates a query
to what it ends with. The relation is taken apart along the query: boosts, boolean
combinations and span queries are grounded part by part, selections are replaced
by what they expand to, and deferred queries by what their plans make of them.
Grounding brings no lookups into a query: `Searcher.Grounds.honest`.
-/

namespace TextSearch

namespace Searcher

/-- Steps of grounding lead from one query to another, which they leave as it is. -/
inductive Grounds (s : Searcher) : Query → Query → Prop
  /-- A step changes nothing. -/
  | done {q : Query} (h : s.groundStep q = .ok none) : Grounds s q q
  /-- A step changes the query. -/
  | step {q q' r : Query} (h : s.groundStep q = .ok (some q')) (hrest : Grounds s q' r) :
    Grounds s q r

variable {s : Searcher}

theorem grounds_of_groundWithin (s : Searcher) (given : Query) :
    ∀ (passes : Nat) {q : Query} {o : Option Query},
      s.groundWithin given passes q = .ok o → s.Grounds q (o.getD q)
  | 0, _, _, h => by cases h
  | passes + 1, q, o, h => by
    rw [groundWithin] at h
    obtain ⟨o₁, hstep, h⟩ := except_bind_eq_ok.1 h
    cases o₁ with
    | none =>
      cases h
      exact .done hstep
    | some next =>
      obtain ⟨o₂, hrest, h⟩ := except_bind_eq_ok.1 h
      cases h
      exact .step hstep (grounds_of_groundWithin s given passes hrest)

/-- The query that grounding ends with is reached by steps. -/
theorem grounds_of_grounded {q r : Query} (h : s.grounded q = .ok r) : s.Grounds q r := by
  obtain ⟨o, ho, rfl⟩ := except_map_eq_ok.1 h
  exact grounds_of_groundWithin s q _ ho

/-- A query that a step leaves as it is grounds to nothing but itself. -/
theorem Grounds.eq_of_done {q r : Query} (h : s.Grounds q r) (hdone : s.groundStep q = .ok none) :
    r = q := by
  cases h with
  | done => rfl
  | step hstep => rw [hdone] at hstep; cases hstep

/-- A query grounds to one query at most. -/
theorem Grounds.unique {q r r' : Query} (h : s.Grounds q r) (h' : s.Grounds q r') : r' = r := by
  induction h with
  | done hdone => exact h'.eq_of_done hdone
  | step hstep _ ih =>
    cases h' with
    | done hdone => rw [hstep] at hdone; cases hdone
    | step hstep' hrest' =>
      rw [hstep] at hstep'
      cases hstep'
      exact ih hrest'

/-! ### Selections -/

/-- The terms of an expansion are those that are selected. -/
theorem expand_eq_ok {snapshot : Snapshot} {limit : Nat} {m : MultiTerm} {ts : List Term}
    (h : expand snapshot limit m = .ok ts) :
    ts = (snapshot.select m).keys.map fun x => ⟨m.field, x⟩ := by
  rw [expand] at h
  split at h
  · cases h
  · cases h
    rfl

theorem field_of_expand {snapshot : Snapshot} {limit : Nat} {m : MultiTerm} {ts : List Term}
    (h : expand snapshot limit m = .ok ts) : ∀ t ∈ ts, t.field = m.field := by
  rw [expand_eq_ok h]
  intro t ht
  obtain ⟨x, -, rfl⟩ := List.mem_map.1 ht
  rfl

/-- The query that a selection expands to. -/
def expansion (m : MultiTerm) (ts : List Term) : Query :=
  if ts.isEmpty then .nothing else .boolean (ts.map fun t => (.should, selectedTerm m t))

/-! ### What one step does -/

section Steps

variable {q : Query} {o : Option Query}

/-- A query around others is rebuilt from them where a step changes them, and left as it is where
it does not. -/
theorem rebuilt_eq_ok {α : Type} {x : Except Fault (Option α)}
    {rebuild : Option α → Except Fault (Option Query)} {build : α → Except Fault Query}
    (h : x >>= rebuild = .ok o) (hnone : rebuild none = .ok none)
    (hsome : ∀ a, rebuild (some a) = some <$> build a) :
    ∃ o', x = .ok o' ∧ Option.Rel (fun a r => build a = .ok r) o' o := by
  obtain ⟨o', ho', h⟩ := except_bind_eq_ok.1 h
  refine ⟨o', ho', ?_⟩
  cases o' with
  | none =>
    rw [hnone] at h
    cases h
    exact .none
  | some a =>
    rw [hsome] at h
    obtain ⟨r, hr, rfl⟩ := except_map_eq_ok.1 h
    exact .some hr

theorem eq_map_of_rel {α β : Type} {P : α → β → Prop} {f : α → β} {o : Option α} {o' : Option β}
    (h : Option.Rel P o o') (hP : ∀ a b, P a b → b = f a) : o' = o.map f := by
  cases h with
  | none => rfl
  | some hab => rw [hP _ _ hab]; rfl

theorem groundStep_multiTerm_eq_ok {m : MultiTerm} (h : s.groundStep (.multiTerm m) = .ok o) :
    ∃ ts, expand s.snapshot s.settings.maxClauseCount m = .ok ts ∧ o = some (expansion m ts) := by
  rw [groundStep] at h
  obtain ⟨q, hq, rfl⟩ := except_map_eq_ok.1 h
  obtain ⟨ts, hts, hq⟩ := except_bind_eq_ok.1 hq
  cases hq
  exact ⟨ts, hts, rfl⟩

theorem groundStep_spanMultiTerm_eq_ok {m : MultiTerm}
    (h : s.groundStep (.spanMultiTerm m) = .ok o) :
    ∃ ts, expand s.snapshot s.settings.maxClauseCount m = .ok ts ∧
      o = some (.spanOr m.field (ts.map (selectedSpanTerm m))) := by
  rw [groundStep] at h
  obtain ⟨q, hq, rfl⟩ := except_map_eq_ok.1 h
  obtain ⟨ts, hts, hunion⟩ := except_bind_eq_ok.1 hq
  exact ⟨ts, hts, congrArg some (Query.spanUnion_eq_ok.1 hunion).2⟩

theorem groundStep_deferred_eq_ok {plan : Plan} (h : s.groundStep (.deferred q plan) = .ok o) :
    ∃ o' r, s.groundStep q = .ok o' ∧ settle q plan o' = .ok r ∧ o = some r := by
  rw [groundStep] at h
  obtain ⟨o', ho', h⟩ := except_bind_eq_ok.1 h
  obtain ⟨r, hr, rfl⟩ := except_map_eq_ok.1 h
  exact ⟨o', r, ho', hr, rfl⟩

theorem groundStep_boost_eq_ok {factor : Single} (h : s.groundStep (.boost q factor) = .ok o) :
    ∃ o', s.groundStep q = .ok o' ∧ o = o'.map (Query.boost · factor) := by
  rw [groundStep] at h
  obtain ⟨o', ho', h⟩ := except_bind_eq_ok.1 h
  cases h
  exact ⟨o', ho', rfl⟩

theorem groundStep_boolean_eq_ok {clauses : List (Occur × Query)}
    (h : s.groundStep (.boolean clauses) = .ok o) :
    ∃ o', changeAll (changeClause s.groundStep) clauses = .ok o' ∧ o = o'.map Query.boolean := by
  rw [groundStep_boolean] at h
  obtain ⟨o', ho', h⟩ := except_bind_eq_ok.1 h
  cases h
  exact ⟨o', ho', rfl⟩

theorem groundStep_spanOr_eq_ok {field : String} {qs : List Query}
    (h : s.groundStep (.spanOr field qs) = .ok o) :
    ∃ o', changeAll s.groundStep qs = .ok o' ∧ o = o'.map (Query.spanOr field) := by
  rw [groundStep_spanOr] at h
  obtain ⟨o', ho', hbuilt⟩ := rebuilt_eq_ok h rfl fun _ => rfl
  exact ⟨o', ho', eq_map_of_rel hbuilt fun _ _ hr => (Query.spanUnion_eq_ok.1 hr).2⟩

/-- A proximity query takes its field anew from the operands when these change. -/
theorem groundStep_spanNear_eq_ok {field : String} {qs : List Query} {slop : UInt32}
    {inOrder : Bool} (h : s.groundStep (.spanNear field qs slop inOrder) = .ok o) :
    ∃ o', changeAll s.groundStep qs = .ok o' ∧
      Option.Rel (fun qs' r => qs' ≠ [] ∧ ∃ field', (∀ q ∈ qs', q.spanField? = some field') ∧
        r = .spanNear field' qs' slop inOrder) o' o := by
  rw [groundStep_spanNear] at h
  obtain ⟨o', ho', hbuilt⟩ := rebuilt_eq_ok h rfl fun _ => rfl
  refine ⟨o', ho', ?_⟩
  cases hbuilt with
  | none => exact .none
  | some hr => exact .some (Query.spanProximity_eq_ok.1 hr)

theorem groundStep_withoutPayload_eq_ok (h : s.groundStep (.withoutPayload q) = .ok o) :
    ∃ o', s.groundStep q = .ok o' ∧ o = o'.map Query.withoutPayload := by
  rw [groundStep] at h
  obtain ⟨o', ho', hbuilt⟩ := rebuilt_eq_ok h rfl fun _ => rfl
  exact ⟨o', ho', eq_map_of_rel hbuilt fun _ _ hr => (Query.exactSpan_eq_ok.1 hr).2⟩

theorem groundStep_frequentSpan_eq_ok {least : Threshold}
    (h : s.groundStep (.frequentSpan q least) = .ok o) :
    ∃ o', s.groundStep q = .ok o' ∧ o = o'.map (Query.frequentSpan · least) := by
  rw [groundStep] at h
  obtain ⟨o', ho', hbuilt⟩ := rebuilt_eq_ok h rfl fun _ => rfl
  exact ⟨o', ho', eq_map_of_rel hbuilt fun _ _ hr => (Query.spanAtLeast_eq_ok.1 hr).2⟩

/-- Queries without parts that select nothing are left as they are. -/
theorem groundStep_atom (s : Searcher) (hq : q.isAtom = true) (hselects : q.isSelection = false) :
    s.groundStep q = .ok none := by
  cases q with
  | multiTerm => cases hselects
  | spanMultiTerm => cases hselects
  | boost => cases hq
  | boolean => cases hq
  | spanOr => cases hq
  | spanNear => cases hq
  | withoutPayload => cases hq
  | frequentSpan => cases hq
  | deferred => cases hq
  | _ => rfl

end Steps

/-! ### Steps from a query to another -/

/-- One step of grounding leads from a query to another, or leaves it as it is. -/
abbrev StepsTo (s : Searcher) : Query → Query → Prop := LeadsTo s.groundStep

theorem StepsTo.multiTerm {m : MultiTerm} {r : Query} (h : s.StepsTo (.multiTerm m) r) :
    ∃ ts, expand s.snapshot s.settings.maxClauseCount m = .ok ts ∧ r = expansion m ts := by
  obtain ⟨o, ho, rfl⟩ := h
  obtain ⟨ts, hts, rfl⟩ := groundStep_multiTerm_eq_ok ho
  exact ⟨ts, hts, rfl⟩

theorem StepsTo.spanMultiTerm {m : MultiTerm} {r : Query} (h : s.StepsTo (.spanMultiTerm m) r) :
    ∃ ts, expand s.snapshot s.settings.maxClauseCount m = .ok ts ∧
      r = .spanOr m.field (ts.map (selectedSpanTerm m)) := by
  obtain ⟨o, ho, rfl⟩ := h
  obtain ⟨ts, hts, rfl⟩ := groundStep_spanMultiTerm_eq_ok ho
  exact ⟨ts, hts, rfl⟩

/-- Binding a deferred query gives the query inside when a step leaves that the same, and
otherwise what the plan makes of the result. -/
theorem StepsTo.deferred {q : Query} {plan : Plan} {r : Query} (h : s.StepsTo (.deferred q plan) r) :
    ∃ next, s.StepsTo q next ∧ (next.same q = true ∧ r = q ∨ plan.Rewrites next r) := by
  obtain ⟨o, ho, rfl⟩ := h
  obtain ⟨o', r, ho', hr, rfl⟩ := groundStep_deferred_eq_ok ho
  refine ⟨o'.getD q, ⟨o', ho', rfl⟩, ?_⟩
  cases o' with
  | none =>
    cases hr
    exact .inr .refl
  | some next =>
    rw [settle] at hr
    split at hr
    · next hsame =>
      cases hr
      exact .inl ⟨hsame, rfl⟩
    · exact .inr (Plan.rewrites_of_traversed hr)

theorem StepsTo.boost {q : Query} {factor : Single} {r : Query} (h : s.StepsTo (.boost q factor) r) :
    ∃ q', r = .boost q' factor ∧ s.StepsTo q q' := by
  obtain ⟨o, ho, rfl⟩ := h
  obtain ⟨o', ho', rfl⟩ := groundStep_boost_eq_ok ho
  exact ⟨o'.getD q, Option.getD_map .., o', ho', rfl⟩

theorem StepsTo.boolean {clauses : List (Occur × Query)} {r : Query}
    (h : s.StepsTo (.boolean clauses) r) :
    ∃ clauses', r = .boolean clauses' ∧
      List.Forall₂ (fun c c' => c'.1 = c.1 ∧ s.StepsTo c.2 c'.2) clauses clauses' := by
  obtain ⟨o, ho, rfl⟩ := h
  obtain ⟨o', ho', rfl⟩ := groundStep_boolean_eq_ok ho
  exact ⟨o'.getD clauses, Option.getD_map .., (forall₂_of_changeAll ho').imp fun _ _ hc => hc.clause⟩

theorem StepsTo.spanOr {field : String} {qs : List Query} {r : Query}
    (h : s.StepsTo (.spanOr field qs) r) :
    ∃ qs', r = .spanOr field qs' ∧ List.Forall₂ s.StepsTo qs qs' := by
  obtain ⟨o, ho, rfl⟩ := h
  obtain ⟨o', ho', rfl⟩ := groundStep_spanOr_eq_ok ho
  exact ⟨o'.getD qs, Option.getD_map .., forall₂_of_changeAll ho'⟩

theorem StepsTo.spanNear {field : String} {qs : List Query} {slop : UInt32} {inOrder : Bool}
    {r : Query} (h : s.StepsTo (.spanNear field qs slop inOrder) r) :
    ∃ field' qs', r = .spanNear field' qs' slop inOrder ∧ List.Forall₂ s.StepsTo qs qs' ∧
      (field' = field ∨ qs' ≠ [] ∧ ∀ q ∈ qs', q.spanField? = some field') := by
  obtain ⟨o, ho, rfl⟩ := h
  obtain ⟨o', ho', hbuilt⟩ := groundStep_spanNear_eq_ok ho
  have hqs := forall₂_of_changeAll ho'
  cases hbuilt with
  | none => exact ⟨field, qs, rfl, hqs, .inl rfl⟩
  | some hr =>
    obtain ⟨hsome, field', hfields, rfl⟩ := hr
    exact ⟨field', _, rfl, hqs, .inr ⟨hsome, hfields⟩⟩

theorem StepsTo.withoutPayload {q r : Query} (h : s.StepsTo (.withoutPayload q) r) :
    ∃ q', r = .withoutPayload q' ∧ s.StepsTo q q' := by
  obtain ⟨o, ho, rfl⟩ := h
  obtain ⟨o', ho', rfl⟩ := groundStep_withoutPayload_eq_ok ho
  exact ⟨o'.getD q, Option.getD_map .., o', ho', rfl⟩

theorem StepsTo.frequentSpan {q r : Query} {least : Threshold}
    (h : s.StepsTo (.frequentSpan q least) r) :
    ∃ q', r = .frequentSpan q' least ∧ s.StepsTo q q' := by
  obtain ⟨o, ho, rfl⟩ := h
  obtain ⟨o', ho', rfl⟩ := groundStep_frequentSpan_eq_ok ho
  exact ⟨o'.getD q, Option.getD_map .., o', ho', rfl⟩

theorem StepsTo.atom {q r : Query} (hq : q.isAtom = true) (hselects : q.isSelection = false)
    (h : s.StepsTo q r) : r = q := by
  obtain ⟨o, ho, rfl⟩ := h
  rw [groundStep_atom s hq hselects] at ho
  cases ho
  rfl

/-- What a step leads to may be grounded instead. -/
theorem StepsTo.grounds {q q' r : Query} (hstep : s.StepsTo q q') (h : s.Grounds q' r) :
    s.Grounds q r := by
  obtain ⟨o, ho, rfl⟩ := hstep
  cases o with
  | none => exact h
  | some q' => exact .step ho h

/-! ### Parts of queries -/

/-- A query around another one is grounded by grounding the other one. -/
theorem Grounds.inside (wrap : Query → Query)
    (hwrap : ∀ q o, s.groundStep (wrap q) = .ok o → ∃ o', s.groundStep q = .ok o' ∧ o = o'.map wrap)
    {q r : Query} (h : s.Grounds (wrap q) r) : ∃ q', r = wrap q' ∧ s.Grounds q q' := by
  generalize hq : wrap q = given at h
  induction h generalizing q with
  | done hstep =>
    subst hq
    obtain ⟨o', ho', hnone⟩ := hwrap _ _ hstep
    cases o' with
    | none => exact ⟨q, rfl, .done ho'⟩
    | some q' => cases hnone
  | step hstep hrest ih =>
    subst hq
    obtain ⟨o', ho', hsome⟩ := hwrap _ _ hstep
    cases o' with
    | none => cases hsome
    | some q' =>
      cases hsome
      obtain ⟨q'', hr, hq''⟩ := ih rfl
      exact ⟨q'', hr, .step ho' hq''⟩

theorem Grounds.boost {q r : Query} {factor : Single} (h : s.Grounds (.boost q factor) r) :
    ∃ q', r = .boost q' factor ∧ s.Grounds q q' :=
  Grounds.inside (Query.boost · factor) (fun _ _ => groundStep_boost_eq_ok) h

theorem Grounds.withoutPayload {q r : Query} (h : s.Grounds (.withoutPayload q) r) :
    ∃ q', r = .withoutPayload q' ∧ s.Grounds q q' :=
  Grounds.inside .withoutPayload (fun _ _ => groundStep_withoutPayload_eq_ok) h

theorem Grounds.frequentSpan {q r : Query} {least : Threshold}
    (h : s.Grounds (.frequentSpan q least) r) :
    ∃ q', r = .frequentSpan q' least ∧ s.Grounds q q' :=
  Grounds.inside (Query.frequentSpan · least) (fun _ _ => groundStep_frequentSpan_eq_ok) h

/-- A query made of a list of parts is grounded by grounding the parts one by one. `Parts` relates
lists of parts, and `Made` says what queries are made of them. -/
theorem Grounds.insideAll {α : Type} (step : α → Except Fault (Option α)) (Part : α → α → Prop)
    (hdone : ∀ a, step a = .ok none → Part a a)
    (hhead : ∀ a b c, LeadsTo step a b → Part b c → Part a c) (Made : List α → Query → Prop)
    (hmade : ∀ parts given o, Made parts given → s.groundStep given = .ok o →
      ∃ o', changeAll step parts = .ok o' ∧ Option.Rel Made o' o)
    {parts : List α} {given r : Query} (hgiven : Made parts given) (h : s.Grounds given r) :
    ∃ parts', Made parts' r ∧ List.Forall₂ Part parts parts' := by
  induction h generalizing parts with
  | done hstep =>
    obtain ⟨o', ho', hrel⟩ := hmade _ _ _ hgiven hstep
    cases hrel
    exact ⟨parts, hgiven, List.forall₂_same.2 fun a ha => hdone a (changeAll_eq_none ho' a ha)⟩
  | step hstep hrest ih =>
    obtain ⟨o', ho', hrel⟩ := hmade _ _ _ hgiven hstep
    cases hrel with
    | some hnext =>
      obtain ⟨parts'', hr, hall⟩ := ih hnext
      exact ⟨parts'', hr, forall₂_comp hhead (forall₂_of_changeAll ho') hall⟩

/-- Queries are grounded one by one. -/
abbrev GroundsAll (s : Searcher) : List Query → List Query → Prop := List.Forall₂ s.Grounds

theorem rel_map {α β : Type} {P : α → β → Prop} {f : α → β} {o : Option α} (hP : ∀ a, P a (f a)) :
    Option.Rel P o (o.map f) := by
  cases o with
  | none => exact .none
  | some a => exact .some (hP a)

theorem Grounds.spanOr {field : String} {qs : List Query} {r : Query}
    (h : s.Grounds (.spanOr field qs) r) : ∃ qs', r = .spanOr field qs' ∧ s.GroundsAll qs qs' := by
  refine Grounds.insideAll s.groundStep s.Grounds (fun _ => .done) (fun _ _ _ => StepsTo.grounds)
    (fun qs r => r = .spanOr field qs) ?_ rfl h
  rintro qs _ o rfl hstep
  obtain ⟨o', ho', rfl⟩ := groundStep_spanOr_eq_ok hstep
  exact ⟨o', ho', rel_map fun _ => rfl⟩

theorem Grounds.spanNear {field : String} {qs : List Query} {slop : UInt32} {inOrder : Bool}
    {r : Query} (h : s.Grounds (.spanNear field qs slop inOrder) r) :
    ∃ qs', (∃ field', r = .spanNear field' qs' slop inOrder) ∧ s.GroundsAll qs qs' := by
  refine Grounds.insideAll s.groundStep s.Grounds (fun _ => .done) (fun _ _ _ => StepsTo.grounds)
    (fun qs r => ∃ field, r = .spanNear field qs slop inOrder) ?_ ⟨field, rfl⟩ h
  rintro qs _ o ⟨field, rfl⟩ hstep
  obtain ⟨o', ho', hbuilt⟩ := groundStep_spanNear_eq_ok hstep
  refine ⟨o', ho', ?_⟩
  cases hbuilt with
  | none => exact .none
  | some hr =>
    obtain ⟨-, field', -, rfl⟩ := hr
    exact .some ⟨field', rfl⟩

/-- Clauses are grounded one by one. -/
abbrev GroundsClauses (s : Searcher) : List (Occur × Query) → List (Occur × Query) → Prop :=
  List.Forall₂ fun c c' => c.1 = c'.1 ∧ s.Grounds c.2 c'.2

theorem Grounds.boolean {clauses : List (Occur × Query)} {r : Query}
    (h : s.Grounds (.boolean clauses) r) :
    ∃ clauses', r = .boolean clauses' ∧ s.GroundsClauses clauses clauses' := by
  refine Grounds.insideAll (changeClause s.groundStep)
    (fun c c' => c.1 = c'.1 ∧ s.Grounds c.2 c'.2)
    (fun c hc => ⟨rfl, .done (changeClause_eq_none.1 hc)⟩) (fun a b c hab hbc => ?_)
    (fun clauses r => r = .boolean clauses) ?_ rfl h
  · obtain ⟨hoccur, hstep⟩ := hab.clause
    exact ⟨hoccur.symm.trans hbc.1, StepsTo.grounds hstep hbc.2⟩
  · rintro clauses _ o rfl hstep
    obtain ⟨o', ho', rfl⟩ := groundStep_boolean_eq_ok hstep
    exact ⟨o', ho', rel_map fun _ => rfl⟩

/-! ### Selections and deferred queries -/

/-- A term of a selection, as it is expanded, is left as it is. -/
theorem groundStep_selectedTerm (s : Searcher) (m : MultiTerm) (t : Term) :
    s.groundStep (selectedTerm m t) = .ok none := by
  rw [selectedTerm]
  cases m.least <;> rfl

theorem groundStep_selectedSpanTerm (s : Searcher) (m : MultiTerm) (t : Term) :
    s.groundStep (selectedSpanTerm m t) = .ok none := by
  rw [selectedSpanTerm]
  cases m.least <;> rfl

/-- Clauses that a step leaves as they are make a combination that it leaves as it is. -/
theorem groundStep_boolean_map {f : Term → Query} (hf : ∀ t, s.groundStep (f t) = .ok none)
    (ts : List Term) :
    s.groundStep (.boolean (ts.map fun t => (.should, f t))) = .ok none := by
  have hclauses : changeAll (changeClause s.groundStep) (ts.map fun t => (.should, f t)) =
      .ok none := by
    refine changeAll_of_none fun c hc => changeClause_eq_none.2 ?_
    obtain ⟨t, -, rfl⟩ := List.mem_map.1 hc
    exact hf t
  rw [groundStep_boolean, hclauses]
  rfl

theorem groundStep_expansion (s : Searcher) (m : MultiTerm) (ts : List Term) :
    s.groundStep (expansion m ts) = .ok none := by
  rw [expansion]
  split
  · rfl
  · exact groundStep_boolean_map (groundStep_selectedTerm s m) ts

theorem groundStep_spanExpansion (s : Searcher) (m : MultiTerm) (ts : List Term) :
    s.groundStep (.spanOr m.field (ts.map (selectedSpanTerm m))) = .ok none := by
  have hclauses : changeAll s.groundStep (ts.map (selectedSpanTerm m)) = .ok none := by
    refine changeAll_of_none fun q hq => ?_
    obtain ⟨t, -, rfl⟩ := List.mem_map.1 hq
    exact groundStep_selectedSpanTerm s m t
  rw [groundStep_spanOr, hclauses]
  rfl

theorem Grounds.multiTerm {m : MultiTerm} {r : Query} (h : s.Grounds (.multiTerm m) r) :
    ∃ ts, expand s.snapshot s.settings.maxClauseCount m = .ok ts ∧ r = expansion m ts := by
  cases h with
  | done hstep =>
    obtain ⟨_, -, hnone⟩ := groundStep_multiTerm_eq_ok hstep
    cases hnone
  | step hstep hrest =>
    obtain ⟨ts, hts, hsome⟩ := groundStep_multiTerm_eq_ok hstep
    cases hsome
    exact ⟨ts, hts, hrest.eq_of_done (groundStep_expansion s m ts)⟩

theorem Grounds.spanMultiTerm {m : MultiTerm} {r : Query} (h : s.Grounds (.spanMultiTerm m) r) :
    ∃ ts, expand s.snapshot s.settings.maxClauseCount m = .ok ts ∧
      r = .spanOr m.field (ts.map (selectedSpanTerm m)) := by
  cases h with
  | done hstep =>
    obtain ⟨_, -, hnone⟩ := groundStep_spanMultiTerm_eq_ok hstep
    cases hnone
  | step hstep hrest =>
    obtain ⟨ts, hts, hsome⟩ := groundStep_spanMultiTerm_eq_ok hstep
    cases hsome
    exact ⟨ts, hts, hrest.eq_of_done (groundStep_spanExpansion s m ts)⟩

theorem Grounds.deferred {q : Query} {plan : Plan} {r : Query}
    (h : s.Grounds (.deferred q plan) r) :
    ∃ o q', s.groundStep q = .ok o ∧ settle q plan o = .ok q' ∧ s.Grounds q' r := by
  cases h with
  | done hstep =>
    obtain ⟨_, _, -, -, hnone⟩ := groundStep_deferred_eq_ok hstep
    cases hnone
  | step hstep hrest =>
    obtain ⟨o, _, ho, hq', hsome⟩ := groundStep_deferred_eq_ok hstep
    cases hsome
    exact ⟨o, _, ho, hq', hrest⟩

theorem same_expansion (m : MultiTerm) (ts : List Term) :
    (expansion m ts).same (.multiTerm m) = false := by
  rw [expansion]
  split <;> rfl

/-- A selection is grounded by expanding it. -/
theorem grounds_expansion {m : MultiTerm} {ts : List Term}
    (h : expand s.snapshot s.settings.maxClauseCount m = .ok ts) :
    s.Grounds (.multiTerm m) (expansion m ts) := by
  refine .step ?_ (.done (groundStep_expansion s m ts))
  rw [groundStep, expandTerms, h]
  rfl

/-- A deferred selection is grounded by carrying out the plan on its expansion. -/
theorem Grounds.deferred_multiTerm {m : MultiTerm} {plan : Plan} {r : Query}
    (h : s.Grounds (.deferred (.multiTerm m) plan) r) :
    ∃ ts q', expand s.snapshot s.settings.maxClauseCount m = .ok ts ∧
      plan.traversed (expansion m ts) = .ok q' ∧ s.Grounds q' r := by
  obtain ⟨o, q', hstep, hsettle, hr⟩ := h.deferred
  obtain ⟨ts, hts, rfl⟩ := groundStep_multiTerm_eq_ok hstep
  rw [settle, same_expansion, if_neg Bool.false_ne_true] at hsettle
  exact ⟨ts, q', hts, hsettle, hr⟩

end Searcher

/-! ### Carried lookups -/

theorem append_subset_append {α : Type} {as as' bs bs' : List α} (ha : as ⊆ as') (hb : bs ⊆ bs') :
    as ++ bs ⊆ as' ++ bs' :=
  List.append_subset.2 ⟨List.subset_append_of_subset_left _ ha,
    List.subset_append_of_subset_right _ hb⟩

namespace Query

theorem carriedByClauses_eq_flatMap (clauses : List (Occur × Query)) :
    carriedByClauses clauses = clauses.flatMap fun c => c.2.carriedLookups := by
  induction clauses with
  | nil => rfl
  | cons c clauses ih => rw [List.flatMap_cons, ← ih]; rfl

theorem carriedByAll_eq_flatMap (qs : List Query) :
    carriedByAll qs = qs.flatMap carriedLookups := by
  induction qs with
  | nil => rfl
  | cons q qs ih => rw [List.flatMap_cons, ← ih]; rfl

end Query

namespace Plan

variable {p : Plan}

theorem carriedLookups_exactForm (p : Plan) (q : Query) (t : Term) (fromPhrase : Bool) :
    (p.exactForm q t fromPhrase).carriedLookups ⊆ q.carriedLookups := by
  rcases p.exactForm_cases q t fromPhrase with h | ⟨factor, h⟩ <;> rw [h]
  · exact List.nil_subset _
  · refine List.append_subset.2 ⟨List.Subset.refl _, ?_⟩
    exact List.append_subset.2 ⟨List.nil_subset _, List.nil_subset _⟩

/-- A rule brings no lookups into a query. -/
theorem Change.carriedLookups {r : Rule} {q q' : Query} (h : p.Change r q q') :
    q'.carriedLookups ⊆ q.carriedLookups := by
  cases h with
  | term => exact p.carriedLookups_exactForm ..
  | markedTerm => exact p.carriedLookups_exactForm ..
  | defer => exact List.Subset.refl _
  | _ => exact List.nil_subset _

theorem Step.carriedLookups {q q' : Query} (h : p.Step q q') :
    q'.carriedLookups ⊆ q.carriedLookups := by
  induction h with
  | node _ hchange _ => exact hchange.carriedLookups
  | boost _ _ ih => exact ih
  | clause before o after _ ih =>
    simp only [Query.carriedLookups, Query.carriedByClauses_eq_flatMap, List.flatMap_append,
      List.flatMap_cons]
    exact append_subset_append (List.Subset.refl _)
      (append_subset_append ih (List.Subset.refl _))

theorem Rewrites.carriedLookups {q q' : Query} (h : p.Rewrites q q') :
    q'.carriedLookups ⊆ q.carriedLookups := by
  induction h with
  | refl => exact List.Subset.refl _
  | tail _ hstep ih => exact List.Subset.trans hstep.carriedLookups ih

end Plan

namespace Searcher

variable {s : Searcher}

theorem carriedLookups_selectedTerm (m : MultiTerm) (t : Term) :
    (selectedTerm m t).carriedLookups = [] := by
  rw [selectedTerm]
  cases m.least <;> rfl

theorem carriedLookups_selectedSpanTerm (m : MultiTerm) (t : Term) :
    (selectedSpanTerm m t).carriedLookups = [] := by
  rw [selectedSpanTerm]
  cases m.least <;> rfl

theorem carriedLookups_expansion (m : MultiTerm) (ts : List Term) :
    (expansion m ts).carriedLookups = [] := by
  rw [expansion]
  split
  · rfl
  · rw [Query.carriedLookups, Query.carriedByClauses_eq_flatMap, List.flatMap_map]
    exact List.flatMap_eq_nil_iff.2 fun t _ => carriedLookups_selectedTerm m t

theorem flatMap_subset_of_forall₂ {α β : Type} {P : α → α → Prop} {f : α → List β} {as bs : List α}
    (h : List.Forall₂ P as bs) (hP : ∀ a ∈ as, ∀ b, P a b → f b ⊆ f a) :
    bs.flatMap f ⊆ as.flatMap f := by
  intro x hx
  obtain ⟨b, hb, hxb⟩ := List.mem_flatMap.1 hx
  obtain ⟨a, ha, hab⟩ := exists_mem_of_forall₂ h hb
  exact List.mem_flatMap.2 ⟨a, ha, hP a ha b hab hxb⟩

/-- A step of grounding brings no lookups into a query. -/
theorem StepsTo.carriedLookups {q r : Query} (h : s.StepsTo q r) :
    r.carriedLookups ⊆ q.carriedLookups := by
  induction q using Query.byParts generalizing r with
  | hboost q factor ih =>
    obtain ⟨q', rfl, hq'⟩ := h.boost
    exact ih (r := q') hq'
  | hboolean clauses ih =>
    obtain ⟨clauses', rfl, hclauses⟩ := h.boolean
    rw [Query.carriedLookups, Query.carriedLookups, Query.carriedByClauses_eq_flatMap,
      Query.carriedByClauses_eq_flatMap]
    exact flatMap_subset_of_forall₂ hclauses fun c hc c' hstep => ih c hc hstep.2
  | hspanOr field qs ih =>
    obtain ⟨qs', rfl, hqs⟩ := h.spanOr
    rw [Query.carriedLookups, Query.carriedLookups, Query.carriedByAll_eq_flatMap,
      Query.carriedByAll_eq_flatMap]
    exact flatMap_subset_of_forall₂ hqs fun q hq q' hstep => ih q hq hstep
  | hspanNear field qs slop inOrder ih =>
    obtain ⟨field', qs', rfl, hqs, -⟩ := h.spanNear
    rw [Query.carriedLookups, Query.carriedLookups, Query.carriedByAll_eq_flatMap,
      Query.carriedByAll_eq_flatMap]
    exact flatMap_subset_of_forall₂ hqs fun q hq q' hstep => ih q hq hstep
  | hwithoutPayload q ih =>
    obtain ⟨q', rfl, hq'⟩ := h.withoutPayload
    exact ih (r := q') hq'
  | hfrequentSpan q least ih =>
    obtain ⟨q', rfl, hq'⟩ := h.frequentSpan
    exact ih (r := q') hq'
  | hdeferred q plan ih =>
    obtain ⟨next, hnext, ⟨-, rfl⟩ | hrewrites⟩ := h.deferred
    · exact List.Subset.refl _
    · exact List.Subset.trans (Plan.Rewrites.carriedLookups hrewrites) (ih hnext)
  | hatom q hq =>
    by_cases hselects : q.isSelection = false
    · rw [h.atom hq hselects]
      exact List.Subset.refl _
    · cases q with
      | multiTerm m =>
        obtain ⟨ts, -, rfl⟩ := h.multiTerm
        rw [carriedLookups_expansion]
        exact List.nil_subset _
      | spanMultiTerm m =>
        obtain ⟨ts, -, rfl⟩ := h.spanMultiTerm
        rw [Query.carriedLookups, Query.carriedByAll_eq_flatMap, List.flatMap_map,
          List.flatMap_eq_nil_iff.2 fun t _ => carriedLookups_selectedSpanTerm m t]
        exact List.nil_subset _
      | _ => exact absurd rfl hselects

/-- Grounding keeps the lookups that a query carries along honest. -/
theorem Grounds.honest {q r : Query} (h : s.Grounds q r) (hq : q.Honest s.snapshot) :
    r.Honest s.snapshot := by
  induction h with
  | done => exact hq
  | step hstep _ ih =>
    have hkeeps := StepsTo.carriedLookups ⟨_, hstep, rfl⟩
    exact ih fun l hl => hq l (hkeeps hl)

end Searcher

end TextSearch
