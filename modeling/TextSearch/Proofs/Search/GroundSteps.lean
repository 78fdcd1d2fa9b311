import TextSearch.Proofs.Plan.Keeping
import TextSearch.Proofs.Query.Equality
import TextSearch.Proofs.Search.Grounding

/-!
# Single steps of grounding

What one step of grounding can lead to, node by node, and what follows for the whole
query. After one step nothing is selected any more, and one deferral less lies on
every path; what can be built stays so, and a span query stays on its field. The plan of
a deferred query is carried out if and only if something is selected in it.
-/

namespace TextSearch

namespace Searcher

variable {s : Searcher}

/-! ### Selections and deferrals -/

theorem selects_expansion (m : MultiTerm) (ts : List Term) :
    (expansion m ts).hasNode Query.isSelection = false := by
  rw [expansion]
  split
  · rfl
  · refine (Query.hasNode_boolean rfl).2 fun c hc => ?_
    obtain ⟨t, -, rfl⟩ := List.mem_map.1 hc
    change (selectedTerm m t).hasNode Query.isSelection = false
    rw [selectedTerm]
    cases m.least <;> rfl

theorem deferralDepth_expansion (m : MultiTerm) (ts : List Term) :
    (expansion m ts).deferralDepth = 0 := by
  rw [expansion]
  split
  · rfl
  · refine Nat.le_zero.1 (Query.clausesDeferralDepth_le_iff.2 fun c hc => ?_)
    obtain ⟨t, -, rfl⟩ := List.mem_map.1 hc
    change (selectedTerm m t).deferralDepth ≤ 0
    rw [selectedTerm]
    cases m.least <;> exact Nat.le_refl 0

theorem isAtom_selectedSpanTerm (m : MultiTerm) (t : Term) :
    (selectedSpanTerm m t).isAtom = true := by
  rw [selectedSpanTerm]
  cases m.least <;> rfl

theorem spanField?_selectedSpanTerm (m : MultiTerm) (t : Term) :
    (selectedSpanTerm m t).spanField? = some t.field := by
  rw [selectedSpanTerm]
  cases m.least <;> rfl

theorem built_expansion (m : MultiTerm) (ts : List Term) : (expansion m ts).Built := by
  rw [expansion]
  split
  · exact .atom rfl
  · refine .boolean fun c hc => ?_
    obtain ⟨t, -, rfl⟩ := List.mem_map.1 hc
    change (selectedTerm m t).Built
    rw [selectedTerm]
    cases m.least <;> exact .atom rfl

/-- A step replaces every selection by its terms. -/
theorem StepsTo.selects {q r : Query} (h : s.StepsTo q r) :
    r.hasNode Query.isSelection = false := by
  induction q using Query.byParts generalizing r with
  | hboost q factor ih =>
    obtain ⟨q', rfl, hq'⟩ := h.boost
    exact ih (r := q') hq'
  | hboolean clauses ih =>
    obtain ⟨clauses', rfl, hclauses⟩ := h.boolean
    refine (Query.hasNode_boolean rfl).2 fun c' hc' => ?_
    obtain ⟨c, hc, -, hstep⟩ := exists_mem_of_forall₂ hclauses hc'
    exact ih c hc hstep
  | hspanOr field qs ih =>
    obtain ⟨qs', rfl, hqs⟩ := h.spanOr
    refine (Query.hasNode_spanOr rfl).2 fun q' hq' => ?_
    obtain ⟨q, hq, hstep⟩ := exists_mem_of_forall₂ hqs hq'
    exact ih q hq hstep
  | hspanNear field qs slop inOrder ih =>
    obtain ⟨field', qs', rfl, hqs, -⟩ := h.spanNear
    refine (Query.hasNode_spanNear rfl).2 fun q' hq' => ?_
    obtain ⟨q, hq, hstep⟩ := exists_mem_of_forall₂ hqs hq'
    exact ih q hq hstep
  | hwithoutPayload q ih =>
    obtain ⟨q', rfl, hq'⟩ := h.withoutPayload
    exact ih (r := q') hq'
  | hfrequentSpan q least ih =>
    obtain ⟨q', rfl, hq'⟩ := h.frequentSpan
    exact ih (r := q') hq'
  | hdeferred q plan ih =>
    obtain ⟨next, hnext, ⟨hsame, rfl⟩ | hrewrites⟩ := h.deferred
    · rw [Query.selects_congr ((Query.same_iff_essence _ _).1 hsame)]
      exact ih hnext
    · exact Plan.Rewrites.selects hrewrites (ih hnext)
  | hatom q hq =>
    by_cases hselects : q.isSelection = false
    · rw [h.atom hq hselects, Query.hasNode_atom hq, hselects]
    · cases q with
      | multiTerm m =>
        obtain ⟨ts, -, rfl⟩ := h.multiTerm
        exact selects_expansion m ts
      | spanMultiTerm m =>
        obtain ⟨ts, -, rfl⟩ := h.spanMultiTerm
        refine (Query.hasNode_spanOr rfl).2 fun q hq => ?_
        obtain ⟨t, -, rfl⟩ := List.mem_map.1 hq
        rw [selectedSpanTerm]
        cases m.least <;> rfl
      | _ => exact absurd rfl hselects

/-- A step takes one deferral off every path. -/
theorem StepsTo.deferralDepth_le {q r : Query} (h : s.StepsTo q r) {n : Nat}
    (hn : q.deferralDepth ≤ n + 1) : r.deferralDepth ≤ n := by
  induction q using Query.byParts generalizing r with
  | hboost q factor ih =>
    obtain ⟨q', rfl, hq'⟩ := h.boost
    exact ih (r := q') hq' hn
  | hboolean clauses ih =>
    obtain ⟨clauses', rfl, hclauses⟩ := h.boolean
    refine Query.clausesDeferralDepth_le_iff.2 fun c' hc' => ?_
    obtain ⟨c, hc, -, hstep⟩ := exists_mem_of_forall₂ hclauses hc'
    exact ih c hc hstep (Query.clausesDeferralDepth_le_iff.1 hn c hc)
  | hspanOr field qs ih =>
    obtain ⟨qs', rfl, hqs⟩ := h.spanOr
    refine Query.greatestDeferralDepth_le_iff.2 fun q' hq' => ?_
    obtain ⟨q, hq, hstep⟩ := exists_mem_of_forall₂ hqs hq'
    exact ih q hq hstep (Query.greatestDeferralDepth_le_iff.1 hn q hq)
  | hspanNear field qs slop inOrder ih =>
    obtain ⟨field', qs', rfl, hqs, -⟩ := h.spanNear
    refine Query.greatestDeferralDepth_le_iff.2 fun q' hq' => ?_
    obtain ⟨q, hq, hstep⟩ := exists_mem_of_forall₂ hqs hq'
    exact ih q hq hstep (Query.greatestDeferralDepth_le_iff.1 hn q hq)
  | hwithoutPayload q ih =>
    obtain ⟨q', rfl, hq'⟩ := h.withoutPayload
    exact ih (r := q') hq' hn
  | hfrequentSpan q least ih =>
    obtain ⟨q', rfl, hq'⟩ := h.frequentSpan
    exact ih (r := q') hq' hn
  | hdeferred q plan ih =>
    rw [Query.deferralDepth, Nat.add_le_add_iff_right] at hn
    obtain ⟨next, hnext, ⟨-, rfl⟩ | hrewrites⟩ := h.deferred
    · exact hn
    · have hdepth : next.deferralDepth ≤ n := ih hnext (Nat.le_succ_of_le hn)
      exact Nat.le_trans (Plan.Rewrites.deferralDepth_le hrewrites hnext.selects) hdepth
  | hatom q hq =>
    by_cases hselects : q.isSelection = false
    · rw [h.atom hq hselects, Query.deferralDepth_atom hq]
      exact Nat.zero_le n
    · cases q with
      | multiTerm m =>
        obtain ⟨ts, -, rfl⟩ := h.multiTerm
        rw [deferralDepth_expansion]
        exact Nat.zero_le n
      | spanMultiTerm m =>
        obtain ⟨ts, -, rfl⟩ := h.spanMultiTerm
        refine Query.greatestDeferralDepth_le_iff.2 fun q hq => ?_
        obtain ⟨t, -, rfl⟩ := List.mem_map.1 hq
        rw [Query.deferralDepth_atom (isAtom_selectedSpanTerm m t)]
        exact Nat.zero_le n
      | _ => exact absurd rfl hselects

/-! ### Deferred span queries -/

/-- A plan leaves places as they are, so that binding a deferred query for places gives the query
inside, or what a step makes of that. -/
theorem StepsTo.deferred_of_isSpan {q r : Query} {plan : Plan} (h : s.StepsTo (.deferred q plan) r)
    (hspan : ∀ next, s.StepsTo q next → next.isSpan = true) : r = q ∨ s.StepsTo q r := by
  obtain ⟨next, hnext, ⟨-, rfl⟩ | hrewrites⟩ := h.deferred
  · exact .inl rfl
  · rw [Plan.Rewrites.eq_of_isSpan hrewrites (hspan next hnext)]
    exact .inr hnext

/-! ### Queries that can be built -/

theorem ne_nil_of_forall₂ {α β : Type} {P : α → β → Prop} {as : List α} {bs : List β}
    (h : List.Forall₂ P as bs) (has : as ≠ []) : bs ≠ [] := by
  rintro rfl
  exact has (List.forall₂_nil_right_iff.1 h)

/-- A step builds queries only, and a span query stays on its field. -/
theorem StepsTo.built {q r : Query} (h : s.StepsTo q r) (hq : q.Built) :
    r.Built ∧ ∀ field, q.spanField? = some field → r.spanField? = some field := by
  induction hq generalizing r with
  | @atom q hatom =>
    by_cases hselects : q.isSelection = false
    · rw [h.atom hatom hselects]
      exact ⟨.atom hatom, fun _ hfield => hfield⟩
    · cases q with
      | multiTerm m =>
        obtain ⟨ts, -, rfl⟩ := h.multiTerm
        exact ⟨built_expansion m ts, fun _ hfield => by cases hfield⟩
      | spanMultiTerm m =>
        obtain ⟨ts, hts, rfl⟩ := h.spanMultiTerm
        refine ⟨.spanOr (fun q hq => ?_) fun q hq => ?_, fun _ hfield => hfield⟩
        · obtain ⟨t, -, rfl⟩ := List.mem_map.1 hq
          exact .atom (isAtom_selectedSpanTerm m t)
        · obtain ⟨t, ht, rfl⟩ := List.mem_map.1 hq
          rw [spanField?_selectedSpanTerm, field_of_expand hts t ht]
      | _ => exact absurd rfl hselects
  | boost factor _ ih =>
    obtain ⟨q', rfl, hq'⟩ := h.boost
    exact ⟨.boost factor (ih hq').1, fun _ hfield => by cases hfield⟩
  | boolean _ ih =>
    obtain ⟨clauses', rfl, hclauses⟩ := h.boolean
    refine ⟨.boolean fun c' hc' => ?_, fun _ hfield => by cases hfield⟩
    obtain ⟨c, hc, -, hstep⟩ := exists_mem_of_forall₂ hclauses hc'
    exact (ih c hc hstep).1
  | spanOr _ hfields ih =>
    obtain ⟨qs', rfl, hqs⟩ := h.spanOr
    refine ⟨.spanOr (fun q' hq' => ?_) fun q' hq' => ?_, fun _ hfield => hfield⟩
    · obtain ⟨q, hq, hstep⟩ := exists_mem_of_forall₂ hqs hq'
      exact (ih q hq hstep).1
    · obtain ⟨q, hq, hstep⟩ := exists_mem_of_forall₂ hqs hq'
      exact (ih q hq hstep).2 _ (hfields q hq)
  | @spanNear field qs slop inOrder _ hfields hsome ih =>
    obtain ⟨field', qs', rfl, hqs, hfield'⟩ := h.spanNear
    have hbuilt : ∀ q' ∈ qs', q'.Built ∧ q'.spanField? = some field := by
      intro q' hq'
      obtain ⟨q, hq, hstep⟩ := exists_mem_of_forall₂ hqs hq'
      exact ⟨(ih q hq hstep).1, (ih q hq hstep).2 _ (hfields q hq)⟩
    have hsome' : qs' ≠ [] := ne_nil_of_forall₂ hqs hsome
    -- a step that changes an operand finds the field anew; it is the one of the first operand
    have heq : field' = field := by
      rcases hfield' with rfl | ⟨-, hfields'⟩
      · rfl
      · obtain ⟨q', hq'⟩ := List.exists_mem_of_ne_nil qs' hsome'
        have hboth := (hfields' q' hq').symm.trans (hbuilt q' hq').2
        exact Option.some.inj hboth
    subst heq
    exact ⟨.spanNear slop inOrder (fun q' hq' => (hbuilt q' hq').1) (fun q' hq' => (hbuilt q' hq').2)
      hsome', fun _ hfield => hfield⟩
  | withoutPayload _ hfield ih =>
    obtain ⟨q', rfl, hq'⟩ := h.withoutPayload
    exact ⟨.withoutPayload (ih hq').1 ((ih hq').2 _ hfield), (ih hq').2⟩
  | frequentSpan least _ hfield ih =>
    obtain ⟨q', rfl, hq'⟩ := h.frequentSpan
    exact ⟨.frequentSpan least (ih hq').1 ((ih hq').2 _ hfield), (ih hq').2⟩
  | @deferred q plan hq ih =>
    obtain ⟨next, hnext, ⟨-, rfl⟩ | hrewrites⟩ := h.deferred
    · exact ⟨hq, fun _ hfield => hfield⟩
    · refine ⟨hrewrites.built (ih hnext).1, fun field hfield => ?_⟩
      rw [Plan.Rewrites.eq_of_span hrewrites ((ih hnext).2 field hfield)]
      exact (ih hnext).2 field hfield

theorem spanField?_of_steps {qs qs' : List Query} {field : String} (hbuilt : ∀ q ∈ qs, q.Built)
    (hfields : ∀ q ∈ qs, q.spanField? = some field) (hsteps : List.Forall₂ s.StepsTo qs qs') :
    ∀ q' ∈ qs', q'.spanField? = some field := by
  intro q' hq'
  obtain ⟨q, hq, hstep⟩ := exists_mem_of_forall₂ hsteps hq'
  exact (hstep.built (hbuilt q hq)).2 field (hfields q hq)

/-! ### Plans that are carried out -/

open Query

/-- Where nothing is selected a step leaves what can be built the same. -/
theorem StepsTo.same {q r : Query} (h : s.StepsTo q r) (hq : q.Built)
    (hselects : q.hasNode isSelection = false) : r.same q = true := by
  induction hq generalizing r with
  | @atom q hatom =>
    rw [hasNode_atom hatom] at hselects
    rw [h.atom hatom hselects]
    exact same_self q
  | boost factor _ ih =>
    obtain ⟨q', rfl, hq'⟩ := h.boost
    simp [Query.same, peel, ih hq' hselects]
  | boolean _ ih =>
    obtain ⟨clauses', rfl, hclauses⟩ := h.boolean
    refine sameClauses_iff.2 (forall₂_imp_of_mem hclauses fun c hc c' hcc => ?_).flip
    exact ⟨ih c hc hcc.2 ((hasNode_boolean rfl).1 hselects c hc), hcc.1⟩
  | spanOr _ _ ih =>
    obtain ⟨qs', rfl, hqs⟩ := h.spanOr
    have hall : sameAll qs' _ = true := sameAll_iff.2 (forall₂_imp_of_mem hqs fun q hq q' hqq =>
      ih q hq hqq ((hasNode_spanOr rfl).1 hselects q hq)).flip
    simp [Query.same, peel, hall]
  | @spanNear field qs slop inOrder hqs hfields hsome ih =>
    have hfield := (h.built (.spanNear slop inOrder hqs hfields hsome)).2 field rfl
    obtain ⟨field', qs', rfl, hsteps, -⟩ := h.spanNear
    obtain rfl : field' = field := Option.some.inj hfield
    have hall : sameAll qs' qs = true := sameAll_iff.2 (forall₂_imp_of_mem hsteps fun q hq q' hqq =>
      ih q hq hqq ((hasNode_spanNear rfl).1 hselects q hq)).flip
    simp [Query.same, peel, hall]
  | withoutPayload _ _ ih =>
    obtain ⟨q', rfl, hq'⟩ := h.withoutPayload
    exact ih (r := q') hq' hselects
  | frequentSpan least _ _ ih =>
    obtain ⟨q', rfl, hq'⟩ := h.frequentSpan
    simp [Query.same, peel, ih (r := q') hq' hselects]
  | @deferred q plan _ ih =>
    obtain ⟨o, ho, rfl⟩ := h
    obtain ⟨o', r, ho', hr, rfl⟩ := groundStep_deferred_eq_ok ho
    have hself : r = q := by
      cases o' with
      | none =>
        cases hr
        rfl
      | some next =>
        have hsame : next.same q = true := ih ⟨some next, ho', rfl⟩ hselects
        rw [settle, if_pos hsame] at hr
        cases hr
        rfl
    rw [Option.getD_some, hself, ← same_peel]
    exact (same_peel q q).trans (same_self q)

/-- A deferred query in which nothing is selected is what was deferred: its plan is not carried
out. -/
theorem settle_of_not_selects {q : Query} (hq : q.Built) (hselects : q.hasNode isSelection = false)
    (plan : Plan) {o : Option Query} (h : s.groundStep q = .ok o) : settle q plan o = .ok q := by
  cases o with
  | none => rfl
  | some next =>
    have hsame : next.same q = true := StepsTo.same ⟨some next, h, rfl⟩ hq hselects
    rw [settle, if_pos hsame]

/-- The plan of a deferred query in which something is selected is carried out. -/
theorem settle_of_selects {q : Query} (hselects : q.hasNode isSelection = true) (plan : Plan)
    {o : Option Query} (h : s.groundStep q = .ok o) :
    settle q plan o = plan.traversed (o.getD q) := by
  have hstep : s.StepsTo q (o.getD q) := ⟨o, h, rfl⟩
  have hdiffers : (o.getD q).same q ≠ true := fun hsame => by
    rw [selects_congr ((same_iff_essence _ _).1 hsame), hstep.selects] at hselects
    cases hselects
  cases o with
  | none => exact absurd (same_self q) hdiffers
  | some next =>
    rw [Option.getD_some] at hdiffers ⊢
    rw [settle, if_neg hdiffers]

end Searcher

end TextSearch
