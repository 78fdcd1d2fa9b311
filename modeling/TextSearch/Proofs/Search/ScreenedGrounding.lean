import TextSearch.Proofs.Index.Snapshots
import TextSearch.Proofs.Search.Convergence
import TextSearch.Proofs.Search.Screening

/-!
# Grounding with thresholds of one

Grounding a query and the query with thresholds of one put in goes hand in hand: both fail,
or they end with queries of which the second is again the first one with thresholds of one
put in. This holds of every rule that is tried, of every traversal, of every step of
grounding and of a whole run, each from the one before. Main statement:
`Searcher.concur_grounded`.
-/

namespace TextSearch

open Query

section Rebuilding

variable {α β : Type} {R : α → β → Prop}

/-- A query is rebuilt hand in hand with another one if their parts are changed so. -/
theorem concur_rebuilt {S : Query → Query → Prop} {x : Except Fault (Option α)}
    {y : Except Fault (Option β)} {rebuild : Option α → Except Fault (Option Query)}
    {rebuild' : Option β → Except Fault (Option Query)} {build : α → Except Fault Query}
    {build' : β → Except Fault Query} (h : Concur (Option.Rel R) x y)
    (hnone : rebuild none = .ok none) (hnone' : rebuild' none = .ok none)
    (hsome : ∀ a, rebuild (some a) = some <$> build a)
    (hsome' : ∀ b, rebuild' (some b) = some <$> build' b)
    (hbuild : ∀ a b, R a b → Concur S (build a) (build' b)) :
    Concur (Option.Rel S) (x >>= rebuild) (y >>= rebuild') := by
  refine h.bind fun o o' ho => ?_
  cases ho with
  | none =>
    rw [hnone, hnone']
    exact .ok .none
  | some hab =>
    rw [hsome, hsome']
    exact (hbuild _ _ hab).map fun _ _ h => .some h

end Rebuilding

variable {plans : List Plan} {scored : Bool}

/-- What becomes of clauses when thresholds of one are put in. -/
abbrev ScreenedClauses (plans : List Plan) (scored : Bool) :
    List (Occur × Query) → List (Occur × Query) → Prop :=
  List.Forall₂ fun c c' => c.1 = c'.1 ∧
    Screened plans (if c.1 = .mustNot then false else scored) c.2 c'.2

/-- Steps on clauses concur if they do so on the queries. -/
theorem concur_changeClauses {step step' : Query → Except Fault (Option Query)}
    {clauses clauses' : List (Occur × Query)}
    (h : List.Forall₂ (fun c c' => c.1 = c'.1 ∧
      Screened plans (if c.1 = .mustNot then false else scored) c.2 c'.2 ∧
      Concur (Option.Rel (Screened plans (if c.1 = .mustNot then false else scored)))
        (step c.2) (step' c'.2)) clauses clauses') :
    Concur (Option.Rel (ScreenedClauses plans scored)) (changeAll (changeClause step) clauses)
      (changeAll (changeClause step') clauses') := by
  refine concur_changeAll (h.imp ?_)
  rintro ⟨o, q⟩ ⟨o', q'⟩ ⟨rfl, hscreened, hstep⟩
  exact ⟨⟨rfl, hscreened⟩, hstep.map fun _ _ hrel => rel_map_map hrel fun _ _ h => ⟨rfl, h⟩⟩

/-! ### Rules -/

namespace Plan

variable {p : Plan}

/-- A plan that treats a term alike makes of it and of the term with a threshold what differs by
thresholds of one only. -/
theorem TreatsAlike.screened {t : Term} (h : p.TreatsAlike t) :
    Concur (Option.Rel (Screened plans scored)) (p.traverse (.term t))
      (p.traverse (.frequentTerm t .one none)) := by
  rw [TreatsAlike] at h
  generalize p.traverse (.term t) = x at h
  generalize hy : p.traverse (.frequentTerm t .one none) = y at h
  cases h with
  | error e e' => exact .error e e'
  | ok hrel =>
    cases hrel with
    | none => exact .ok .none
    | @some q q' hor =>
      rcases hor with rfl | rfl
      · exact .ok (.some (.refl plans scored q'))
      · have htraversed : p.traversed (.frequentTerm t .one none) = .ok (.frequentSpan q .one) := by
          rw [traversed, hy]
          rfl
        rcases Rewrites.frequentTerm (rewrites_of_traversed htraversed) with hq | hq
        · cases hq
        · cases hq
          exact .ok (.some (.atLeastOne rfl (fun _ => rfl) (.refl plans false _)))

end Plan

/-! ### Traversals -/

/-- Queries with thresholds of one put in, in which nothing is selected. -/
def Expanded (plans : List Plan) (scored : Bool) (q q' : Query) : Prop :=
  Screened plans scored q q' ∧ q.hasNode isSelection = false

namespace Plan

variable {p : Plan}

theorem expanded_of_screened {depth : Nat} {q : Query} (hq : q.hasNode isSelection = false)
    {y : Except Fault (Option Query)}
    (h : Concur (Option.Rel (Screened plans scored)) (p.traverseTo depth q) y) :
    Concur (Option.Rel (Expanded plans scored)) (p.traverseTo depth q) y := by
  refine h.mono_of_ok fun o o' ho hrel => ?_
  cases hrel with
  | none => exact .none
  | some hscreened =>
    exact .some ⟨hscreened, Rewrites.selects (rewriting_traverseTo p depth q _ ho) hq⟩

/-- Boosts are handed from rule to rule hand in hand if what is inside is traversed so. -/
theorem concur_hand {inner : Query → Except Fault (Option Query)}
    (hinner : ∀ {q q'}, Expanded plans scored q q' →
      Concur (Option.Rel (Expanded plans scored)) (inner q) (inner q'))
    (given given' : Query) (factor : Single) (passes i : Nat) {q q' : Query}
    (h : Expanded plans scored q q') :
    Concur (Option.Rel (Screened plans scored))
      (p.hand inner given passes (i, .throughBoost) (.boost q factor))
      (p.hand inner given' passes (i, .throughBoost) (.boost q' factor)) := by
  induction passes generalizing i q q' with
  | zero => exact .error _ _
  | succ passes ih =>
    have happly : Concur (Option.Rel fun a b => ∃ r r', a = .boost r factor ∧ b = .boost r' factor ∧
        Expanded plans scored r r') (p.apply inner .throughBoost (.boost q factor))
          (p.apply inner .throughBoost (.boost q' factor)) :=
      (hinner h).map fun _ _ hrel => rel_map_map hrel fun r r' hr => ⟨r, r', rfl, rfl, hr⟩
    rw [hand, hand]
    refine happly.bind fun o o' hrel => ?_
    cases hrel with
    | none => exact .ok .none
    | some hnext =>
      obtain ⟨r, r', rfl, rfl, hr⟩ := hnext
      have hfind : p.find? (some i) (.boost r' factor) = p.find? (some i) (.boost r factor) :=
        find?_congr (fun rule => by cases rule <;> rfl) _
      simp only [hfind]
      rcases p.find?_boost (some i) r factor with hfound | ⟨j, hfound⟩
      · rw [hfound]
        exact .ok (.some (.boost factor hr.1))
      · rw [hfound]
        exact (ih j hr).bind fun _ _ hlast => .ok (.some (rel_getD hlast (.boost factor hr.1)))

/-- A plan that is carried out around both is traversed hand in hand. -/
theorem concur_traverseTo (hp : p ∈ plans) (depth : Nat) {scored : Bool} {q q' : Query}
    (h : Expanded plans scored q q') :
    Concur (Option.Rel (Screened plans scored)) (p.traverseTo depth q) (p.traverseTo depth q') := by
  induction depth generalizing scored q q' with
  | zero => exact .ok .none
  | succ depth ih =>
    have hleft : ∀ {q q' : Query}, p.traverseTo (depth + 1) q = .ok none →
        p.traverseTo (depth + 1) q' = .ok none → Concur (Option.Rel (Screened plans scored))
          (p.traverseTo (depth + 1) q) (p.traverseTo (depth + 1) q') := by
      intro q q' hq hq'
      rw [hq, hq']
      exact .ok .none
    have hspan : ∀ {q : Query}, q.isSpan = true → p.traverseTo (depth + 1) q = .ok none :=
      fun hq => traverseTo_of_isSpan hq _
    obtain ⟨hscreened, hselects⟩ := h
    cases hscreened with
    | refl =>
      refine concur_refl (fun o => ?_) _
      cases o with
      | none => exact .none
      | some r => exact .some (.refl plans scored r)
    | term t h =>
      rw [← traverse_atom rfl depth, ← traverse_atom rfl depth]
      exact (h p hp).screened
    | multiTerm => cases hselects
    | spanMultiTerm => cases hselects
    | spanTerm t => exact hleft (hspan rfl) (hspan rfl)
    | atLeastOne hq => exact hleft (hspan hq) (hspan rfl)
    | spanOr => exact hleft (hspan rfl) (hspan rfl)
    | spanNear => exact hleft (hspan rfl) (hspan rfl)
    | withoutPayload => exact hleft (hspan rfl) (hspan rfl)
    | frequentSpan => exact hleft (hspan rfl) (hspan rfl)
    | deferred => exact hleft (traverseTo_deferred ..) (traverseTo_deferred ..)
    | @boost _ _ q q' factor h =>
      have hexpanded : Expanded plans scored q q' := ⟨h, hselects⟩
      have hinner : ∀ {q q'}, Expanded plans scored q q' →
          Concur (Option.Rel (Expanded plans scored)) (p.traverseTo depth q)
            (p.traverseTo depth q') := fun h => expanded_of_screened h.2 (ih h)
      have hfind : p.find? none (.boost q' factor) = p.find? none (.boost q factor) :=
        find?_congr (fun rule => by cases rule <;> rfl) _
      rw [traverseTo.eq_def, traverseTo.eq_def p (depth + 1) (.boost q' factor)]
      simp only [hfind]
      rcases p.find?_boost none q factor with hfound | ⟨i, hfound⟩
      · rw [hfound]
        exact (ih hexpanded).map fun _ _ hrel => rel_map_map hrel fun _ _ => .boost factor
      · rw [hfound]
        exact concur_hand hinner _ _ factor _ i hexpanded
    | @boolean _ _ clauses clauses' hlength hoccur h =>
      have hnone : ∀ clauses, p.find? none (.boolean clauses) = none := fun clauses =>
        find?_eq_none (fun rule => by cases rule <;> rfl) none
      have hclauses := (hasNode_boolean rfl).1 hselects
      have hall : ScreenedClauses plans scored clauses clauses' :=
        forall₂_of_zip hlength fun c hc => ⟨hoccur c hc, h c hc⟩
      rw [traverseTo.eq_def, traverseTo.eq_def p (depth + 1) (.boolean clauses')]
      simp only [hnone]
      refine (concur_changeClauses (forall₂_imp_of_mem hall fun c hc c' hcc => ?_)).map
        fun _ _ hrel => rel_map_map hrel fun _ _ => screened_boolean
      exact ⟨hcc.1, hcc.2, ih ⟨hcc.2, hclauses c hc⟩⟩

theorem concur_traversed (hp : p ∈ plans) {q q' : Query} (h : Expanded plans scored q q') :
    Concur (Screened plans scored) (p.traversed q) (p.traversed q') := by
  rw [traversed, traversed, traverse, traverse, depthFor, depthFor, h.1.height]
  exact (concur_traverseTo hp _ h).map fun _ _ hrel => rel_getD hrel h.1

end Plan

/-! ### Widths -/

namespace Plan

variable {p : Plan}

theorem Change.hasUnitWidth {r : Rule} {q q' : Query} (h : p.Change r q q') :
    q'.hasUnitWidth = true := by
  have hform : ∀ (q : Query) (t : Term) (fromPhrase : Bool),
      (p.exactForm q t fromPhrase).hasUnitWidth = true := by
    intro q t fromPhrase
    rcases p.exactForm_cases q t fromPhrase with h | ⟨factor, h⟩ <;> rw [h] <;> rfl
  cases h with
  | term => exact hform _ _ _
  | markedTerm => exact hform _ _ _
  | _ => rfl

theorem Rewrites.hasUnitWidth {q q' : Query} (h : p.Rewrites q q') (hq : q.hasUnitWidth = true) :
    q'.hasUnitWidth = true := by
  induction h with
  | refl => exact hq
  | tail _ hstep _ =>
    cases hstep with
    | node _ hchange _ => exact hchange.hasUnitWidth
    | boost => rfl
    | clause => rfl

end Plan

namespace Searcher

variable {s : Searcher}

/-- A step measures no gaps by more than it did before. -/
theorem StepsTo.hasUnitWidth {q r : Query} (h : s.StepsTo q r) (hq : q.hasUnitWidth = true) :
    r.hasUnitWidth = true := by
  induction q using byParts generalizing r with
  | hboost q factor ih =>
    obtain ⟨q', rfl, -⟩ := h.boost
    rfl
  | hboolean clauses ih =>
    obtain ⟨clauses', rfl, -⟩ := h.boolean
    rfl
  | hspanOr field qs ih =>
    obtain ⟨rs, rfl, hsteps⟩ := h.spanOr
    refine allHaveUnitWidth_iff.2 fun r hr => ?_
    obtain ⟨q, hmem, hstep⟩ := exists_mem_of_forall₂ hsteps hr
    exact ih q hmem hstep (allHaveUnitWidth_iff.1 hq q hmem)
  | hspanNear field qs slop inOrder ih =>
    obtain ⟨field', rs, rfl, hsteps, -⟩ := h.spanNear
    rw [Query.hasUnitWidth, ← hsteps.length_eq]
    exact hq
  | hwithoutPayload q ih =>
    obtain ⟨q', rfl, -⟩ := h.withoutPayload
    rfl
  | hfrequentSpan q least ih =>
    obtain ⟨q', rfl, -⟩ := h.frequentSpan
    rfl
  | hdeferred q plan ih =>
    obtain ⟨next, hnext, ⟨-, rfl⟩ | hrewrites⟩ := h.deferred
    · exact hq
    · exact Plan.Rewrites.hasUnitWidth hrewrites (ih hnext hq)
  | hatom q hatom =>
    by_cases hselects : q.isSelection = false
    · rwa [h.atom hatom hselects]
    · cases q with
      | multiTerm m =>
        obtain ⟨ts, -, rfl⟩ := h.multiTerm
        rw [expansion]
        split <;> rfl
      | spanMultiTerm m =>
        obtain ⟨ts, -, rfl⟩ := h.spanMultiTerm
        refine allHaveUnitWidth_iff.2 fun q hmem => ?_
        obtain ⟨t, -, rfl⟩ := List.mem_map.1 hmem
        rw [selectedSpanTerm]
        cases m.least <;> rfl
      | _ => exact absurd rfl hselects

/-! ### Steps -/

/-- A selection is expanded hand in hand with the selection that has a threshold of one. -/
theorem concur_expand (s : Searcher) (m : MultiTerm) :
    Concur (fun ts ts' => ts' = ts ∧ ∀ t ∈ ts, ∃ text, m.selects text = true ∧ t = ⟨m.field, text⟩)
      (expand s.snapshot s.settings.maxClauseCount m)
      (expand s.snapshot s.settings.maxClauseCount (m.withMinimum .one)) := by
  have hselect : s.snapshot.select (m.withMinimum .one) = s.snapshot.select m := rfl
  rw [expand, expand, hselect]
  split
  · exact .error _ _
  · refine .ok ⟨rfl, fun t ht => ?_⟩
    obtain ⟨text, htext, rfl⟩ := List.mem_map.1 ht
    exact ⟨text, (Snapshot.mem_keys_select.1 htext).1, rfl⟩

theorem concur_expandTerms (s : Searcher) {m : MultiTerm} (hleast : m.least = none)
    (h : ∀ p ∈ plans, ∀ text, m.selects text = true → p.TreatsAlike ⟨m.field, text⟩) :
    Concur (Screened plans scored) (s.expandTerms m) (s.expandTerms (m.withMinimum .one)) := by
  rw [expandTerms, expandTerms]
  refine (s.concur_expand m).bind fun ts ts' hts => ?_
  obtain ⟨rfl, hselected⟩ := hts
  cases hempty : ts'.isEmpty with
  | true => exact .ok (.refl plans scored _)
  | false =>
    refine .ok (screened_boolean ?_)
    rw [List.forall₂_map_left_iff, List.forall₂_map_right_iff]
    refine List.forall₂_same.2 fun t ht => ⟨rfl, ?_⟩
    obtain ⟨text, htext, rfl⟩ := hselected t ht
    rw [selectedTerm, hleast]
    exact .term _ fun p hp => h p hp text htext

theorem concur_spanUnion (field : String) {qs qs' : List Query}
    (h : List.Forall₂ (Screened plans scored) qs qs') :
    Concur (Screened plans scored) (Query.spanUnion field qs) (Query.spanUnion field qs') := by
  refine concur_of_ok (fun r hr => ?_) fun r' hr' => ?_
  · obtain ⟨hfields, rfl⟩ := Query.spanUnion_eq_ok.1 hr
    refine ⟨_, Query.spanUnion_eq_ok.2 ⟨fun q' hq' => ?_, rfl⟩, screened_spanOr h field⟩
    obtain ⟨q, hq, hscreened⟩ := exists_mem_of_forall₂ h hq'
    exact hscreened.spanField?.trans (hfields q hq)
  · obtain ⟨hfields, rfl⟩ := Query.spanUnion_eq_ok.1 hr'
    refine ⟨_, Query.spanUnion_eq_ok.2 ⟨fun q hq => ?_, rfl⟩⟩
    obtain ⟨q', hq', hscreened⟩ := exists_mem_of_forall₂ h.flip hq
    exact hscreened.spanField?.symm.trans (hfields q' hq')

theorem concur_expandSpanTerms (s : Searcher) {m : MultiTerm} (hleast : m.least = none) :
    Concur (Screened plans scored) (s.expandSpanTerms m)
      (s.expandSpanTerms (m.withMinimum .one)) := by
  rw [expandSpanTerms, expandSpanTerms]
  refine (s.concur_expand m).bind fun ts ts' hts => ?_
  obtain ⟨rfl, -⟩ := hts
  refine concur_spanUnion m.field ?_
  rw [List.forall₂_map_left_iff, List.forall₂_map_right_iff]
  refine List.forall₂_same.2 fun t _ => ?_
  rw [selectedSpanTerm, hleast]
  exact .spanTerm t

theorem concur_spanProximity (slop : UInt32) (inOrder : Bool) {qs qs' : List Query}
    (h : List.Forall₂ (Screened plans false) qs qs') :
    Concur (Screened plans scored) (Query.spanProximity qs slop inOrder)
      (Query.spanProximity qs' slop inOrder) := by
  refine concur_of_ok (fun r hr => ?_) fun r' hr' => ?_
  · obtain ⟨hsome, field, hfields, rfl⟩ := Query.spanProximity_eq_ok.1 hr
    refine ⟨_, Query.spanProximity_eq_ok.2 ⟨ne_nil_of_forall₂ h hsome, field, fun q' hq' => ?_,
      rfl⟩, screened_spanNear h field slop inOrder⟩
    obtain ⟨q, hq, hscreened⟩ := exists_mem_of_forall₂ h hq'
    exact hscreened.spanField?.trans (hfields q hq)
  · obtain ⟨hsome, field, hfields, rfl⟩ := Query.spanProximity_eq_ok.1 hr'
    refine ⟨_, Query.spanProximity_eq_ok.2 ⟨ne_nil_of_forall₂ h.flip hsome, field, fun q hq => ?_,
      rfl⟩⟩
    obtain ⟨q', hq', hscreened⟩ := exists_mem_of_forall₂ h.flip hq
    exact hscreened.spanField?.symm.trans (hfields q' hq')

theorem concur_exactSpan {q q' : Query} (h : Screened plans false q q') :
    Concur (Screened plans scored) q.exactSpan q'.exactSpan := by
  refine concur_of_ok (fun r hr => ?_) fun r' hr' => ?_
  · obtain ⟨⟨field, hfield⟩, rfl⟩ := Query.exactSpan_eq_ok.1 hr
    exact ⟨_, Query.exactSpan_eq_ok.2 ⟨⟨field, h.spanField?.trans hfield⟩, rfl⟩, .withoutPayload h⟩
  · obtain ⟨⟨field, hfield⟩, rfl⟩ := Query.exactSpan_eq_ok.1 hr'
    exact ⟨_, Query.exactSpan_eq_ok.2 ⟨⟨field, h.spanField?.symm.trans hfield⟩, rfl⟩⟩

theorem concur_spanAtLeast (least : Threshold) {q q' : Query} (h : Screened plans false q q') :
    Concur (Screened plans scored) (q.spanAtLeast least.value) (q'.spanAtLeast least.value) := by
  refine concur_of_ok (fun r hr => ?_) fun r' hr' => ?_
  · obtain ⟨⟨field, hfield⟩, rfl⟩ := Query.spanAtLeast_eq_ok.1 hr
    exact ⟨_, Query.spanAtLeast_eq_ok.2 ⟨⟨field, h.spanField?.trans hfield⟩, rfl⟩,
      .frequentSpan least h⟩
  · obtain ⟨⟨field, hfield⟩, rfl⟩ := Query.spanAtLeast_eq_ok.1 hr'
    exact ⟨_, Query.spanAtLeast_eq_ok.2 ⟨⟨field, h.spanField?.symm.trans hfield⟩, rfl⟩⟩

/-- A step in a query is a step in what a threshold of one is put on. -/
theorem concur_groundStep_atLeastOne {q q' : Query} (hq : q.Built) (hspan : q.isSpan = true)
    (hwidth : scored = true → q.hasUnitWidth = true)
    (h : Concur (Option.Rel (Screened plans false)) (s.groundStep q) (s.groundStep q')) :
    Concur (Option.Rel (Screened plans scored)) (s.groundStep q)
      (s.groundStep (.frequentSpan q' .one)) := by
  obtain ⟨field, hfield⟩ := hq.exists_spanField? hspan
  rw [groundStep.eq_def s (.frequentSpan q' .one), ← bind_pure (s.groundStep q)]
  refine h.bind_of_ok fun o o' ho _ hrel => ?_
  cases hrel with
  | none => exact .ok .none
  | @some next next' hnext =>
    -- the operand stays on its field, so that the threshold can be put on it again
    have hstep : s.StepsTo q next := ⟨some next, ho, rfl⟩
    have hfield' := (hstep.built hq).2 field hfield
    have hfilter : next'.spanAtLeast Threshold.one.value = .ok (.frequentSpan next' .one) :=
      spanAtLeast_eq_ok.2 ⟨⟨field, hnext.spanField?.trans hfield'⟩, rfl⟩
    simp only [hfilter]
    exact .ok (.some (.atLeastOne (isSpan_of_spanField? hfield')
      (fun hscored => hstep.hasUnitWidth (hwidth hscored)) hnext))

/-- What was deferred takes a step hand in hand, and so does the plan that is carried out on it. -/
theorem concur_groundStep_deferred {q q' : Query} {plan : Plan} (hq : q.Built)
    (h : Screened (if q.hasNode isSelection then plan :: plans else plans) scored q q')
    (hstep : Concur
      (Option.Rel (Screened (if q.hasNode isSelection then plan :: plans else plans) scored))
      (s.groundStep q) (s.groundStep q')) :
    Concur (Option.Rel (Screened plans scored)) (s.groundStep (.deferred q plan))
      (s.groundStep (.deferred q' plan)) := by
  have hselects' := h.selects
  rw [groundStep, groundStep]
  refine hstep.bind_of_ok fun o o' ho ho' hrel => ?_
  cases hselects : q.hasNode isSelection with
  | false =>
    rw [hselects] at h hselects'
    rw [settle_of_not_selects hq hselects plan ho,
      settle_of_not_selects (h.built hq) hselects' plan ho']
    exact .ok (.some h)
  | true =>
    rw [hselects] at h hselects'
    rw [hselects, if_pos rfl] at hrel
    rw [settle_of_selects hselects plan ho, settle_of_selects hselects' plan ho']
    have hafter : s.StepsTo q (o.getD q) := ⟨o, ho, rfl⟩
    have hexpanded : Expanded (plan :: plans) scored (o.getD q) (o'.getD q') :=
      ⟨rel_getD hrel h, hafter.selects⟩
    exact (Plan.concur_traversed (List.mem_cons_self ..) hexpanded).map
      fun _ _ hnext => .some (hnext.mono (List.subset_cons_self ..))

/-- A step of grounding is taken hand in hand. -/
theorem concur_groundStep (s : Searcher) {q q' : Query} (h : Screened plans scored q q')
    (hq : q.Built) :
    Concur (Option.Rel (Screened plans scored)) (s.groundStep q) (s.groundStep q') := by
  induction h with
  | refl plans scored q =>
    refine concur_refl (fun o => ?_) _
    cases o with
    | none => exact .none
    | some r => exact .some (.refl plans scored r)
  | term => exact .ok .none
  | spanTerm => exact .ok .none
  | multiTerm m hleast h => exact (s.concur_expandTerms hleast h).map fun _ _ => .some
  | spanMultiTerm m hleast => exact (s.concur_expandSpanTerms hleast).map fun _ _ => .some
  | atLeastOne hspan hwidth _ ih => exact concur_groundStep_atLeastOne hq hspan hwidth (ih hq)
  | boost factor _ ih =>
    rw [groundStep, groundStep]
    exact (ih (built_boost.1 hq)).bind fun _ _ hrel =>
      .ok (rel_map_map hrel fun _ _ => .boost factor)
  | @boolean plans scored clauses clauses' hlength hoccur h ih =>
    rw [groundStep_boolean, groundStep_boolean]
    refine (concur_changeClauses (List.forall₂_iff_zip.2 ⟨hlength, fun {c c'} hc => ?_⟩)).bind
      fun _ _ hrel => .ok (rel_map_map hrel fun _ _ => screened_boolean)
    exact ⟨hoccur _ hc, h _ hc, ih _ hc (built_boolean.1 hq c (List.of_mem_zip hc).1)⟩
  | @spanOr plans scored qs qs' field hlength h ih =>
    rw [groundStep_spanOr, groundStep_spanOr]
    refine concur_rebuilt (concur_changeAll (List.forall₂_iff_zip.2
      ⟨hlength, fun {q q'} hc => ⟨h _ hc, ih _ hc ?_⟩⟩))
      rfl rfl (fun _ => rfl) (fun _ => rfl) fun _ _ => concur_spanUnion field
    exact (built_spanOr.1 hq q (List.of_mem_zip hc).1).1
  | @spanNear plans scored qs qs' field slop inOrder hlength h ih =>
    rw [groundStep_spanNear, groundStep_spanNear]
    refine concur_rebuilt (concur_changeAll (List.forall₂_iff_zip.2
      ⟨hlength, fun {q q'} hc => ⟨h _ hc, ih _ hc ?_⟩⟩))
      rfl rfl (fun _ => rfl) (fun _ => rfl) fun _ _ => concur_spanProximity slop inOrder
    exact ((built_spanNear.1 hq).2 q (List.of_mem_zip hc).1).1
  | withoutPayload _ ih =>
    rw [groundStep, groundStep]
    exact concur_rebuilt (ih (built_withoutPayload.1 hq).1) rfl rfl (fun _ => rfl) (fun _ => rfl)
      fun _ _ => concur_exactSpan
  | frequentSpan least _ ih =>
    rw [groundStep, groundStep]
    exact concur_rebuilt (ih (built_frequentSpan.1 hq).1) rfl rfl (fun _ => rfl) (fun _ => rfl)
      fun _ _ => concur_spanAtLeast least
  | deferred plan h ih =>
    have hbuilt := built_deferred.1 hq
    exact concur_groundStep_deferred hbuilt h (ih hbuilt)

/-! ### Runs -/

theorem concur_groundWithin (s : Searcher) (given given' : Query) (passes : Nat) {q q' : Query}
    (h : Screened plans scored q q') (hq : q.Built) :
    Concur (Option.Rel (Screened plans scored)) (s.groundWithin given passes q)
      (s.groundWithin given' passes q') := by
  induction passes generalizing q q' with
  | zero => exact .error _ _
  | succ passes ih =>
    rw [groundWithin, groundWithin]
    refine (s.concur_groundStep h hq).bind_of_ok fun o o' ho _ hrel => ?_
    cases hrel with
    | none => exact .ok .none
    | @some next next' hnext =>
      have hbuilt : next.Built := (StepsTo.built ⟨some next, ho, rfl⟩ hq).1
      exact (ih hnext hbuilt).bind fun _ _ hlast => .ok (.some (rel_getD hlast hnext))

/-- A query and the query with thresholds of one put in are grounded to queries that are related
in the same way, or both cannot be grounded. -/
theorem concur_grounded (s : Searcher) {q q' : Query} (h : Screened plans scored q q')
    (hq : q.Built) : Concur (Screened plans scored) (s.grounded q) (s.grounded q') :=
  (s.concur_groundWithin q q' s.settings.maxPasses h hq).map fun _ _ hrel => rel_getD hrel h

end Searcher

end TextSearch
