import Mathlib
import TextSearch.Proofs.Index.Runs
import TextSearch.Proofs.Query.Satisfaction
import TextSearch.Proofs.Search.Binding
import TextSearch.Proofs.Search.Stepping

/-!
# Convergence of grounding

Grounding repeats steps until one changes nothing. A step that changes nothing finds
nothing to ground, and a step fails only where a selection is too large or the passes
of a plan do not suffice. `Searcher.Passes` counts the steps that change a query; there
are no more of them than deferrals on a path, except that a first one may expand
selections. Main statements: `Searcher.grounded_executable`, what grounding makes of a
query and how it can fail, and `Searcher.ground_converges`, how many passes suffice.
-/

namespace TextSearch

namespace Query

theorem clausesDeferNothing_of_forall {clauses : List (Occur × Query)}
    (h : ∀ c ∈ clauses, c.2.defersNothing = true) : clausesDeferNothing clauses = true := by
  induction clauses with
  | nil => rfl
  | cons c clauses ih =>
    obtain ⟨hc, hclauses⟩ := List.forall_mem_cons.1 h
    rw [clausesDeferNothing, hc, ih hclauses]
    rfl

theorem allDeferNothing_of_forall {qs : List Query} (h : ∀ q ∈ qs, q.defersNothing = true) :
    allDeferNothing qs = true := by
  induction qs with
  | nil => rfl
  | cons q qs ih =>
    obtain ⟨hq, hqs⟩ := List.forall_mem_cons.1 h
    rw [allDeferNothing, hq, ih hqs]
    rfl

/-- Where there is nothing to ground nothing is deferred. -/
theorem defersNothing_of_bound {q : Query} (h : q.hasNode isUnbound = false) :
    q.defersNothing = true := by
  induction q using byParts with
  | hboost q factor ih => exact ih h
  | hboolean clauses ih =>
    exact clausesDeferNothing_of_forall fun c hc => ih c hc ((hasNode_boolean rfl).1 h c hc)
  | hspanOr field qs ih =>
    exact allDeferNothing_of_forall fun q hq => ih q hq ((hasNode_spanOr rfl).1 h q hq)
  | hspanNear field qs slop inOrder ih =>
    exact allDeferNothing_of_forall fun q hq => ih q hq ((hasNode_spanNear rfl).1 h q hq)
  | hwithoutPayload q ih => exact ih h
  | hfrequentSpan q least ih => exact ih h
  | hdeferred q plan ih => cases h
  | hatom q hatom => cases q <;> first | rfl | cases hatom

end Query

namespace Searcher

variable {s : Searcher}

/-! ### Steps that change nothing -/

/-- A step that leaves a query as it is finds nothing to ground in it. -/
theorem bound_of_groundStep {q : Query} (h : s.groundStep q = .ok none) :
    q.hasNode Query.isUnbound = false := by
  induction q using Query.byParts with
  | hboost q factor ih =>
    obtain ⟨o, ho, hnone⟩ := groundStep_boost_eq_ok h
    obtain rfl := Option.map_eq_none_iff.1 hnone.symm
    exact ih ho
  | hboolean clauses ih =>
    obtain ⟨o, ho, hnone⟩ := groundStep_boolean_eq_ok h
    obtain rfl := Option.map_eq_none_iff.1 hnone.symm
    refine (Query.hasNode_boolean rfl).2 fun c hc => ih c hc ?_
    exact changeClause_eq_none.1 (changeAll_eq_none ho c hc)
  | hspanOr field qs ih =>
    obtain ⟨o, ho, hnone⟩ := groundStep_spanOr_eq_ok h
    obtain rfl := Option.map_eq_none_iff.1 hnone.symm
    exact (Query.hasNode_spanOr rfl).2 fun q hq => ih q hq (changeAll_eq_none ho q hq)
  | hspanNear field qs slop inOrder ih =>
    obtain ⟨o, ho, hbuilt⟩ := groundStep_spanNear_eq_ok h
    cases hbuilt
    exact (Query.hasNode_spanNear rfl).2 fun q hq => ih q hq (changeAll_eq_none ho q hq)
  | hwithoutPayload q ih =>
    obtain ⟨o, ho, hnone⟩ := groundStep_withoutPayload_eq_ok h
    obtain rfl := Option.map_eq_none_iff.1 hnone.symm
    exact ih ho
  | hfrequentSpan q least ih =>
    obtain ⟨o, ho, hnone⟩ := groundStep_frequentSpan_eq_ok h
    obtain rfl := Option.map_eq_none_iff.1 hnone.symm
    exact ih ho
  | hdeferred q plan ih =>
    obtain ⟨_, _, -, -, hnone⟩ := groundStep_deferred_eq_ok h
    cases hnone
  | hatom q hatom =>
    rw [Query.hasNode_atom hatom]
    cases q with
    | multiTerm m =>
      obtain ⟨_, -, hnone⟩ := groundStep_multiTerm_eq_ok h
      cases hnone
    | spanMultiTerm m =>
      obtain ⟨_, -, hnone⟩ := groundStep_spanMultiTerm_eq_ok h
      cases hnone
    | deferred => cases hatom
    | _ => rfl

/-- Where there is nothing to ground a step leaves the query as it is. -/
theorem groundStep_of_bound {q : Query} (h : q.hasNode Query.isUnbound = false) :
    s.groundStep q = .ok none := by
  induction q using Query.byParts with
  | hboost q factor ih => rw [groundStep, ih h]; rfl
  | hboolean clauses ih =>
    have hclauses : changeAll (changeClause s.groundStep) clauses = .ok none := by
      refine changeAll_of_none fun c hc => changeClause_eq_none.2 ?_
      exact ih c hc ((Query.hasNode_boolean rfl).1 h c hc)
    rw [groundStep_boolean, hclauses]
    rfl
  | hspanOr field qs ih =>
    have hqs := changeAll_of_none fun q hq => ih q hq ((Query.hasNode_spanOr rfl).1 h q hq)
    rw [groundStep_spanOr, hqs]
    rfl
  | hspanNear field qs slop inOrder ih =>
    have hqs := changeAll_of_none fun q hq => ih q hq ((Query.hasNode_spanNear rfl).1 h q hq)
    rw [groundStep_spanNear, hqs]
    rfl
  | hwithoutPayload q ih => rw [groundStep, ih h]; rfl
  | hfrequentSpan q least ih => rw [groundStep, ih h]; rfl
  | hdeferred q plan ih => cases h
  | hatom q hatom =>
    rw [Query.hasNode_atom hatom] at h
    refine groundStep_atom s hatom ?_
    cases q with
    | deferred => cases hatom
    | _ => exact h

/-! ### Steps that fail -/

/-- A fault that a step of grounding can come to: a selection is too large, or the passes of a
plan do not suffice. -/
inductive StepFault (s : Searcher) : Fault → Prop
  /-- A query selects more terms than clauses are allowed. -/
  | tooManyTerms (m : MultiTerm) (h : s.settings.maxClauseCount < (s.snapshot.select m).keys.length) :
    StepFault s (.tooManyTerms m.display (s.snapshot.select m).keys.length s.settings.maxClauseCount)
  /-- The rules of a plan are still changing a query after the last pass. -/
  | traversalDiverged (query : String) (passes : Nat) : StepFault s (.traversalDiverged query passes)

theorem expand_eq_error {m : MultiTerm} {e : Fault}
    (h : expand s.snapshot s.settings.maxClauseCount m = .error e) : s.StepFault e := by
  rw [expand] at h
  split at h
  · next hmany =>
    cases h
    exact .tooManyTerms m hmany
  · cases h

/-- Grounding what can be built takes no step that fails for another reason. -/
theorem stepFault_of_groundStep {q : Query} {e : Fault} (hq : q.Built)
    (h : s.groundStep q = .error e) : s.StepFault e := by
  obtain ⟨r, hr, -⟩ := exists_failing_node hq (stepped_eq_error.2 h)
  cases hr with
  | multiTerm hm => exact expand_eq_error hm
  | spanMultiTerm hm => exact expand_eq_error hm
  | deferred _ _ htraversed =>
    obtain ⟨given, passes, rfl⟩ := Plan.eq_traversalDiverged htraversed
    exact .traversalDiverged given passes

/-! ### Passes -/

/-- So many passes, each of which changes the query, lead from one query to another. -/
inductive Passes (s : Searcher) : Nat → Query → Query → Prop
  /-- No pass leaves the query as it is. -/
  | zero (q : Query) : Passes s 0 q q
  /-- A pass that changes the query comes before the others. -/
  | succ {passes : Nat} {q next r : Query} (hstep : s.groundStep q = .ok (some next))
    (hrest : Passes s passes next r) : Passes s (passes + 1) q r

theorem passes_of_groundWithin {given : Query} {passes : Nat} {q : Query} {o : Option Query}
    (h : s.groundWithin given passes q = .ok o) :
    ∃ n < passes, s.Passes n q (o.getD q) ∧ s.groundStep (o.getD q) = .ok none := by
  induction passes generalizing q o with
  | zero => cases h
  | succ passes ih =>
    rw [groundWithin] at h
    obtain ⟨o₁, hstep, h⟩ := except_bind_eq_ok.1 h
    cases o₁ with
    | none =>
      cases h
      exact ⟨0, Nat.succ_pos passes, .zero q, hstep⟩
    | some next =>
      obtain ⟨o₂, hrest, h⟩ := except_bind_eq_ok.1 h
      cases h
      obtain ⟨n, hn, hpasses, hdone⟩ := ih hrest
      exact ⟨n + 1, Nat.succ_lt_succ hn, .succ hstep hpasses, hdone⟩

/-- Grounding fails where some pass does, or where all passes change the query. -/
theorem passes_of_groundWithin_error {given : Query} {passes : Nat} {q : Query} {e : Fault}
    (h : s.groundWithin given passes q = .error e) :
    (∃ n r, s.Passes n q r ∧ s.groundStep r = .error e) ∨
      (∃ r, s.Passes passes q r) ∧ e = .groundingDiverged given.display s.settings.maxPasses := by
  induction passes generalizing q with
  | zero =>
    cases h
    exact .inr ⟨⟨q, .zero q⟩, rfl⟩
  | succ passes ih =>
    rw [groundWithin] at h
    rcases except_bind_eq_error.1 h with hstep | ⟨o, hstep, h⟩
    · exact .inl ⟨0, q, .zero q, hstep⟩
    · cases o with
      | none => cases h
      | some next =>
        rcases except_bind_eq_error.1 h with hrest | ⟨_, -, hnone⟩
        · rcases ih hrest with ⟨n, r, hpasses, hfails⟩ | ⟨⟨r, hpasses⟩, he⟩
          · exact .inl ⟨n + 1, r, .succ hstep hpasses, hfails⟩
          · exact .inr ⟨⟨r, .succ hstep hpasses⟩, he⟩
        · cases hnone

theorem Passes.built {n : Nat} {q r : Query} (h : s.Passes n q r) (hq : q.Built) :
    r.Built ∧ ∀ field, q.spanField? = some field → r.spanField? = some field := by
  induction h with
  | zero => exact ⟨hq, fun _ hfield => hfield⟩
  | succ hstep _ ih =>
    obtain ⟨hnext, hkeeps⟩ := StepsTo.built ⟨_, hstep, rfl⟩ hq
    obtain ⟨hr, hkeeps'⟩ := ih hnext
    exact ⟨hr, fun field hfield => hkeeps' field (hkeeps field hfield)⟩

/-- Where nothing is selected no pass selects anything. -/
theorem Passes.selects {n : Nat} {q r : Query} (h : s.Passes n q r)
    (hselects : q.hasNode Query.isSelection = false) : r.hasNode Query.isSelection = false := by
  induction h with
  | zero => exact hselects
  | succ hstep _ ih => exact ih (StepsTo.selects ⟨_, hstep, rfl⟩)

/-- Where nothing is selected every pass takes a deferral away. -/
theorem Passes.le_deferralDepth {n : Nat} {q r : Query} (h : s.Passes n q r)
    (hselects : q.hasNode Query.isSelection = false) : n ≤ q.deferralDepth := by
  induction h with
  | zero => exact Nat.zero_le _
  | @succ passes q next r hstep _ ih =>
    have hnext : s.StepsTo q next := ⟨some next, hstep, rfl⟩
    have hpasses : passes ≤ next.deferralDepth := ih hnext.selects
    cases hdepth : q.deferralDepth with
    | zero =>
      -- with nothing selected and nothing deferred the pass would have changed nothing
      rw [groundStep_of_bound (Query.hasNode_isUnbound hselects hdepth)] at hstep
      cases hstep
    | succ depth =>
      have hless := hnext.deferralDepth_le (Nat.le_of_eq hdepth)
      omega

/-- A pass for every deferral on a path, and one at least, may change a query. -/
theorem Passes.le {n : Nat} {q r : Query} (h : s.Passes n q r) : n ≤ max 1 q.deferralDepth := by
  cases h with
  | zero => exact Nat.zero_le _
  | @succ passes _ next _ hstep hrest =>
    have hnext : s.StepsTo q next := ⟨some next, hstep, rfl⟩
    have hpasses := hrest.le_deferralDepth hnext.selects
    have hless := hnext.deferralDepth_le (n := max 1 q.deferralDepth - 1) (by omega)
    omega

/-! ### Grounding -/

/-- There is nothing left to ground in what a query is grounded to. -/
theorem bound_of_grounded {q r : Query} (h : s.grounded q = .ok r) :
    r.hasNode Query.isUnbound = false := by
  obtain ⟨o, ho, rfl⟩ := except_map_eq_ok.1 h
  obtain ⟨n, -, -, hdone⟩ := passes_of_groundWithin ho
  exact bound_of_groundStep hdone

/-- Where there is nothing to ground a query is grounded already. -/
theorem grounds_self {q : Query} (h : q.hasNode Query.isUnbound = false) : s.Grounds q q :=
  .done (groundStep_of_bound h)

/-- A failure of grounding what can be built is one of a step, or too many passes were taken. -/
theorem fault_of_ground {q : Query} {e : Fault} (hq : q.Built) (h : s.ground q = .error e) :
    s.StepFault e ∨ (∃ r, s.Passes s.settings.maxPasses q r) ∧
      e = .groundingDiverged q.display s.settings.maxPasses := by
  rcases passes_of_groundWithin_error h with ⟨n, r, hpasses, hfails⟩ | hdiverged
  · exact .inl (stepFault_of_groundStep (hpasses.built hq).1 hfails)
  · exact .inr hdiverged

/-- What a query is grounded to has nothing to ground, is left as it is by further grounding, is a
span query on the same field if the query was one, and can be bound. Grounding fails only where a
selection is too large or where the passes of grounding or of a plan do not suffice. -/
theorem grounded_executable (R : Type) [ScoreNumber R] (s : Searcher) {q : Query} (hq : q.Built) :
    (∀ r, s.grounded q = .ok r →
      r.hasNode Query.isUnbound = false ∧ s.ground r = .ok none ∧
        (q.isSpan = true → r.isSpan = true ∧ r.spanField? = q.spanField?) ∧
        ∀ (scored : Bool) (boost : R) (c : LookupCache),
          ∃ w c', Weighing.Yields (Weighing.weight s.snapshot scored boost r) c w c') ∧
      ∀ e, s.grounded q = .error e →
        (∃ m : MultiTerm, s.settings.maxClauseCount < (s.snapshot.select m).keys.length ∧
          e = .tooManyTerms m.display (s.snapshot.select m).keys.length
            s.settings.maxClauseCount) ∨
        e = .groundingDiverged q.display s.settings.maxPasses ∨
        ∃ given passes, e = .traversalDiverged given passes := by
  constructor
  · intro r h
    obtain ⟨o, ho, rfl⟩ := except_map_eq_ok.1 h
    obtain ⟨n, hn, hpasses, hdone⟩ := passes_of_groundWithin ho
    obtain ⟨hbuilt, hkeeps⟩ := hpasses.built hq
    have hbound := bound_of_groundStep hdone
    have hground : s.ground (o.getD q) = .ok none := by
      obtain ⟨passes, hpos⟩ := Nat.exists_eq_add_one_of_ne_zero (Nat.ne_zero_of_lt hn)
      rw [ground, hpos, groundWithin, hdone]
      rfl
    refine ⟨hbound, hground, fun hspan => ?_, fun scored boost c =>
      Weighing.exists_yields_weight_of_built s.snapshot hbuilt hbound scored boost c⟩
    obtain ⟨field, hfield⟩ := hq.exists_spanField? hspan
    have hsame := hkeeps field hfield
    exact ⟨Query.isSpan_of_spanField? hsame, hsame.trans hfield.symm⟩
  · intro e h
    rcases fault_of_ground hq (except_map_eq_error.1 h) with hstep | ⟨-, rfl⟩
    · cases hstep with
      | tooManyTerms m hmany => exact .inl ⟨m, hmany, rfl⟩
      | traversalDiverged given passes => exact .inr (.inr ⟨given, passes, rfl⟩)
    · exact .inr (.inl rfl)

/-- A deferred range of two terms, and a selection next to a deferred term. -/
theorem grounded_executable_deferred :
    let steps : List BuilderStep :=
      [.add [("body", [⟨"quick", 0, none⟩, ⟨"fox", 1, none⟩])], .commit,
        .add [("body", [⟨"slow", 0, none⟩, ⟨"fox", 1, none⟩])]]
    let p : Plan := ⟨[.exactTerm], default, Mapping.empty.withField "body" .text, default⟩
    let s : Searcher := ⟨.ofSteps [("body", .payloads)] steps 0, default⟩
    let q : Query := .boolean
      [(.must, .deferred (.multiTerm ⟨"body", .range (some "g") none true true, none⟩) p),
        (.should, .spanNear "body" [.spanMultiTerm ⟨"body", .beginning "s", none⟩,
          .deferred (.spanTerm ⟨"body", "fox"⟩) p] 0 true)]
    let r : Query := .boolean
      [(.must, .boolean [(.should, .withoutPayload (.spanTerm ⟨"body", "quick"⟩)),
          (.should, .withoutPayload (.spanTerm ⟨"body", "slow"⟩))]),
        (.should, .spanNear "body" [.spanOr "body" [.spanTerm ⟨"body", "slow"⟩],
          .spanTerm ⟨"body", "fox"⟩] 0 true)]
    q.Built ∧ s.grounded q = .ok r ∧ r.hasNode Query.isUnbound = false ∧ s.ground r = .ok none ∧
      ∃ (w : Weight Single) (c' : LookupCache),
        Weighing.Yields (Weighing.weight s.snapshot true ScoreNumber.one r) .empty w c' := by
  intro steps p s q r
  have hnear : ∀ q ∈ [Query.spanMultiTerm ⟨"body", .beginning "s", none⟩,
      .deferred (.spanTerm ⟨"body", "fox"⟩) p], q.Built ∧ q.spanField? = some "body" := by
    simp only [List.forall_mem_cons]
    exact ⟨⟨.atom rfl, rfl⟩, ⟨.deferred p (.atom rfl), rfl⟩, List.forall_mem_nil _⟩
  have hq : q.Built := by
    refine .boolean ?_
    simp only [List.forall_mem_cons]
    exact ⟨.deferred p (.atom rfl), .spanNear 0 true (fun q hq => (hnear q hq).1)
      (fun q hq => (hnear q hq).2) (List.cons_ne_nil _ _), List.forall_mem_nil _⟩
  have hground : s.grounded q = .ok r := by cbv
  obtain ⟨hbound, hagain, -, hweight⟩ := (grounded_executable Single s hq).1 r hground
  exact ⟨hq, hground, hbound, hagain, hweight true ScoreNumber.one .empty⟩

/-- One pass more than there are deferrals on a path, and two at least, suffice to ground a query,
unless a selection is too large or the traversal of a deferred query fails. -/
theorem ground_converges (s : Searcher) {q : Query} (hq : q.Built)
    (hpasses : max 1 q.deferralDepth + 1 ≤ s.settings.maxPasses)
    (hselects : ∀ query got, s.ground q ≠ .error (.tooManyTerms query got s.settings.maxClauseCount))
    (htraverses : ∀ given passes, s.ground q ≠ .error (.traversalDiverged given passes)) :
    ∃ o, s.ground q = .ok o := by
  cases h : s.ground q with
  | ok o => exact ⟨o, rfl⟩
  | error e =>
    rcases fault_of_ground hq h with hstep | ⟨⟨r, hr⟩, -⟩
    · cases hstep with
      | tooManyTerms m => exact absurd h (hselects _ _)
      | traversalDiverged given passes => exact absurd h (htraverses given passes)
    · have hle := hr.le
      omega

/-- A prefix in two deferrals takes two passes that change it and one that does not. -/
theorem ground_converges_nested :
    let p : Plan := ⟨[.exactTerm], default, Mapping.empty.withField "body" .text, default⟩
    let s : Searcher := ⟨.ofSteps [("body", .payloads)] [.add [("body", [⟨"fox", 0, none⟩])]] 0,
      ⟨1, 3, false⟩⟩
    let q : Query := .deferred (.deferred (.multiTerm ⟨"body", .beginning "f", none⟩) p) p
    q.Built ∧ max 1 q.deferralDepth + 1 ≤ s.settings.maxPasses ∧
      (∀ query got, s.ground q ≠ .error (.tooManyTerms query got s.settings.maxClauseCount)) ∧
      (∀ given passes, s.ground q ≠ .error (.traversalDiverged given passes)) ∧
      ∃ o, s.ground q = .ok o := by
  intro p s q
  have hq : q.Built := .deferred p (.deferred p (.atom rfl))
  have hpasses : max 1 q.deferralDepth + 1 ≤ s.settings.maxPasses := by decide
  have hground : s.ground q = .ok (some (.boolean
      [(.should, .withoutPayload (.spanTerm ⟨"body", "fox"⟩))])) := by cbv
  have hselects : ∀ query got,
      s.ground q ≠ .error (.tooManyTerms query got s.settings.maxClauseCount) := by
    rw [hground]
    exact fun _ _ h => by cases h
  have htraverses : ∀ given passes, s.ground q ≠ .error (.traversalDiverged given passes) := by
    rw [hground]
    exact fun _ _ h => by cases h
  exact ⟨hq, hpasses, hselects, htraverses,
    ground_converges s hq hpasses hselects htraverses⟩

/-! ### The first step -/

/-- Enough passes are allowed for grounding a query. -/
def Converges (s : Searcher) (q : Query) : Prop :=
  ∀ given passes, s.grounded q ≠ .error (.groundingDiverged given passes)

theorem converges_of_passes {q : Query} (hq : q.Built)
    (hpasses : max 1 q.deferralDepth + 1 ≤ s.settings.maxPasses) : s.Converges q := by
  intro given passes h
  rcases fault_of_ground hq (except_map_eq_error.1 h) with hstep | ⟨⟨r, hr⟩, -⟩
  · cases hstep
  · have hle := hr.le
    omega

/-- Where nothing is selected grounding takes deferrals away and does nothing else. -/
theorem Grounds.same_of_not_selects {q r : Query} (h : s.Grounds q r) (hq : q.Built)
    (hselects : q.hasNode Query.isSelection = false) : r.same q = true := by
  induction h with
  | done => exact Query.same_self _
  | step hstep _ ih =>
    have hnext : s.StepsTo _ _ := ⟨_, hstep, rfl⟩
    exact Query.same_trans (ih (hnext.built hq).1 hnext.selects) (hnext.same hq hselects)

/-- Grounding fails where its first step does. Otherwise it comes to what the first step comes to,
without the deferrals that are left in that. -/
theorem tandem_grounded {q : Query} (hq : q.Built) (hconverges : s.Converges q) :
    Tandem Eq (fun r next => r.same next = true ∧ r.hasNode Query.isUnbound = false)
      (s.grounded q) (s.stepped q) := by
  cases h : s.grounded q with
  | ok r =>
    have hbound := bound_of_grounded h
    cases grounds_of_grounded h with
    | done hdone =>
      rw [stepped, hdone]
      exact .ok ⟨Query.same_self q, hbound⟩
    | @step _ next _ hstep hrest =>
      have hnext : s.StepsTo q next := ⟨some next, hstep, rfl⟩
      rw [stepped_eq_ok.2 hnext]
      exact .ok ⟨hrest.same_of_not_selects (hnext.built hq).1 hnext.selects, hbound⟩
  | error e =>
    rcases passes_of_groundWithin_error (except_map_eq_error.1 h) with
      ⟨n, r, hpasses, hfails⟩ | hlast
    · cases hpasses with
      | zero =>
        rw [stepped_eq_error.2 hfails]
        exact .error rfl
      | @succ _ _ next _ hstep hrest =>
        -- after the first pass nothing is selected any more, and no step fails
        have hnext : s.StepsTo q next := ⟨some next, hstep, rfl⟩
        have hr : r.Built := (hrest.built (hnext.built hq).1).1
        obtain ⟨r', hr', -⟩ := exists_stepped_of_not_selects s hr (hrest.selects hnext.selects)
        rw [stepped_eq_error.2 hfails] at hr'
        cases hr'
    · exact absurd (hlast.2 ▸ h) (hconverges _ _)

end Searcher

end TextSearch
