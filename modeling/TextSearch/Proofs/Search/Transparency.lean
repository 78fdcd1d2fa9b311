import Mathlib
import TextSearch.Proofs.Index.Runs
import TextSearch.Proofs.Search.Convergence
import TextSearch.Proofs.Search.Wrapping

/-!
# Transparency of deferrals

A deferral without rules does nothing when it is bound: what is wrapped into such
deferrals is grounded to the same, although it takes other steps to get there. There is
one exception. The first step of grounding takes one deferral off every path, and where
something is selected the plan of a deferred query is carried out on what is left. A
wrapper that is left by then keeps the plan from what is inside of it. Main statements:
`Searcher.tandem_stepped`, for one step, and `Searcher.wrapping_transparent`.
-/

namespace TextSearch

namespace Searcher

open Query

variable {s : Searcher} {g : Guard} {q q' r : Query}

/-! ### Steps on wrapped queries -/

/-- A step on a query for places comes to a query for the same places. -/
theorem StepsTo.equalBut_of_isSpan (h : s.StepsTo q r) (hq : q.Built)
    (hselects : q.hasNode isSelection = false) (hspan : q.isSpan = true)
    (hsame : q.essence = q'.essence) : EqualBut SamePlaces r q' := by
  have hessence : r.essence = q.essence := (same_iff_essence r q).1 (h.same hq hselects)
  have hplaces : r.isSpan = true := (isSpan_congr hessence.symm).trans hspan
  exact .part (samePlaces_of_essence (hessence.trans hsame) hplaces)

theorem isSpan_of_isOpenDeferral {plan : Plan}
    (h : (Query.deferred q plan).hasNode isOpenDeferral = false) : q.isSpan = true :=
  Bool.not_eq_eq_eq_not.1 (Bool.or_eq_false_iff.1 h).1

/-- Where nothing is selected and nothing deferred but places a step changes places only. -/
theorem StepsTo.equalBut (h : s.StepsTo q r) (hq : q.Built)
    (hselects : q.hasNode isSelection = false) (hopen : q.hasNode isOpenDeferral = false) :
    EqualBut SamePlaces r q := by
  have hplaces : ∀ {q r}, s.StepsTo q r → q.Built → q.hasNode isSelection = false →
      q.isSpan = true → EqualBut SamePlaces r q := fun h hq hselects hspan =>
    h.equalBut_of_isSpan hq hselects hspan rfl
  induction hq generalizing r with
  | @atom q hatom =>
    rw [hasNode_atom hatom] at hselects
    rw [h.atom hatom hselects]
    exact .refl q
  | boost factor _ ih =>
    obtain ⟨r, rfl, hr⟩ := h.boost
    exact .boost factor (ih hr hselects hopen)
  | @boolean clauses _ ih =>
    obtain ⟨clauses', rfl, hclauses⟩ := h.boolean
    refine equalBut_boolean (forall₂_imp_of_mem hclauses fun c hc c' hcc => ?_).flip
    exact ⟨hcc.1, ih c hc hcc.2 ((hasNode_boolean rfl).1 hselects c hc)
      ((hasNode_boolean rfl).1 hopen c hc)⟩
  | spanOr hbuilt hfields => exact hplaces h (.spanOr hbuilt hfields) hselects rfl
  | spanNear slop inOrder hbuilt hfields hsome =>
    exact hplaces h (.spanNear slop inOrder hbuilt hfields hsome) hselects rfl
  | withoutPayload hbuilt hfield => exact hplaces h (.withoutPayload hbuilt hfield) hselects rfl
  | frequentSpan least hbuilt hfield =>
    exact hplaces h (.frequentSpan least hbuilt hfield) hselects rfl
  | @deferred q plan hbuilt =>
    have hspan : q.isSpan = true := isSpan_of_isOpenDeferral hopen
    exact hplaces h (.deferred plan hbuilt) hselects hspan

/-- The same of a query that is wrapped, if there are no deferrals in that but for places. -/
theorem StepsTo.equalBut_wrapped (h : s.StepsTo q r) (hw : Wrapped g q q') (hq : q.Built)
    (hselects : q.hasNode isSelection = false) (hopen : q'.hasNode isOpenDeferral = false) :
    EqualBut SamePlaces r q' := by
  induction hw generalizing r with
  | refl => exact h.equalBut hq hselects hopen
  | here _ _ hw =>
    have hspan := hw.isSpan.symm.trans (isSpan_of_isOpenDeferral hopen)
    exact h.equalBut_of_isSpan hq hselects hspan hw.essence
  | boost factor _ ih =>
    obtain ⟨r, rfl, hr⟩ := h.boost
    exact .boost factor (ih hr (built_boost.1 hq) hselects hopen)
  | @boolean _ clauses clauses' hlength hoccur hw ih =>
    obtain ⟨next, rfl, hnext⟩ := h.boolean
    have hzip : List.Forall₂ (fun c c' => (c, c') ∈ clauses.zip clauses') clauses clauses' :=
      forall₂_of_zip hlength fun _ hc => hc
    refine equalBut_boolean (forall₂_comp ?_ hnext.flip hzip)
    rintro d c c' ⟨hd, hstep⟩ hc
    obtain ⟨hmem, hmem'⟩ := List.of_mem_zip hc
    exact ⟨hd.trans (hoccur _ hc), ih _ hc hstep (built_boolean.1 hq c hmem)
      ((hasNode_boolean rfl).1 hselects c hmem) ((hasNode_boolean rfl).1 hopen c' hmem')⟩
  | spanOr field hlength hw =>
    exact h.equalBut_of_isSpan hq hselects rfl (Wrapped.spanOr field hlength hw).essence
  | spanNear field slop inOrder hlength hw =>
    have hessence := (Wrapped.spanNear field slop inOrder hlength hw).essence
    exact h.equalBut_of_isSpan hq hselects rfl hessence
  | withoutPayload hw =>
    exact h.equalBut_of_isSpan hq hselects rfl (Wrapped.withoutPayload hw).essence
  | frequentSpan least hw =>
    exact h.equalBut_of_isSpan hq hselects rfl (Wrapped.frequentSpan least hw).essence
  | deferred _ hw =>
    have hspan := hw.isSpan.symm.trans (isSpan_of_isOpenDeferral hopen)
    exact h.equalBut_of_isSpan hq hselects hspan hw.essence

/-- A plan without rules leaves what a step comes to as it is, and so does any plan where that
stands for places. -/
theorem stepped_bind_traversed {plan : Plan} (hq : q.Built)
    (hidle : plan.hasRules = false ∨ q.isSpan = true) :
    s.stepped q >>= plan.traversed = s.stepped q := by
  cases h : s.stepped q with
  | error => rfl
  | ok r =>
    have hstep := stepped_eq_ok.1 h
    rcases hidle with hrules | hspan
    · exact Plan.traversed_of_not_hasRules hrules hstep.selects
    · obtain ⟨field, hfield⟩ := hq.exists_spanField? hspan
      exact Plan.traversed_of_isSpan (isSpan_of_spanField? ((hstep.built hq).2 field hfield))

theorem sameFault_refl (e : Fault) : SameFault e e := .inl rfl

/-- Steps on the operands of a query for places agree on what they ask for. -/
theorem tandem_operands {qs qs' : List Query} (hlength : qs.length = qs'.length)
    (h : ∀ c ∈ qs.zip qs', Tandem SameFault g.inPlaces.Agree (s.stepped c.1) (s.stepped c.2)) :
    Tandem SameFault (fun next next' => essenceAll next = essenceAll next')
      (qs.mapM s.stepped) (qs'.mapM s.stepped) :=
  (tandem_mapM (forall₂_of_zip hlength h)).mono_of_ok fun _ _ _ _ hall =>
    essenceAll_congr (hall.imp fun _ _ => Guard.Agree.essence)

/-- A wrapper without rules makes no difference to a step. -/
theorem tandem_wrapper {plan : Plan} (hrules : plan.hasRules = false) (hw : Wrapped g q q')
    (hg : g ≠ .off) (hq : q.Built)
    (hguard : g = .on → q.hasNode isSelection = true ∨ q'.hasNode isOpenDeferral = false)
    (hinner : Tandem SameFault g.Agree (s.stepped q) (s.stepped q')) :
    Tandem SameFault g.Agree (s.stepped q) (s.stepped (.deferred q' plan)) := by
  have hq' := hw.built hq
  cases hselects : q.hasNode isSelection with
  | true =>
    -- the plan of the wrapper is carried out, and does nothing
    rw [stepped_deferred_of_selects (hw.selects.trans hselects),
      stepped_bind_traversed hq' (.inl hrules)]
    exact hinner
  | false =>
    -- the wrapper is taken off, and the step on the query itself changes no more than deferrals
    obtain ⟨r, hr, hsame⟩ := exists_stepped_of_not_selects s hq hselects
    rw [hr, stepped_deferred_of_not_selects hq' (hw.selects.trans hselects)]
    refine .ok ?_
    cases g with
    | off => exact absurd rfl hg
    | idle => exact ((same_iff_essence r q).1 hsame).trans hw.essence
    | on =>
      have hopen := (hguard rfl).resolve_left (Bool.eq_false_iff.1 hselects)
      exact (stepped_eq_ok.1 hr).equalBut_wrapped hw hq hselects hopen

/-- Steps on deferred queries with the same plan agree if those on the queries inside do, as far as
the plan is going to look. -/
theorem tandem_deferred {plan : Plan} (hw : Wrapped (g.within (plan.looksInto q)) q q')
    (hg : g ≠ .off) (hq : q.Built)
    (hguard : g = .on → q.isSpan = true ∨ q.hasNode isSelection = true)
    (hinner : Tandem SameFault (g.within (plan.looksInto q)).Agree (s.stepped q) (s.stepped q')) :
    Tandem SameFault g.Agree (s.stepped (.deferred q plan)) (s.stepped (.deferred q' plan)) := by
  have hq' := hw.built hq
  cases hselects : q.hasNode isSelection with
  | false =>
    rw [stepped_deferred_of_not_selects hq hselects,
      stepped_deferred_of_not_selects hq' (hw.selects.trans hselects)]
    refine .ok ?_
    cases g with
    | off => exact absurd rfl hg
    | idle => exact hw.essence
    | on =>
      have hspan := (hguard rfl).resolve_right (Bool.eq_false_iff.1 hselects)
      exact .of_places hw.essence hspan
  | true =>
    rw [stepped_deferred_of_selects hselects,
      stepped_deferred_of_selects (hw.selects.trans hselects)]
    cases hlooks : plan.looksInto q with
    | false =>
      have hidle : plan.hasRules = false ∨ q.isSpan = true := by
        rw [Plan.looksInto, hselects, Bool.and_true] at hlooks
        exact (Bool.and_eq_false_iff.1 hlooks).imp_right Bool.not_eq_eq_eq_not.1
      rw [stepped_bind_traversed hq hidle, stepped_bind_traversed hq' (hw.isSpan ▸ hidle)]
      rwa [hlooks, Guard.within_false] at hinner
    | true =>
      -- the guard is on, so that the plan finds the same rules for both
      rw [hlooks, Guard.within_true hg] at hinner
      refine hinner.bind_of_ok fun next next' _ _ hagree => ?_
      exact (plan.tandem_traversed hagree).mono_of_ok fun _ _ _ _ => .of_equalBut

/-- A step on a wrapped query and one on the query itself fail alike, or agree on what they come
to. -/
theorem tandem_stepped (s : Searcher) (hw : Wrapped g q q') (hg : g ≠ .off) (hq : q.Built) :
    Tandem SameFault g.Agree (s.stepped q) (s.stepped q') := by
  induction hw with
  | refl => exact tandem_refl sameFault_refl (fun q => .of_equalBut (.refl q)) _
  | here plan hrules hw hguard ih => exact tandem_wrapper hrules hw hg hq hguard (ih hg hq)
  | boost factor _ ih =>
    rw [stepped_boost, stepped_boost]
    exact (ih hg (built_boost.1 hq)).map fun _ _ h => h.boost factor
  | boolean hlength hoccur _ ih =>
    rw [stepped_boolean, stepped_boolean]
    refine (tandem_mapM (forall₂_of_zip hlength fun c hc => ?_)).map fun _ _ =>
      Guard.Agree.boolean
    have hclause := ih c hc hg (built_boolean.1 hq c.1 (List.of_mem_zip hc).1)
    exact hclause.map fun _ _ h => ⟨hoccur c hc, h⟩
  | spanOr field hlength hw ih =>
    have hall := tandem_operands hlength fun c hc =>
      ih c hc (Guard.inPlaces_ne_off hg) (built_spanOr.1 hq c.1 (List.of_mem_zip hc).1).1
    rw [stepped_spanOr hq, stepped_spanOr ((Wrapped.spanOr field hlength hw).built hq)]
    exact hall.map fun _ _ h => .of_places (congrArg (Query.spanOr field) h) rfl
  | spanNear field slop inOrder hlength hw ih =>
    have hall := tandem_operands hlength fun c hc =>
      ih c hc (Guard.inPlaces_ne_off hg) ((built_spanNear.1 hq).2 c.1 (List.of_mem_zip hc).1).1
    rw [stepped_spanNear hq,
      stepped_spanNear ((Wrapped.spanNear field slop inOrder hlength hw).built hq)]
    exact hall.map fun _ _ h => .of_places (congrArg (Query.spanNear field · slop inOrder) h) rfl
  | withoutPayload hw ih =>
    rw [stepped_withoutPayload hq, stepped_withoutPayload ((Wrapped.withoutPayload hw).built hq)]
    refine (ih (Guard.inPlaces_ne_off hg) (built_withoutPayload.1 hq).1).map fun _ _ h => ?_
    exact .of_places (congrArg Query.withoutPayload h.essence) rfl
  | frequentSpan least hw ih =>
    rw [stepped_frequentSpan hq, stepped_frequentSpan ((Wrapped.frequentSpan least hw).built hq)]
    refine (ih (Guard.inPlaces_ne_off hg) (built_frequentSpan.1 hq).1).map fun _ _ h => ?_
    exact .of_places (congrArg (Query.frequentSpan · least) h.essence) rfl
  | deferred plan hw hguard ih =>
    have hinner := ih (Guard.within_ne_off hg) (built_deferred.1 hq)
    exact tandem_deferred hw hg (built_deferred.1 hq) hguard hinner

/-! ### Grounding of wrapped queries -/

/-- A step fails because of the passes of a plan only if some plan has rules. -/
theorem hasNode_defersToRules {given : String} {passes : Nat} (hq : q.Built)
    (h : s.stepped q = .error (.traversalDiverged given passes)) :
    q.hasNode defersToRules = true := by
  have hexpand : ∀ m, expand s.snapshot s.settings.maxClauseCount m ≠
      .error (.traversalDiverged given passes) := by
    intro m hm
    rw [expand] at hm
    split at hm <;> cases hm
  obtain ⟨r, hr, hin⟩ := exists_failing_node hq h
  refine hin _ ?_
  cases hr with
  | multiTerm hm => exact absurd hm (hexpand _)
  | spanMultiTerm hm => exact absurd hm (hexpand _)
  | @deferred _ _ plan _ hstep htraversed =>
    refine Bool.or_eq_true_iff.2 (.inl (Bool.of_not_eq_false fun hrules => ?_))
    rw [Plan.traversed_of_not_hasRules hrules hstep.selects] at htraversed
    cases htraversed

/-- Deferrals without rules make no difference to what a query is grounded to, unless they keep a
plan with rules from what they are put around: `Wrapped` says where they may be. If the passes of
grounding suffice, then both the query and the wrapped one come to queries that are the same and in
which nothing is left to ground, or both fail because the same selection is too large, or both
because the passes of a plan with rules do not suffice. The passes suffice for both if they do for
the deferrals of the wrapped query. -/
theorem wrapping_transparent (s : Searcher) {q q' : Query} (hq : q.Built)
    (hw : Wrapped .idle q q') :
    (max 1 q'.deferralDepth + 1 ≤ s.settings.maxPasses → s.Converges q ∧ s.Converges q') ∧
      (s.Converges q → s.Converges q' →
        (∃ r r', s.grounded q = .ok r ∧ s.grounded q' = .ok r' ∧ r.same r' = true ∧
          r.hasNode isUnbound = false ∧ r'.hasNode isUnbound = false) ∨
        (∃ m : MultiTerm, s.settings.maxClauseCount < (s.snapshot.select m).keys.length ∧
          s.grounded q = .error (.tooManyTerms m.display (s.snapshot.select m).keys.length
            s.settings.maxClauseCount) ∧
          s.grounded q' = .error (.tooManyTerms m.display (s.snapshot.select m).keys.length
            s.settings.maxClauseCount)) ∨
        (q.hasNode defersToRules = true ∧
          (∃ given passes, s.grounded q = .error (.traversalDiverged given passes)) ∧
          ∃ given passes, s.grounded q' = .error (.traversalDiverged given passes))) := by
  have hq' := hw.built hq
  refine ⟨fun hpasses => ⟨converges_of_passes hq ?_, converges_of_passes hq' hpasses⟩,
    fun hconverges hconverges' => ?_⟩
  · have hdepth := hw.deferralDepth_le
    omega
  · have hground := tandem_grounded hq hconverges
    have hground' := tandem_grounded hq' hconverges'
    rcases (tandem_stepped s hw Guard.noConfusion hq).ok_or_error with
      ⟨next, next', hnext, hnext', hagree⟩ | ⟨e, e', he, he', hfault⟩
    · obtain ⟨r, hr, hsame, hbound⟩ := hground.exists_ok hnext
      obtain ⟨r', hr', hsame', hbound'⟩ := hground'.exists_ok hnext'
      have hnexts : next.same next' = true := (same_iff_essence next next').2 hagree
      have hall : r.same r' = true := same_trans (same_trans hsame hnexts) (same_symm hsame')
      exact .inl ⟨r, r', hr, hr', hall, hbound, hbound'⟩
    · obtain ⟨_, hr, rfl⟩ := hground.exists_error he
      obtain ⟨_, hr', rfl⟩ := hground'.exists_error he'
      cases stepFault_of_groundStep hq (stepped_eq_error.1 he) with
      | tooManyTerms m hmany =>
        rcases hfault with rfl | ⟨⟨given, passes, hdiverged⟩, -⟩
        · exact .inr (.inl ⟨m, hmany, hr, hr'⟩)
        · cases hdiverged
      | traversalDiverged given passes =>
        have hrules := hasNode_defersToRules hq he
        rcases hfault with rfl | ⟨-, given', passes', rfl⟩
        · exact .inr (.inr ⟨hrules, ⟨given, passes, hr⟩, given, passes, hr'⟩)
        · exact .inr (.inr ⟨hrules, ⟨given, passes, hr⟩, given', passes', hr'⟩)

/-- Wrappers around a whole query, around a prefix that a plan is going to look at, and twice
around a term that no plan looks at. -/
theorem wrapping_transparent_prefix :
    let p : Plan := ⟨[.exactTerm], default, Mapping.empty.withField "body" .text, default⟩
    let idle : Plan := ⟨[], default, default, default⟩
    let ranges : Plan := ⟨[.deferRange], default, default, default⟩
    let s : Searcher := ⟨.ofSteps [("body", .payloads)] [.add [("body", [⟨"fox", 0, none⟩])]] 0,
      default⟩
    let selection : Query := .multiTerm ⟨"body", .beginning "f", none⟩
    let q : Query := .boolean [(.must, .deferred selection p), (.should, .term ⟨"body", "fox"⟩)]
    let q' : Query := .deferred (.boolean [(.must, .deferred (.deferred selection ranges) p),
      (.should, .deferred (.deferred (.term ⟨"body", "fox"⟩) idle) idle)]) ranges
    let r : Query := .boolean
      [(.must, .boolean [(.should, .withoutPayload (.spanTerm ⟨"body", "fox"⟩))]),
        (.should, .term ⟨"body", "fox"⟩)]
    (q.Built ∧ Wrapped .idle q q' ∧ s.Converges q ∧ s.Converges q') ∧
      s.grounded q = .ok r ∧ ∃ r', s.grounded q' = .ok r' ∧ r.same r' = true ∧
        r'.hasNode isUnbound = false := by
  intro p idle ranges s selection q q' r
  have hq : q.Built := by
    refine .boolean ?_
    simp only [List.forall_mem_cons]
    exact ⟨.deferred p (.atom rfl), .atom rfl, List.forall_mem_nil _⟩
  have hselection : Wrapped .idle (.deferred selection p)
      (.deferred (.deferred selection ranges) p) :=
    .deferred p (.here ranges rfl (.refl _ _) fun _ => .inl rfl) Guard.noConfusion
  have hterm : Wrapped .idle (.term ⟨"body", "fox"⟩)
      (.deferred (.deferred (.term ⟨"body", "fox"⟩) idle) idle) :=
    .here idle rfl (.here idle rfl (.refl _ _) Guard.noConfusion) Guard.noConfusion
  have hw : Wrapped .idle q q' := by
    refine .here ranges rfl (.boolean rfl ?_ ?_) Guard.noConfusion
    all_goals simp only [List.zip_cons_cons, List.zip_nil_right, List.forall_mem_cons]
    · exact ⟨trivial, trivial, List.forall_mem_nil _⟩
    · exact ⟨hselection, hterm, List.forall_mem_nil _⟩
  obtain ⟨hpasses, hboth⟩ := wrapping_transparent s hq hw
  obtain ⟨hconverges, hconverges'⟩ := hpasses (by decide)
  have hground : s.grounded q = .ok r := by cbv
  refine ⟨⟨hq, hw, hconverges, hconverges'⟩, hground, ?_⟩
  rcases hboth hconverges hconverges' with
    ⟨r₁, r', hr, hr', hsame, -, hbound⟩ | ⟨m, -, herror, -⟩ | ⟨-, ⟨given, passes, herror⟩, -⟩
  · cases hground.symm.trans hr
    exact ⟨r', hr', hsame, hbound⟩
  · cases hground.symm.trans herror
  · cases hground.symm.trans herror

/-- Two wrappers around a term next to a prefix. The first step takes one of them off, so that the
plan around both finds the other one in place of the term, which it does not make exact. -/
theorem wrapping_opaque_nested :
    let p : Plan := ⟨[.exactTerm], default, Mapping.empty.withField "body" .text, default⟩
    let idle : Plan := ⟨[], default, default, default⟩
    let s : Searcher := ⟨.ofSteps [("body", .payloads)] [.add [("body", [⟨"fox", 0, none⟩])]] 0,
      default⟩
    let selection : Query := .multiTerm ⟨"body", .beginning "f", none⟩
    let term : Query := .term ⟨"body", "fox"⟩
    let places : Query := .withoutPayload (.spanTerm ⟨"body", "fox"⟩)
    let q : Query := .deferred (.boolean [(.should, term), (.should, selection)]) p
    let q' : Query := .deferred
      (.boolean [(.should, .deferred (.deferred term idle) idle), (.should, selection)]) p
    let r : Query := .boolean [(.should, places), (.should, .boolean [(.should, places)])]
    let r' : Query := .boolean [(.should, term), (.should, .boolean [(.should, places)])]
    (q.Built ∧ idle.chain = [] ∧ Wrapped .off q q' ∧
      max 1 q'.deferralDepth + 1 ≤ s.settings.maxPasses) ∧
      s.grounded q = .ok r ∧ s.grounded q' = .ok r' ∧ r.same r' = false := by
  intro p idle s selection term places q q' r r'
  have hq : q.Built := by
    refine .deferred p (.boolean ?_)
    simp only [List.forall_mem_cons]
    exact ⟨.atom rfl, .atom rfl, List.forall_mem_nil _⟩
  have hterm : Wrapped .off term (.deferred (.deferred term idle) idle) :=
    .here idle rfl (.here idle rfl (.refl _ _) Guard.noConfusion) Guard.noConfusion
  have hw : Wrapped .off q q' := by
    refine .deferred p (.boolean rfl ?_ ?_) Guard.noConfusion
    all_goals simp only [List.zip_cons_cons, List.zip_nil_right, List.forall_mem_cons]
    · exact ⟨trivial, trivial, List.forall_mem_nil _⟩
    · exact ⟨hterm, .refl _ _, List.forall_mem_nil _⟩
  exact ⟨⟨hq, rfl, hw, by decide⟩, by cbv, by cbv, rfl⟩

end Searcher

end TextSearch
