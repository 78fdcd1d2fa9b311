import TextSearch.Proofs.Plan.Rewriting
import TextSearch.Proofs.Query.Nodes

/-!
# What traversals keep

Rewriting builds no node that could not have been built, leaves span queries as they
are, and makes neither selections nor deferrals where nothing is selected. How deep a
traversal goes makes no difference to a query without parts. A traversal fails only
where its passes do not suffice.
-/

namespace TextSearch

namespace Plan

variable {p : Plan}

/-! ### Single changes -/

theorem built_exactPlaces (t : Term) : (exactPlaces t).Built :=
  .withoutPayload (.atom rfl) (rfl : (Query.spanTerm t).spanField? = some t.field)

theorem built_exactMultiPlaces (m : MultiTerm) : (exactMultiPlaces m).Built :=
  .withoutPayload (.atom rfl) (rfl : (Query.spanMultiTerm m).spanField? = some m.field)

theorem built_exactForm {q : Query} (hq : q.Built) (t : Term) (fromPhrase : Bool) :
    (p.exactForm q t fromPhrase).Built := by
  rcases p.exactForm_cases q t fromPhrase with h | ⟨factor, h⟩ <;> rw [h]
  · exact built_exactPlaces t
  · refine .boolean (List.forall_mem_cons.2 ⟨hq, List.forall_mem_cons.2 ⟨?_, by simp⟩⟩)
    exact .boost factor (built_exactPlaces t)

theorem Change.built {r : Rule} {q q' : Query} (h : p.Change r q q') : q'.Built := by
  cases h with
  | term => exact built_exactForm (.atom rfl) _ _
  | markedTerm => exact built_exactForm (.atom rfl) _ _
  | markedPlaces t => exact built_exactPlaces t
  | multiTerm m => exact built_exactMultiPlaces m
  | frequentMultiTerm m =>
    exact .frequentSpan _ (built_exactMultiPlaces m.withoutMinimum)
      (rfl : _ = some m.withoutMinimum.field)
  | frequentTerm t => exact .frequentSpan _ (built_exactPlaces t) (rfl : _ = some t.field)
  | requirePlaces t => exact .frequentSpan _ (built_exactPlaces t) (rfl : _ = some t.field)
  | defer m => exact .deferred p (.atom rfl)
  | _ => exact .atom rfl

/-- No rule changes a span query. -/
theorem Change.spanField? {r : Rule} {q q' : Query} (h : p.Change r q q') :
    q.spanField? = none := by
  cases h <;> rfl

theorem exactForm_selects {q : Query} (hq : q.hasNode Query.isSelection = false) (t : Term)
    (fromPhrase : Bool) : (p.exactForm q t fromPhrase).hasNode Query.isSelection = false := by
  rcases p.exactForm_cases q t fromPhrase with h | ⟨factor, h⟩ <;> rw [h]
  · rfl
  · refine (Query.hasNode_boolean rfl).2 (List.forall_mem_cons.2 ⟨hq, ?_⟩)
    exact List.forall_mem_cons.2 ⟨rfl, by simp⟩

/-- Where nothing is selected a change selects nothing. -/
theorem Change.selects {r : Rule} {q q' : Query} (h : p.Change r q q')
    (hq : q.hasNode Query.isSelection = false) : q'.hasNode Query.isSelection = false := by
  cases h with
  | term => exact exactForm_selects rfl _ _
  | markedTerm => exact exactForm_selects rfl _ _
  | multiTerm => cases hq
  | frequentMultiTerm => cases hq
  | defer => cases hq
  | _ => rfl

/-- Where nothing is selected a change defers nothing. -/
theorem Change.deferralDepth {r : Rule} {q q' : Query} (h : p.Change r q q')
    (hq : q.hasNode Query.isSelection = false) : q'.deferralDepth = 0 := by
  have hform : ∀ (q : Query) (t : Term) (fromPhrase : Bool), q.deferralDepth = 0 →
      (p.exactForm q t fromPhrase).deferralDepth = 0 := by
    intro q t fromPhrase hq
    rcases p.exactForm_cases q t fromPhrase with h | ⟨factor, h⟩ <;> rw [h]
    · rfl
    · change max q.deferralDepth 0 = 0
      rw [hq]
      rfl
  cases h with
  | term => exact hform _ _ _ rfl
  | markedTerm => exact hform _ _ _ rfl
  | defer => cases hq
  | _ => rfl

/-! ### Rewriting -/

theorem Step.built {q q' : Query} (h : p.Step q q') (hq : q.Built) : q'.Built := by
  induction h with
  | node _ hchange _ => exact hchange.built
  | boost factor _ ih => exact .boost factor (ih (Query.built_boost.1 hq))
  | @clause q q' before o after _ ih =>
    rw [Query.built_boolean, List.forall_mem_append, List.forall_mem_cons] at hq ⊢
    exact ⟨hq.1, ih hq.2.1, hq.2.2⟩

theorem Step.selects {q q' : Query} (h : p.Step q q') (hq : q.hasNode Query.isSelection = false) :
    q'.hasNode Query.isSelection = false := by
  induction h with
  | node _ hchange _ => exact hchange.selects hq
  | boost _ _ ih => exact ih hq
  | @clause q q' before o after _ ih =>
    rw [Query.hasNode_boolean rfl, List.forall_mem_append, List.forall_mem_cons] at hq ⊢
    exact ⟨hq.1, ih hq.2.1, hq.2.2⟩

theorem Step.deferralDepth_le {q q' : Query} (h : p.Step q q')
    (hq : q.hasNode Query.isSelection = false) {n : Nat} (hn : q.deferralDepth ≤ n) :
    q'.deferralDepth ≤ n := by
  induction h with
  | node _ hchange _ =>
    rw [hchange.deferralDepth hq]
    exact Nat.zero_le n
  | boost _ _ ih => exact ih hq hn
  | @clause q q' before o after _ ih =>
    rw [Query.hasNode_boolean rfl, List.forall_mem_append, List.forall_mem_cons] at hq
    rw [Query.deferralDepth, Query.clausesDeferralDepth_le_iff, List.forall_mem_append,
      List.forall_mem_cons] at hn ⊢
    exact ⟨hn.1, ih hq.2.1 hn.2.1, hn.2.2⟩

theorem Rewrites.built {q q' : Query} (h : p.Rewrites q q') (hq : q.Built) : q'.Built := by
  induction h with
  | refl => exact hq
  | tail _ hstep ih => exact hstep.built ih

theorem Rewrites.selects {q q' : Query} (h : p.Rewrites q q')
    (hq : q.hasNode Query.isSelection = false) : q'.hasNode Query.isSelection = false := by
  induction h with
  | refl => exact hq
  | tail _ hstep ih => exact hstep.selects ih

theorem Rewrites.deferralDepth_le {q q' : Query} (h : p.Rewrites q q')
    (hq : q.hasNode Query.isSelection = false) : q'.deferralDepth ≤ q.deferralDepth := by
  induction h with
  | refl => exact Nat.le_refl _
  | tail hrest hstep ih => exact hstep.deferralDepth_le (Rewrites.selects hrest hq) ih

/-- Rewriting leaves a span query as it is. -/
theorem Rewrites.eq_of_span {q q' : Query} {field : String} (h : p.Rewrites q q')
    (hq : q.spanField? = some field) : q' = q := by
  induction h with
  | refl => rfl
  | tail _ hstep ih =>
    subst ih
    cases hstep with
    | node _ hchange _ =>
      rw [hchange.spanField?] at hq
      cases hq
    | boost => cases hq
    | clause => cases hq

/-- Rewriting leaves whatever stands for places as it is, whether it could have been built or not. -/
theorem Rewrites.eq_of_isSpan {q q' : Query} (h : p.Rewrites q q') (hq : q.isSpan = true) :
    q' = q := by
  induction h with
  | refl => rfl
  | tail _ hstep ih =>
    subst ih
    cases hstep with
    | node _ hchange _ => cases hchange <;> cases hq
    | boost => cases hq
    | clause => cases hq

/-- A term with a minimum frequency is left as it is or made exact. -/
theorem Rewrites.frequentTerm {t : Term} {least : Threshold} {carried : Option TermLookup}
    {q : Query} (h : p.Rewrites (.frequentTerm t least carried) q) :
    q = .frequentTerm t least carried ∨ q = .frequentSpan (exactPlaces t) least := by
  induction h with
  | refl => exact .inl rfl
  | tail _ hstep ih =>
    rcases ih with rfl | rfl
    · cases hstep with
      | node _ hchange _ =>
        cases hchange
        exact .inr rfl
    · cases hstep with
      | node _ hchange _ => cases hchange

/-! ### What is left as it is -/

theorem find?_congr {q q' : Query} (h : ∀ r : Rule, r.accepts q' = r.accepts q)
    (passed : Option Nat) : p.find? passed q' = p.find? passed q := by
  simp only [find?, h]

theorem find?_eq_none {q : Query} (h : ∀ r : Rule, r.accepts q = false) (passed : Option Nat) :
    p.find? passed q = none :=
  find?_eq_none_of_chain (fun r _ => h r) passed

theorem eq_throughBoost {r : Rule} {q : Query} {factor : Single}
    (h : r.accepts (.boost q factor) = true) : r = .throughBoost := by
  cases r <;> first | rfl | cases h

/-- For a boost only rules for boosts are found. -/
theorem find?_boost (passed : Option Nat) (q : Query) (factor : Single) :
    p.find? passed (.boost q factor) = none ∨
      ∃ i, p.find? passed (.boost q factor) = some (i, .throughBoost) := by
  cases hfind : p.find? passed (.boost q factor) with
  | none => exact .inl rfl
  | some found =>
    obtain ⟨i, r⟩ := found
    obtain rfl := eq_throughBoost (find?_eq_some hfind).2
    exact .inr ⟨i, rfl⟩

theorem accepts_of_isSpan {q : Query} (h : q.isSpan = true) (r : Rule) : r.accepts q = false := by
  cases q <;> first | cases h; done | (cases r <;> rfl)

/-- A traversal leaves places as they are. -/
theorem traverseTo_of_isSpan {q : Query} (h : q.isSpan = true) (depth : Nat) :
    p.traverseTo depth q = .ok none := by
  have hfind : p.find? none q = none := find?_eq_none (accepts_of_isSpan h) none
  cases depth with
  | zero => rfl
  | succ depth =>
    rw [traverseTo.eq_def]
    simp only [hfind]
    cases q <;> first | rfl | cases h

theorem traversed_of_isSpan {q : Query} (h : q.isSpan = true) : p.traversed q = .ok q := by
  rw [traversed, traverse, traverseTo_of_isSpan h]
  rfl

/-- A traversal leaves deferred queries as they are. -/
theorem traverseTo_deferred (q : Query) (plan : Plan) (depth : Nat) :
    p.traverseTo depth (.deferred q plan) = .ok none := by
  have hfind : p.find? none (.deferred q plan) = none :=
    find?_eq_none (fun r => by cases r <;> rfl) none
  cases depth with
  | zero => rfl
  | succ depth =>
    rw [traverseTo.eq_def]
    simp only [hfind]

/-! ### Depths -/

/-! Only boosts have rules look inside, and no rule makes a boost. -/

theorem ne_boost_of_changeNode {r : Rule} {q next : Query} (h : p.changeNode r q = some next)
    (q' : Query) (factor : Single) : next ≠ .boost q' factor := by
  have hform : ∀ q t fromPhrase, p.exactForm q t fromPhrase ≠ .boost q' factor := by
    intro q t fromPhrase
    rcases p.exactForm_cases q t fromPhrase with h | ⟨factor, h⟩ <;> rw [h] <;> exact nofun
  rintro rfl
  cases r with
  | exactTerm =>
    cases q <;> simp [changeNode, hform] at h
  | exactFrequentMultiTerm =>
    cases q with
    | multiTerm m => cases hleast : m.least <;> simp [changeNode, hleast] at h
    | _ => simp [changeNode] at h
  | requireFrequency least =>
    cases q with
    | term t =>
      simp only [changeNode, Option.some.injEq] at h
      split at h <;> cases h
    | _ => simp [changeNode] at h
  | _ => cases q <;> simp [changeNode, exactPlaces, exactMultiPlaces] at h

theorem apply_of_ne_boost {inner : Query → Except Fault (Option Query)} {r : Rule} {q : Query}
    (hq : ∀ q' factor, q ≠ .boost q' factor) : p.apply inner r q = .ok (p.changeNode r q) := by
  cases r with
  | throughBoost =>
    cases q with
    | boost q' factor => exact absurd rfl (hq q' factor)
    | _ => rfl
  | _ => rfl

theorem hand_of_ne_boost {inner inner' : Query → Except Fault (Option Query)} (given : Query)
    (passes : Nat) (found : Nat × Rule) {q : Query} (hq : ∀ q' factor, q ≠ .boost q' factor) :
    p.hand inner given passes found q = p.hand inner' given passes found q := by
  induction passes generalizing found q with
  | zero => rfl
  | succ passes ih =>
    obtain ⟨i, r⟩ := found
    rw [hand, hand, apply_of_ne_boost hq, apply_of_ne_boost hq]
    cases hnext : p.changeNode r q with
    | none => rfl
    | some next =>
      simp only [bind, Except.bind]
      cases p.find? (some i) next with
      | none => rfl
      | some found => simp only [ih found (ne_boost_of_changeNode hnext)]

/-- How deep a query without parts is traversed makes no difference. -/
theorem traverse_atom {q : Query} (hq : q.isAtom = true) (depth : Nat) :
    p.traverse q = p.traverseTo (depth + 1) q := by
  have hne : ∀ q' factor, q ≠ .boost q' factor := by
    rintro q' factor rfl
    cases hq
  rw [traverse, depthFor, traverseTo.eq_def, traverseTo.eq_def p (depth + 1)]
  simp only
  cases p.find? none q with
  | some found => exact hand_of_ne_boost q _ found hne
  | none => cases q <;> first | rfl | cases hq

/-! ### Faults -/

/-- A function that fails only where the passes of some traversal do not suffice. -/
def FailsByPasses (f : Query → Except Fault (Option Query)) : Prop :=
  ∀ q e, f q = .error e → ∃ given passes, e = .traversalDiverged given passes

theorem failsByPasses_hand {inner : Query → Except Fault (Option Query)}
    (hinner : FailsByPasses inner) (given : Query) (passes : Nat) (found : Nat × Rule) :
    FailsByPasses (p.hand inner given passes found) := by
  have happly : ∀ r, FailsByPasses (p.apply inner r) := by
    intro r q e h
    cases r with
    | throughBoost =>
      cases q with
      | boost q factor => exact hinner q e (except_map_eq_error.1 h)
      | _ => cases h
    | _ => cases h
  induction passes generalizing found with
  | zero =>
    intro q e h
    cases h
    exact ⟨_, _, rfl⟩
  | succ passes ih =>
    intro q e h
    rw [hand] at h
    rcases except_bind_eq_error.1 h with h | ⟨o, -, h⟩
    · exact happly _ _ _ h
    · cases o with
      | none => cases h
      | some next =>
        cases hfind : p.find? (some found.1) next with
        | none =>
          simp only [hfind] at h
          cases h
        | some found' =>
          simp only [hfind] at h
          rcases except_bind_eq_error.1 h with h | ⟨_, -, h⟩
          · exact ih found' next e h
          · cases h

theorem failsByPasses_traverseTo (p : Plan) : ∀ depth, FailsByPasses (p.traverseTo depth)
  | 0, _, _, h => by cases h
  | depth + 1, q, e, h => by
    have hinner := failsByPasses_traverseTo p depth
    unfold traverseTo at h
    cases hfind : p.find? none q with
    | some found =>
      rw [hfind] at h
      exact failsByPasses_hand hinner q _ found q e h
    | none =>
      simp only [hfind] at h
      cases q with
      | boost q factor => exact hinner q e (except_map_eq_error.1 h)
      | boolean clauses =>
        obtain ⟨c, -, hc⟩ := exists_of_changeAll_eq_error (except_map_eq_error.1 h)
        exact hinner c.2 e (except_map_eq_error.1 hc)
      | _ => cases h

/-- A traversal that fails does so because its passes do not suffice. -/
theorem eq_traversalDiverged {q : Query} {e : Fault} (h : p.traversed q = .error e) :
    ∃ given passes, e = .traversalDiverged given passes :=
  failsByPasses_traverseTo p _ q e (except_map_eq_error.1 h)

end Plan

end TextSearch
