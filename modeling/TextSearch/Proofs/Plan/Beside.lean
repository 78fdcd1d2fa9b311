import TextSearch.Proofs.Plan.Settling

/-!
# Exact forms beside terms

A plan that goes through boosts and makes terms exact puts the boosted exact form of a term
beside it when that is asked for. `Plan.withExact` says what such a plan makes of a query, and
`Plan.traverseTo_or_spent` that it does, unless there are no passes to be made at all.
-/

namespace TextSearch

namespace Plan

/-- The rules that make terms exact, inside of boosts as well. -/
def exactTermChain : Chain := [.throughBoost, .exactTerm]

mutual

/-- What the rules make of a query that make terms exact, inside of boosts as well. -/
def withExact (p : Plan) : Query → Query
  | .boost q factor => .boost (p.withExact q) factor
  | .boolean clauses => .boolean (p.clausesWithExact clauses)
  | q => (p.changeNode .exactTerm q).getD q

/-- What the rules make of clauses that make terms exact, inside of boosts as well. -/
def clausesWithExact (p : Plan) : List (Occur × Query) → List (Occur × Query)
  | [] => []
  | (o, q) :: rest => (o, p.withExact q) :: p.clausesWithExact rest

end

variable {p : Plan}

theorem clausesWithExact_eq_map (clauses : List (Occur × Query)) :
    p.clausesWithExact clauses = clauses.map fun c => (c.1, p.withExact c.2) := by
  induction clauses with
  | nil => rfl
  | cons c rest ih => rw [clausesWithExact, ih, List.map_cons]

theorem withExact_leaf {q : Query} (hq : q.isLeaf = true) :
    p.withExact q = (p.changeNode .exactTerm q).getD q := by
  cases q <;> first | rfl | cases hq

/-- Clauses that are led one by one to what they are with exact forms are led there as a whole. -/
theorem eq_clausesWithExact {step : Query → Except Fault (Option Query)}
    {clauses clauses' : List (Occur × Query)}
    (h : List.Forall₂ (LeadsTo (changeClause step)) clauses clauses')
    (hstep : ∀ c ∈ clauses, ∀ q', LeadsTo step c.2 q' → q' = p.withExact c.2) :
    clauses' = p.clausesWithExact clauses := by
  induction h with
  | nil => rfl
  | cons hc _ ih =>
    obtain ⟨hfirst, hrest⟩ := List.forall_mem_cons.1 hstep
    obtain ⟨hoccur, hleads⟩ := hc.clause
    rw [clausesWithExact, ih hrest, ← hfirst _ hleads, ← hoccur]

/-- No rule takes up what one of these rules makes of a leaf. -/
theorem not_accepts_of_exactTerm {q next : Query} (h : p.changeNode .exactTerm q = some next)
    (r : Rule) : r.accepts next = false := by
  cases q with
  | term t =>
    cases (Option.ite_none_right_eq_some.1 h).2
    exact accepts_exactForm ..
  | markedTerm t mark =>
    cases (Option.ite_none_right_eq_some.1 h).2
    exact accepts_exactForm ..
  | _ => cases h

section Traversals

variable (hchain : p.chain = exactTermChain)
include hchain

theorem find?_boost_eq (q : Query) (factor : Single) :
    p.find? none (.boost q factor) = some (0, .throughBoost) ∧
      p.find? (some 0) (.boost q factor) = none := by
  rw [find?, find?, hchain]
  exact ⟨rfl, rfl⟩

theorem find?_leaf_eq {q : Query} (hq : q.isLeaf = true) :
    p.find? none q = if Rule.exactTerm.accepts q then some (1, .exactTerm) else none := by
  have hboost : Rule.throughBoost.accepts q = false := by
    cases q <;> first | rfl | cases hq
  rw [find?, hchain, exactTermChain]
  simp only [List.zipIdx_cons, List.zipIdx_nil, List.find?_cons, hboost]
  cases Rule.exactTerm.accepts q <;> rfl

/-- A traversal puts the exact forms beside their terms, unless there are no passes. -/
theorem traverseTo_or_spent {q : Query} {depth : Nat} (hdepth : q.height < depth) :
    (∃ o, p.traverseTo depth q = .ok o ∧ o.getD q = p.withExact q) ∨
      (p.context.settings.maxPasses = 0 ∧ ∃ e, p.traverseTo depth q = .error e) := by
  obtain ⟨depth, rfl⟩ := Nat.exists_eq_add_of_le' (Nat.one_le_of_lt hdepth)
  induction q using Query.combination generalizing depth with
  | hleaf q hq =>
    rw [withExact_leaf hq, traverseTo.eq_def]
    simp only [find?_leaf_eq hchain hq]
    by_cases haccepts : Rule.exactTerm.accepts q = true
    · rw [if_pos haccepts]
      cases hpasses : p.context.settings.maxPasses with
      | zero => exact .inr ⟨rfl, _, rfl⟩
      | succ passes =>
        refine .inl ⟨p.changeNode .exactTerm q, ?_, rfl⟩
        cases hnext : p.changeNode .exactTerm q with
        | none => exact hand_declined (congrArg Except.ok hnext)
        | some next =>
          exact hand_ended (congrArg Except.ok hnext)
            (find?_eq_none (not_accepts_of_exactTerm hnext) _)
    · rw [if_neg haccepts]
      refine .inl ⟨none, ?_, ?_⟩
      · cases q <;> first | rfl | cases hq
      · cases q <;> first | rfl | exact absurd rfl haccepts
  | hboost q factor ih =>
    rw [Query.height, Nat.add_lt_add_iff_right] at hdepth
    obtain ⟨depth, rfl⟩ := Nat.exists_eq_add_of_le' (Nat.one_le_of_lt hdepth)
    rw [traverseTo.eq_def]
    simp only [(find?_boost_eq hchain q factor).1]
    cases hpasses : p.context.settings.maxPasses with
    | zero => exact .inr ⟨rfl, _, rfl⟩
    | succ passes =>
      obtain ⟨o, ho, hmade⟩ := (ih depth hdepth).resolve_right
        fun h => Nat.succ_ne_zero _ (hpasses.symm.trans h.1)
      have happly := apply_boost (p := p) ho factor
      refine .inl ⟨o.map (.boost · factor), ?_, ?_⟩
      · cases o with
        | none => exact hand_declined happly
        | some next => exact hand_ended happly (find?_boost_eq hchain next factor).2
      · rw [withExact, ← hmade]
        cases o <;> rfl
  | hboolean clauses ih =>
    rw [Query.height, Nat.add_lt_add_iff_right] at hdepth
    obtain ⟨depth, rfl⟩ := Nat.exists_eq_add_of_le' (Nat.one_le_of_lt hdepth)
    have hclause : ∀ c ∈ clauses, _ := fun c hc =>
      ih c hc depth (Nat.lt_of_le_of_lt (Query.height_le_heightClauses hc) hdepth)
    rw [traverseTo_boolean]
    cases hall : changeAll (changeClause (p.traverseTo (depth + 1))) clauses with
    | error e =>
      obtain ⟨c, hc, he⟩ := exists_of_changeAll_eq_error hall
      have herror : p.traverseTo (depth + 1) c.2 = .error e := except_map_eq_error.1 he
      refine .inr ⟨?_, e, rfl⟩
      rcases hclause c hc with ⟨o, ho, -⟩ | ⟨hpasses, -⟩
      · cases ho.symm.trans herror
      · exact hpasses
    | ok o =>
      refine .inl ⟨o.map .boolean, rfl, ?_⟩
      have hmade : o.getD clauses = p.clausesWithExact clauses := by
        refine eq_clausesWithExact (forall₂_of_changeAll hall) fun c hc q' hleads => ?_
        obtain ⟨o', ho', rfl⟩ := hleads
        rcases hclause c hc with ⟨o'', ho'', hmade⟩ | ⟨-, e, he⟩
        · cases ho'.symm.trans ho''
          exact hmade
        · cases ho'.symm.trans he
      rw [withExact, ← hmade]
      cases o <;> rfl

/-- A traversal comes to an end if there is a pass to be made. -/
theorem exists_traversed (hpasses : 1 ≤ p.context.settings.maxPasses) (q : Query) :
    ∃ q', p.traversed q = .ok q' := by
  rcases traverseTo_or_spent hchain (height_lt_depthFor p q) with ⟨o, ho, -⟩ | ⟨hnone, -⟩
  · exact ⟨o.getD q, except_map_eq_ok.2 ⟨o, ho, rfl⟩⟩
  · omega

theorem eq_withExact_of_traversed {q q' : Query} (h : p.traversed q = .ok q') :
    q' = p.withExact q := by
  obtain ⟨o, ho, rfl⟩ := except_map_eq_ok.1 h
  rcases traverseTo_or_spent hchain (height_lt_depthFor p q) with ⟨o', ho', hmade⟩ | ⟨-, e, he⟩
  · cases ho.symm.trans ho'
    exact hmade
  · cases ho.symm.trans he

end Traversals

end Plan

end TextSearch
