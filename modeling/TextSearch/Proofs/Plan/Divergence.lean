import Mathlib.Data.List.NodupEquivFin
import TextSearch.Proofs.Plan.Settling

/-!
# Traversals without end

Where the boosted exact form of a term is put beside the term, each traversal of the combination
finds the term again, one level deeper. A single rule for boosts traverses what is inside once.
Two of them take turns, as each one is passed over only after its own changes, until the passes
are spent. `Plan.converges_unless_diverges` says that a traversal by the rules of a chain fails
in this way only: with the rule for boosts listed twice, and with such a term inside of a boost.
-/

namespace TextSearch

namespace Query

mutual

/-- The leaves of a query that have a boost around them. -/
def boostedLeaves : Query → List Query
  | boost q _ => leaves q
  | boolean clauses => boostedLeavesOfClauses clauses
  | _ => []

/-- The leaves of some clauses that have a boost around them. -/
def boostedLeavesOfClauses : List (Occur × Query) → List Query
  | [] => []
  | (_, q) :: rest => boostedLeaves q ++ boostedLeavesOfClauses rest

end

theorem boostedLeavesOfClauses_eq_flatMap (clauses : List (Occur × Query)) :
    boostedLeavesOfClauses clauses = clauses.flatMap fun c => c.2.boostedLeaves := by
  induction clauses with
  | nil => rfl
  | cons c clauses ih => rw [boostedLeavesOfClauses, ih, List.flatMap_cons]

theorem mem_boostedLeaves_boolean {clauses : List (Occur × Query)} {leaf : Query} :
    leaf ∈ (boolean clauses).boostedLeaves ↔ ∃ c ∈ clauses, leaf ∈ c.2.boostedLeaves := by
  rw [boostedLeaves, boostedLeavesOfClauses_eq_flatMap, List.mem_flatMap]

theorem boostedLeaves_leaf {q : Query} (hq : q.isLeaf = true) : q.boostedLeaves = [] := by
  cases q with
  | boost => cases hq
  | boolean => cases hq
  | _ => rfl

/-- There is a boost where there is a boosted leaf. -/
theorem height_pos_of_mem_boostedLeaves {q leaf : Query} (h : leaf ∈ q.boostedLeaves) :
    0 < q.height := by
  cases q with
  | boost q factor => rw [height]; exact Nat.succ_pos _
  | boolean clauses => rw [height]; exact Nat.succ_pos _
  | _ => cases h

end Query

/-! ### Built chains -/

theorem RuleSpec.isConfigurable_of_build {registry : MarkRegistry} {spec : RuleSpec} {r : Rule}
    (h : spec.build registry = .ok r) : r.isConfigurable = true := by
  cases spec with
  | markTerm name =>
    obtain ⟨mark, -, rfl⟩ := except_map_eq_ok.1 h
    rfl
  | exactMarkedTerm name =>
    obtain ⟨mark, -, rfl⟩ := except_map_eq_ok.1 h
    rfl
  | requireFrequency least =>
    rw [RuleSpec.build] at h
    cases hleast : Threshold.ofNat least with
    | ok t => rw [hleast] at h; cases h; rfl
    | error e => rw [hleast] at h; cases h
  | _ => cases h; rfl

theorem ChainSpec.isConfigurable_of_build {registry : MarkRegistry} {spec : ChainSpec}
    {chain : Chain} (h : spec.build registry = .ok chain) :
    ∀ r ∈ chain, r.isConfigurable = true := by
  rw [ChainSpec.build] at h
  induction spec generalizing chain with
  | nil =>
    cases h
    exact List.forall_mem_nil _
  | cons rule spec ih =>
    rw [List.mapM_cons] at h
    obtain ⟨r, hr, h⟩ := except_bind_eq_ok.1 h
    obtain ⟨rest, hrest, h⟩ := except_bind_eq_ok.1 h
    cases h
    exact List.forall_mem_cons.2 ⟨RuleSpec.isConfigurable_of_build hr, ih hrest⟩

namespace Plan

variable {p : Plan}

/-- The chain has the rule for boosts more than once, and the exact form of some term inside of a
boost is put beside the term. -/
def Diverges (p : Plan) (q : Query) : Prop :=
  2 ≤ p.chain.count .throughBoost ∧ ∃ leaf ∈ q.boostedLeaves, p.doubles leaf = true

instance (q : Query) : Decidable (p.Diverges q) :=
  inferInstanceAs (Decidable (_ ∧ _))

/-! ### Rules for boosts -/

theorem passed_ne_of_find? {passed : Option Nat} {q : Query} {i : Nat} {r : Rule}
    (h : p.find? passed q = some (i, r)) : passed ≠ some i := by
  obtain ⟨⟨r', j⟩, hfind, heq⟩ := Option.map_eq_some_iff.1 h
  cases heq
  have hpassed := List.find?_some hfind
  rw [Bool.and_eq_true, bne_iff_ne] at hpassed
  exact hpassed.1

theorem two_le_count_iff {chain : Chain} {r : Rule} :
    2 ≤ chain.count r ↔ ∃ i j : Nat, i ≠ j ∧ chain[i]? = some r ∧ chain[j]? = some r := by
  rw [← List.duplicate_iff_two_le_count, List.duplicate_iff_exists_distinct_get]
  constructor
  · rintro ⟨i, j, hij, hi, hj⟩
    refine ⟨i, j, Nat.ne_of_lt hij, ?_, ?_⟩
    · exact List.getElem?_eq_some_iff.2 ⟨i.isLt, hi.symm⟩
    · exact List.getElem?_eq_some_iff.2 ⟨j.isLt, hj.symm⟩
  · rintro ⟨i, j, hij, hi, hj⟩
    obtain ⟨hilt, hi⟩ := List.getElem?_eq_some_iff.1 hi
    obtain ⟨hjlt, hj⟩ := List.getElem?_eq_some_iff.1 hj
    rcases Nat.lt_or_gt_of_ne hij with hlt | hlt
    · exact ⟨⟨i, hilt⟩, ⟨j, hjlt⟩, hlt, hi.symm, hj.symm⟩
    · exact ⟨⟨j, hjlt⟩, ⟨i, hilt⟩, hlt, hj.symm, hi.symm⟩

/-- The only rule for boosts does not accept what it made. -/
theorem find?_boost_passed (hcount : p.chain.count .throughBoost < 2) {i : Nat}
    (hi : p.chain[i]? = some .throughBoost) (q : Query) (factor : Single) :
    p.find? (some i) (.boost q factor) = none := by
  rcases p.find?_boost (some i) q factor with hfind | ⟨j, hfind⟩
  · exact hfind
  · have hij : i ≠ j := fun h => passed_ne_of_find? hfind (congrArg some h)
    have htwo := two_le_count_iff.2 ⟨i, j, hij, hi, find?_eq_some_getElem? hfind⟩
    omega

/-- One of two rules for boosts accepts what the other one made. -/
theorem exists_find?_boost (hcount : 2 ≤ p.chain.count .throughBoost) (passed : Option Nat)
    (q : Query) (factor : Single) :
    ∃ i, p.find? passed (.boost q factor) = some (i, .throughBoost) := by
  refine (p.find?_boost passed q factor).resolve_left fun hfind => ?_
  obtain ⟨i, j, hij, hi, hj⟩ := two_le_count_iff.1 hcount
  rw [find?, Option.map_eq_none_iff, List.find?_eq_none] at hfind
  have hpassed : ∀ k, p.chain[k]? = some .throughBoost → passed = some k := by
    intro k hk
    have hnot := hfind (.throughBoost, k) (List.mem_zipIdx_iff_getElem?.2 hk)
    simpa [Rule.accepts] using hnot
  have hsame := (hpassed i hi).symm.trans (hpassed j hj)
  exact hij (Option.some.inj hsame)

/-! ### Growing -/

/-- Below some number of combinations, with no boosts around, there is a leaf beside which its
exact form is put. -/
inductive Doubling (p : Plan) : Nat → Query → Prop
  | leaf {q : Query} (h : p.doubles q = true) : Doubling p 0 q
  | clause {clauses : List (Occur × Query)} {c : Occur × Query} {n : Nat} (hc : c ∈ clauses)
    (h : Doubling p n c.2) : Doubling p (n + 1) (.boolean clauses)

theorem isLeaf_of_doubles {q : Query} (h : p.doubles q = true) : q.isLeaf = true := by
  cases q <;> first | rfl | cases h

/-- A leaf beside which its exact form is put either has a boost around it, or is below
combinations only. -/
theorem doubling_of_mem_leaves {q leaf : Query} (hleaf : leaf ∈ q.leaves)
    (h : p.doubles leaf = true) :
    leaf ∈ q.boostedLeaves ∨ ∃ n ≤ q.height, p.Doubling n q := by
  induction q using Query.combination with
  | hboost q factor ih => exact .inl hleaf
  | hboolean clauses ih =>
    obtain ⟨c, hc, hleaf⟩ := Query.mem_leaves_boolean.1 hleaf
    rcases ih c hc hleaf with hboosted | ⟨n, hn, hdoubling⟩
    · exact .inl (Query.mem_boostedLeaves_boolean.2 ⟨c, hc, hboosted⟩)
    · have hle := Query.height_le_heightClauses hc
      refine .inr ⟨n + 1, ?_, .clause hc hdoubling⟩
      rw [Query.height]
      omega
  | hleaf q hq =>
    rw [Query.leaves_leaf hq, List.mem_singleton] at hleaf
    subst hleaf
    exact .inr ⟨0, Nat.zero_le _, .leaf h⟩

section Growing

variable (hp : ∀ r ∈ p.chain, r.isConfigurable = true)
  (hpasses : 2 ≤ p.context.settings.maxPasses)
include hp hpasses

/-- Each traversal that reaches such a leaf leaves one behind that is a level deeper. -/
theorem Doubling.traverseTo {n : Nat} {q : Query} (h : p.Doubling n q) {depth : Nat}
    (hdepth : n < depth) {o : Option Query} (ho : p.traverseTo depth q = .ok o) :
    ∃ q', o = some q' ∧ p.Doubling (n + 1) q' := by
  obtain ⟨depth, rfl⟩ := Nat.exists_eq_add_of_le' (Nat.one_le_of_lt hdepth)
  induction h generalizing depth o with
  | leaf h =>
    obtain ⟨q', hq', leaf, t, factor, hdoubles, rfl⟩ := changeTwice_of_doubles h
    rw [traverseTo_leaf hp hpasses (isLeaf_of_doubles h), hq'] at ho
    cases ho
    exact ⟨_, rfl, .clause (List.mem_cons_self ..) (.leaf hdoubles)⟩
  | @clause clauses c n hc _ ih =>
    rw [Nat.add_lt_add_iff_right] at hdepth
    obtain ⟨depth, rfl⟩ := Nat.exists_eq_add_of_le' (Nat.one_le_of_lt hdepth)
    rw [traverseTo_boolean] at ho
    obtain ⟨o', hall, rfl⟩ := except_map_eq_ok.1 ho
    obtain ⟨c', hc', o'', ho'', hquery⟩ := exists_outcome_of_changeAll hall hc
    obtain ⟨q', rfl, hdoubling⟩ := ih depth (by omega) ho''
    rw [Option.getD_some] at hquery
    cases o' with
    | none =>
      have hkept := changeClause_eq_none.1 (changeAll_eq_none hall c hc)
      cases hkept.symm.trans ho''
    | some clauses' => exact ⟨_, rfl, .clause hc' (hquery ▸ hdoubling)⟩

/-- Two rules for boosts hand a boost around such a leaf to each other until the passes are
spent. -/
theorem Doubling.hand {n : Nat} {q : Query} (h : p.Doubling n q)
    (hcount : 2 ≤ p.chain.count .throughBoost) {depth passes : Nat} (hdepth : n + passes ≤ depth)
    (given : Query) (i : Nat) (factor : Single) :
    ∃ e, p.hand (p.traverseTo depth) given passes (i, .throughBoost) (.boost q factor) =
      .error e := by
  induction passes generalizing n q i with
  | zero => exact ⟨_, rfl⟩
  | succ passes ih =>
    cases ho : p.traverseTo depth q with
    | error e =>
      refine ⟨e, ?_⟩
      rw [Plan.hand, apply, ho]
      rfl
    | ok o =>
      obtain ⟨q', rfl, hdoubling⟩ := h.traverseTo hp hpasses (by omega) ho
      obtain ⟨j, hfind⟩ := exists_find?_boost hcount (some i) q' factor
      obtain ⟨e, he⟩ := ih hdoubling (by omega) j
      refine ⟨e, ?_⟩
      rw [hand_passed_on (apply_boost ho factor) hfind, he]
      rfl

/-- A traversal that goes deep enough fails on a boost around such a leaf, wherever the boost is. -/
theorem exists_error_of_boosted (hcount : 2 ≤ p.chain.count .throughBoost) {q leaf : Query}
    (hleaf : leaf ∈ q.boostedLeaves) (hdoubles : p.doubles leaf = true) {depth : Nat}
    (hdepth : q.height + p.context.settings.maxPasses ≤ depth) :
    ∃ e, p.traverseTo depth q = .error e := by
  induction q using Query.combination generalizing depth with
  | hleaf q hq =>
    rw [Query.boostedLeaves_leaf hq] at hleaf
    cases hleaf
  | hboost q factor ih =>
    rw [Query.height] at hdepth
    obtain ⟨depth, rfl⟩ : ∃ d, depth = d + 1 := ⟨depth - 1, by omega⟩
    have hdeep : q.height + p.context.settings.maxPasses ≤ depth := by omega
    obtain ⟨i, hfind⟩ := exists_find?_boost hcount none q factor
    rw [traverseTo.eq_def]
    simp only [hfind]
    rcases doubling_of_mem_leaves hleaf hdoubles with hboosted | ⟨n, hn, hdoubling⟩
    · obtain ⟨e, he⟩ := ih hboosted hdeep
      obtain ⟨passes, hpasses⟩ := Nat.exists_eq_add_of_le' hpasses
      refine ⟨e, ?_⟩
      rw [hpasses, Plan.hand, apply, he]
      rfl
    · exact hdoubling.hand hp hpasses hcount (by omega) _ i factor
  | hboolean clauses ih =>
    rw [Query.height] at hdepth
    obtain ⟨depth, rfl⟩ : ∃ d, depth = d + 1 := ⟨depth - 1, by omega⟩
    obtain ⟨c, hc, hboosted⟩ := Query.mem_boostedLeaves_boolean.1 hleaf
    have hle := Query.height_le_heightClauses hc
    have hdeep : c.2.height + p.context.settings.maxPasses ≤ depth := by omega
    obtain ⟨e, he⟩ := ih c hc hboosted hdeep
    rw [traverseTo_boolean]
    cases hall : changeAll (changeClause (p.traverseTo depth)) clauses with
    | error e' => exact ⟨e', rfl⟩
    | ok o =>
      obtain ⟨c', -, o', ho', -⟩ := exists_outcome_of_changeAll hall hc
      cases he.symm.trans ho'

end Growing

/-! ### Coming to an end -/

/-- A traversal comes to an end, if there is one rule for boosts at most or no exact form is put
beside any leaf inside of a boost. -/
theorem exists_traverseTo (hp : ∀ r ∈ p.chain, r.isConfigurable = true)
    (hpasses : 2 ≤ p.context.settings.maxPasses) {q : Query}
    (h : p.chain.count .throughBoost < 2 ∨ ∀ leaf ∈ q.boostedLeaves, p.doubles leaf = false)
    {depth : Nat} (hdepth : q.height < depth) : ∃ o, p.traverseTo depth q = .ok o := by
  obtain ⟨depth, rfl⟩ := Nat.exists_eq_add_of_le' (Nat.one_le_of_lt hdepth)
  induction q using Query.combination generalizing depth with
  | hleaf q hq => exact ⟨_, traverseTo_leaf hp hpasses hq depth⟩
  | hboost q factor ih =>
    rw [Query.height, Nat.add_lt_add_iff_right] at hdepth
    rcases h with hcount | hquiet
    · obtain ⟨depth, rfl⟩ := Nat.exists_eq_add_of_le' (Nat.one_le_of_lt hdepth)
      obtain ⟨o, ho⟩ := ih (.inl hcount) depth hdepth
      -- the boosts that are made are not handed on
      have hagain : ∀ next i, o = some next → p.chain[i]? = some .throughBoost →
          p.find? (some i) (.boost next factor) = none ∨ p.traverseTo (depth + 1) next = .ok none :=
        fun next _ _ hi => .inl (find?_boost_passed hcount hi next factor)
      exact ⟨_, traverseTo_boost hpasses ho hagain⟩
    · obtain ⟨o, ho, hsettled⟩ := exists_settled hpasses hp hquiet hdepth
      exact ⟨_, traverseTo_boost_of_settled hpasses ho hsettled factor⟩
  | hboolean clauses ih =>
    rw [Query.height, Nat.add_lt_add_iff_right] at hdepth
    obtain ⟨depth, rfl⟩ := Nat.exists_eq_add_of_le' (Nat.one_le_of_lt hdepth)
    have hclauses : ∀ c ∈ clauses, ∃ o, p.traverseTo (depth + 1) c.2 = .ok o := by
      intro c hc
      have hle := Query.height_le_heightClauses hc
      have hquiet : p.chain.count .throughBoost < 2 ∨
          ∀ leaf ∈ c.2.boostedLeaves, p.doubles leaf = false :=
        h.imp_right fun h leaf hleaf => h leaf (Query.mem_boostedLeaves_boolean.2 ⟨c, hc, hleaf⟩)
      exact ih c hc hquiet depth (by omega)
    obtain ⟨o, -, ho⟩ := exists_traverseTo_boolean hclauses
    exact ⟨_, ho⟩

/-- The depth of a traversal suffices for its passes, if there is a boost. -/
theorem height_add_maxPasses_le_depthFor {q : Query} (h : 0 < q.height) :
    q.height + p.context.settings.maxPasses ≤ p.depthFor q := by
  have hpow := Nat.le_self_pow (Nat.ne_of_gt h) (p.context.settings.maxPasses + 1)
  rw [depthFor, Nat.pow_eq]
  omega

/-- A traversal by the rules of a built chain comes to an end, unless the chain has the rule for
boosts twice and the exact form of some term inside of a boost is put beside the term. Then it
runs out of passes. -/
theorem converges_unless_diverges {registry : MarkRegistry} {spec : ChainSpec}
    (hbuild : spec.build registry = .ok p.chain) (hpasses : 2 ≤ p.context.settings.maxPasses)
    (q : Query) :
    (¬ p.Diverges q → ∃ q', p.traversed q = .ok q') ∧
      (p.Diverges q →
        ∃ given passes, p.traversed q = .error (.traversalDiverged given passes)) := by
  have hp := ChainSpec.isConfigurable_of_build hbuild
  constructor
  · intro hnot
    have hquiet : p.chain.count .throughBoost < 2 ∨
        ∀ leaf ∈ q.boostedLeaves, p.doubles leaf = false := by
      by_contra h
      push Not at h
      exact hnot ⟨h.1, h.2.imp fun leaf hleaf => ⟨hleaf.1, by simpa using hleaf.2⟩⟩
    obtain ⟨o, ho⟩ := exists_traverseTo hp hpasses hquiet (height_lt_depthFor p q)
    exact ⟨o.getD q, except_map_eq_ok.2 ⟨o, ho, rfl⟩⟩
  · rintro ⟨hcount, leaf, hleaf, hdoubles⟩
    have hdepth := height_add_maxPasses_le_depthFor (p := p)
      (Query.height_pos_of_mem_boostedLeaves hleaf)
    obtain ⟨e, he⟩ := exists_error_of_boosted hp hpasses hcount hleaf hdoubles hdepth
    have herror : p.traversed q = .error e := except_map_eq_error.2 he
    obtain ⟨given, passes, rfl⟩ := eq_traversalDiverged herror
    exact ⟨given, passes, herror⟩

/-- With one rule for boosts the boosted exact form of a term inside of a boost is put beside it,
and with two of them as long as there are passes left. -/
theorem converges_unless_diverges_boosted :
    let options : TraversalOptions := ⟨some ⟨0x40000000⟩⟩
    let context : SearchContext := ⟨Mapping.empty.withField "body" .text, default⟩
    let p : Plan := ⟨[.throughBoost, .exactTerm], options, context⟩
    let p' : Plan := ⟨[.throughBoost, .exactTerm, .throughBoost], options, context⟩
    let q : Query := .boost (.term ⟨"body", "fox"⟩) ⟨0x40400000⟩
    (ChainSpec.build default [.throughBoost, .exactTerm] = .ok p.chain ∧
      ChainSpec.build default [.throughBoost, .exactTerm, .throughBoost] = .ok p'.chain ∧
        2 ≤ context.settings.maxPasses ∧ ¬ p.Diverges q ∧ p'.Diverges q) ∧
      (∃ q', p.traversed q = .ok q') ∧
        ∃ given passes, p'.traversed q = .error (.traversalDiverged given passes) := by
  intro options context p p' q
  have hbuild : ChainSpec.build default [.throughBoost, .exactTerm] = .ok p.chain := rfl
  have hbuild' : ChainSpec.build default [.throughBoost, .exactTerm, .throughBoost] =
      .ok p'.chain := rfl
  have hpasses : 2 ≤ context.settings.maxPasses := by decide
  have hone : ¬ p.Diverges q := by decide
  have htwo : p'.Diverges q := by decide
  exact ⟨⟨hbuild, hbuild', hpasses, hone, htwo⟩,
    (converges_unless_diverges hbuild hpasses q).1 hone,
    (converges_unless_diverges hbuild' hpasses q).2 htwo⟩

/-- A built chain does not always bring a traversal to an end: two rules for boosts spend all
passes on a boosted term whose boosted exact form is asked for. -/
theorem boosts_listed_twice_diverge :
    let spec : ChainSpec := [.throughBoost, .throughBoost, .exactTerm]
    let p : Plan := ⟨[.throughBoost, .throughBoost, .exactTerm], ⟨some ⟨0x40000000⟩⟩,
      Mapping.empty.withField "body" .text, default⟩
    let q : Query := .boost (.term ⟨"body", "fox"⟩) ⟨0x40400000⟩
    spec.build default = .ok p.chain ∧ 2 ≤ p.context.settings.maxPasses ∧
      ∃ given passes, p.traversed q = .error (.traversalDiverged given passes) := by
  intro spec p q
  have hp : ∀ r ∈ p.chain, r.isConfigurable = true := by decide
  have hpasses : 2 ≤ p.context.settings.maxPasses := by decide
  have hcount : 2 ≤ p.chain.count .throughBoost := by decide
  have hleaf : Query.term ⟨"body", "fox"⟩ ∈ q.boostedLeaves := List.mem_singleton.2 rfl
  have hdoubles : p.doubles (.term ⟨"body", "fox"⟩) = true := by decide
  have hdepth : q.height + p.context.settings.maxPasses ≤ p.depthFor q :=
    height_add_maxPasses_le_depthFor (Query.height_pos_of_mem_boostedLeaves hleaf)
  obtain ⟨e, he⟩ := exists_error_of_boosted hp hpasses hcount hleaf hdoubles hdepth
  obtain ⟨given, passes, rfl⟩ := eq_traversalDiverged (except_map_eq_error.2 he)
  exact ⟨rfl, hpasses, given, passes, except_map_eq_error.2 he⟩

end Plan

end TextSearch
