import TextSearch.Proofs.Plan.Settling

/-!
# Depths

A traversal counts down a depth, so that it is known to end. Only the leaves of a query grow, by
one level each time one is reached, and what is inside of a boost is reached once per pass. So the
levels that a traversal adds are bounded by the passes and by the number of boosts on top of one
another (`Plan.moderate_traverseTo`), and no traversal of a query gets to the end of its depth.
`Plan.traverse_eq` says that `Plan.traverse` goes on inside of a query as it began: the depth is
gone from it.
-/

namespace TextSearch

namespace Query

/-- A query has so many levels at most, and so many boosts on top of one another. A boost around
places is not counted, as these do not grow. -/
inductive Fits : Nat → Nat → Query → Prop
  /-- A leaf is one level. -/
  | leaf {boosts levels : Nat} {q : Query} (hq : q.isLeaf = true) : Fits boosts (levels + 1) q
  /-- Boosted places are one level. -/
  | places {boosts levels : Nat} {q : Query} (hq : q.isSpan = true) (factor : Single) :
    Fits boosts (levels + 1) (boost q factor)
  /-- A boost is a level on top of what is inside. -/
  | boost {boosts levels : Nat} {q : Query} (h : Fits boosts levels q) (factor : Single) :
    Fits (boosts + 1) (levels + 1) (boost q factor)
  /-- A combination is a level on top of the clauses. -/
  | boolean {boosts levels : Nat} {clauses : List (Occur × Query)}
    (h : ∀ c ∈ clauses, Fits boosts levels c.2) : Fits boosts (levels + 1) (boolean clauses)

theorem Fits.mono {boosts levels boosts' levels' : Nat} {q : Query} (h : q.Fits boosts levels)
    (hboosts : boosts ≤ boosts') (hlevels : levels ≤ levels') : q.Fits boosts' levels' := by
  induction h generalizing boosts' levels' with
  | leaf hq =>
    obtain ⟨levels', rfl⟩ := Nat.exists_eq_add_of_le' (Nat.one_le_of_lt hlevels)
    exact .leaf hq
  | places hq factor =>
    obtain ⟨levels', rfl⟩ := Nat.exists_eq_add_of_le' (Nat.one_le_of_lt hlevels)
    exact .places hq factor
  | boost _ factor ih =>
    obtain ⟨boosts', rfl⟩ := Nat.exists_eq_add_of_le' (Nat.one_le_of_lt hboosts)
    obtain ⟨levels', rfl⟩ := Nat.exists_eq_add_of_le' (Nat.one_le_of_lt hlevels)
    exact .boost (ih (by omega) (by omega)) factor
  | boolean _ ih =>
    obtain ⟨levels', rfl⟩ := Nat.exists_eq_add_of_le' (Nat.one_le_of_lt hlevels)
    exact .boolean fun c hc => ih c hc hboosts (by omega)

/-- Every query fits its own height. -/
theorem fits_height (q : Query) : q.Fits q.height (q.height + 1) := by
  induction q using Query.combination with
  | hleaf q hq => exact .leaf hq
  | hboost q factor ih =>
    rw [height]
    exact .boost ih factor
  | hboolean clauses ih =>
    rw [height]
    refine .boolean fun c hc => ?_
    have hle : c.2.height ≤ heightClauses clauses := height_le_heightClauses hc
    exact (ih c hc).mono (by omega) (by omega)

end Query

namespace Plan

variable {p : Plan} {boosts levels : Nat}

/-! ### Levels -/

/-- What a rule makes of a leaf is another leaf, or a combination one level above it. -/
theorem Change.isLeaf_or_fits {r : Rule} {q next : Query} (h : p.Change r q next)
    (boosts levels : Nat) : next.isLeaf = true ∨
      (∀ s : Rule, s.accepts next = false) ∧ next.Fits boosts (levels + 2) := by
  have hform : ∀ (q : Query) (t : Term) (fromPhrase : Bool), q.isLeaf = true →
      (p.exactForm q t fromPhrase).Fits boosts (levels + 2) := by
    intro q t fromPhrase hq
    rcases p.exactForm_cases q t fromPhrase with h | ⟨factor, h⟩ <;> rw [h]
    · exact .leaf rfl
    · refine .boolean (List.forall_mem_cons.2 ⟨.leaf hq, List.forall_mem_cons.2 ⟨?_, by simp⟩⟩)
      exact .places rfl factor
  cases h with
  | term => exact .inr ⟨accepts_exactForm _ _ _, hform _ _ _ rfl⟩
  | markedTerm => exact .inr ⟨accepts_exactForm _ _ _, hform _ _ _ rfl⟩
  | _ => exact .inl rfl

/-- However often a leaf is handed on, it comes to one more level at most. -/
theorem fits_hand_leaf {inner : Query → Except Fault (Option Query)} {given q : Query}
    {passes : Nat} {found : Nat × Rule} {o : Option Query} (hq : q.isLeaf = true)
    (haccepts : found.2.accepts q = true) (h : p.hand inner given passes found q = .ok o)
    (boosts levels : Nat) : (o.getD q).Fits boosts (levels + 2) := by
  induction passes generalizing found q o with
  | zero => cases h
  | succ passes ih =>
    obtain ⟨i, r⟩ := found
    have happly : p.apply inner r q = .ok (p.changeNode r q) :=
      apply_of_ne_boost (Query.ne_boost_of_isLeaf hq)
    cases hnext : p.changeNode r q with
    | none =>
      rw [hnext] at happly
      cases (hand_declined happly).symm.trans h
      exact .leaf hq
    | some next =>
      rw [hnext] at happly
      have hchange := (change_of_changeNode haccepts hnext).isLeaf_or_fits boosts levels
      cases hfind : p.find? (some i) next with
      | none =>
        cases (hand_ended happly hfind).symm.trans h
        exact hchange.elim .leaf fun h => h.2
      | some found =>
        have hfound := (find?_eq_some hfind).2
        rw [hand_passed_on happly hfind] at h
        obtain ⟨o', ho', rfl⟩ := except_map_eq_ok.1 h
        have hleaf : next.isLeaf = true := hchange.resolve_right fun hended => by
          rw [hended.1] at hfound
          cases hfound
        rw [Option.getD_some]
        exact ih hleaf hfound ho'

/-- A traversal that adds so many levels to whatever fits into so many boosts. -/
def Grows (boosts growth : Nat) (inner : Query → Except Fault (Option Query)) : Prop :=
  ∀ ⦃levels : Nat⦄ ⦃q : Query⦄ ⦃o : Option Query⦄, q.Fits boosts levels → inner q = .ok o →
    (o.getD q).Fits boosts (levels + growth)

/-- What is inside of a boost grows once per pass. -/
theorem Grows.hand {inner : Query → Except Fault (Option Query)} {growth : Nat}
    (hinner : Grows boosts growth inner) {given q : Query} {passes i : Nat} {factor : Single}
    {o : Option Query} (hq : q.Fits boosts levels)
    (h : p.hand inner given passes (i, .throughBoost) (.boost q factor) = .ok o) :
    (o.getD (.boost q factor)).Fits (boosts + 1) (levels + passes * growth + 1) := by
  induction passes generalizing levels q o i with
  | zero => cases h
  | succ passes ih =>
    obtain ⟨made, happly, -⟩ := except_bind_eq_ok.1 h
    obtain ⟨o', ho', rfl⟩ := except_map_eq_ok.1 happly
    have hgrown := hinner hq ho'
    rw [Nat.succ_mul]
    cases o' with
    | none =>
      cases (hand_declined (apply_boost ho' factor)).symm.trans h
      exact .boost (hq.mono (Nat.le_refl _) (by omega)) factor
    | some next =>
      rcases p.find?_boost (some i) next factor with hfind | ⟨j, hfind⟩
      · cases (hand_ended (apply_boost ho' factor) hfind).symm.trans h
        exact .boost (hgrown.mono (Nat.le_refl _) (by omega)) factor
      · rw [hand_passed_on (apply_boost ho' factor) hfind] at h
        obtain ⟨o'', ho'', rfl⟩ := except_map_eq_ok.1 h
        exact (ih hgrown ho'').mono (Nat.le_refl _) (by omega)

/-- The levels that a traversal adds at most where there are so many boosts on top of one
another: one for each way to pass through all of them. -/
def growth (p : Plan) (boosts : Nat) : Nat := Nat.pow (p.context.settings.maxPasses + 1) boosts

theorem growth_pos (p : Plan) (boosts : Nat) : 0 < p.growth boosts :=
  Nat.pow_pos (Nat.succ_pos _)

/-- One more boost has a query grow once per pass. -/
theorem mul_growth_le (p : Plan) (boosts : Nat) :
    p.context.settings.maxPasses * p.growth boosts + p.growth boosts ≤ p.growth (boosts + 1) := by
  have hsucc : p.growth (boosts + 1) =
      p.growth boosts * (p.context.settings.maxPasses + 1) := rfl
  rw [hsucc, Nat.mul_succ, Nat.mul_comm]

/-- A traversal that leaves places as they are and that adds a level for each pass through each
of the boosts on top of one another. -/
structure Moderate (p : Plan) (inner : Query → Except Fault (Option Query)) : Prop where
  /-- Places are left as they are. -/
  places : ∀ q, q.isSpan = true → inner q = .ok none
  /-- The levels are bounded. -/
  grows : ∀ boosts, Grows boosts (p.growth boosts) inner

/-! ### Nodes -/

/-- The traversal of a node, where `inner` traverses what is inside. -/
def visit (p : Plan) (inner : Query → Except Fault (Option Query)) (q : Query) :
    Except Fault (Option Query) :=
  match p.find? none q with
  | some found => p.hand inner q p.context.settings.maxPasses found q
  | none =>
    match q with
    | .boost q' factor => Option.map (Query.boost · factor) <$> inner q'
    | .boolean clauses => Option.map Query.boolean <$> changeAll (changeClause inner) clauses
    | _ => .ok none

theorem traverseTo_succ (depth : Nat) (q : Query) :
    p.traverseTo (depth + 1) q = p.visit (p.traverseTo depth) q := rfl

section Visit

variable {inner inner' : Query → Except Fault (Option Query)} {q : Query}

theorem visit_found {found : Nat × Rule} (hfind : p.find? none q = some found) :
    p.visit inner q = p.hand inner q p.context.settings.maxPasses found q := by
  rw [visit.eq_def, hfind]

theorem visit_leaf (hq : q.isLeaf = true) (hfind : p.find? none q = none) :
    p.visit inner q = .ok none := by
  rw [visit.eq_def, hfind]
  cases q <;> first | rfl | cases hq

theorem visit_boost {factor : Single} (hfind : p.find? none (.boost q factor) = none) :
    p.visit inner (.boost q factor) = Option.map (Query.boost · factor) <$> inner q := by
  rw [visit.eq_def, hfind]

theorem visit_boolean (clauses : List (Occur × Query)) :
    p.visit inner (.boolean clauses) =
      Option.map Query.boolean <$> changeAll (changeClause inner) clauses := by
  rw [visit.eq_def, find?_boolean]

theorem hand_places (hplaces : inner q = .ok none) (given : Query) (passes i : Nat)
    (factor : Single) : p.hand inner given passes (i, .throughBoost) (.boost q factor) =
      if passes = 0 then .error (.traversalDiverged given.display p.context.settings.maxPasses)
      else .ok none := by
  cases passes with
  | zero => rfl
  | succ passes => exact hand_declined (apply_boost hplaces factor)

theorem Moderate.visit (h : p.Moderate inner) : p.Moderate (p.visit inner) where
  places q hq := by
    have hleaf : q.isLeaf = true := by cases q <;> first | rfl | cases hq
    exact visit_leaf hleaf (find?_eq_none (accepts_of_isSpan hq) none)
  grows := by
    intro boosts levels q o hq ho
    have hpos := p.growth_pos boosts
    cases hq with
    | @leaf _ levels _ hleaf =>
      cases hfind : p.find? none q with
      | none =>
        cases (visit_leaf hleaf hfind).symm.trans ho
        exact .mono (.leaf hleaf) (Nat.le_refl _) (Nat.le_add_right ..)
      | some found =>
        rw [visit_found hfind] at ho
        have hgrown := fits_hand_leaf hleaf (find?_eq_some hfind).2 ho
        exact (hgrown boosts levels).mono (Nat.le_refl _) (by omega)
    | @places _ levels q hspan factor =>
      have hnone : o = none := by
        have hinner := h.places q hspan
        rcases p.find?_boost none q factor with hfind | ⟨i, hfind⟩
        · rw [visit_boost hfind, hinner] at ho
          cases ho
          rfl
        · rw [visit_found hfind, hand_places hinner] at ho
          split at ho <;> cases ho
          rfl
      subst hnone
      exact .mono (.places hspan factor) (Nat.le_refl _) (Nat.le_add_right ..)
    | @boost boosts levels q hq factor =>
      have hmul := p.mul_growth_le boosts
      rcases p.find?_boost none q factor with hfind | ⟨i, hfind⟩
      · rw [visit_boost hfind] at ho
        obtain ⟨o', ho', rfl⟩ := except_map_eq_ok.1 ho
        have hgrown := Query.Fits.boost (h.grows boosts hq ho') factor
        cases o' <;> exact hgrown.mono (Nat.le_refl _) (by omega)
      · rw [visit_found hfind] at ho
        exact (Grows.hand (h.grows boosts) hq ho).mono (Nat.le_refl _) (by omega)
    | @boolean _ levels clauses hclauses =>
      rw [visit_boolean] at ho
      obtain ⟨o', ho', rfl⟩ := except_map_eq_ok.1 ho
      have hgrown : ∀ c ∈ o'.getD clauses, c.2.Fits boosts (levels + p.growth boosts) := by
        intro c' hc'
        obtain ⟨c, hc, o'', ho'', hquery⟩ := exists_clause_of_changeAll ho' hc'
        rw [hquery]
        exact h.grows boosts (hclauses c hc) ho''
      cases o' <;> exact .mono (.boolean hgrown) (Nat.le_refl _) (by omega)

end Visit

/-- However deep a traversal goes, it adds no more than that. -/
theorem moderate_traverseTo (p : Plan) (depth : Nat) : p.Moderate (p.traverseTo depth) := by
  induction depth with
  | zero =>
    refine ⟨fun q _ => rfl, fun boosts levels q o hq ho => ?_⟩
    cases ho
    exact hq.mono (Nat.le_refl _) (Nat.le_add_right ..)
  | succ depth ih =>
    have hvisit : p.traverseTo (depth + 1) = p.visit (p.traverseTo depth) :=
      funext (traverseTo_succ depth)
    rw [hvisit]
    exact ih.visit

theorem moderate_traverse (p : Plan) : p.Moderate p.traverse where
  places _ hq := traverseTo_of_isSpan hq _
  grows boosts _ q _ hq ho := (moderate_traverseTo p (p.depthFor q)).grows boosts hq ho

/-! ### Depths that suffice -/

/-- A depth is as great as what a traversal can make of the levels of a query. -/
def Suffices (p : Plan) (depth : Nat) (q : Query) : Prop :=
  ∃ boosts levels, q.Fits boosts levels ∧ levels + p.growth boosts ≤ depth

theorem suffices_depthFor (p : Plan) (q : Query) : p.Suffices (p.depthFor q) q := by
  refine ⟨q.height, q.height + 1, q.fits_height, ?_⟩
  rw [depthFor, growth]
  omega

section Agreement

variable {inner inner' : Query → Except Fault (Option Query)} {depth : Nat}

/-- Boosts are handed on alike where the depth suffices for what is inside, in all passes. -/
theorem hand_boost_congr {growth : Nat} (hgrows : Grows boosts growth inner)
    (hagree : ∀ levels q, q.Fits boosts levels → levels + growth ≤ depth → inner q = inner' q)
    {q : Query} (hq : q.Fits boosts levels) (given : Query) (factor : Single) {passes : Nat}
    (hdepth : levels + passes * growth ≤ depth) (i : Nat) :
    p.hand inner given passes (i, .throughBoost) (.boost q factor) =
      p.hand inner' given passes (i, .throughBoost) (.boost q factor) := by
  induction passes generalizing levels q i with
  | zero => rfl
  | succ passes ih =>
    rw [Nat.succ_mul] at hdepth
    have hinner := hagree levels q hq (by omega)
    cases ho : inner q with
    | error e =>
      have ho' := hinner.symm.trans ho
      simp only [hand, apply, ho, ho']
      rfl
    | ok o =>
      have ho' := hinner.symm.trans ho
      have hgrown := hgrows hq ho
      cases o with
      | none =>
        rw [hand_declined (apply_boost ho factor), hand_declined (apply_boost ho' factor)]
      | some next =>
        rcases p.find?_boost (some i) next factor with hfind | ⟨j, hfind⟩
        · rw [hand_ended (apply_boost ho factor) hfind, hand_ended (apply_boost ho' factor) hfind]
        · rw [hand_passed_on (apply_boost ho factor) hfind,
            hand_passed_on (apply_boost ho' factor) hfind]
          exact congrArg _ (ih hgrown (by omega) j)

/-- A node is traversed alike where the depth suffices. -/
theorem visit_congr (h : p.Moderate inner) (h' : p.Moderate inner')
    (hagree : ∀ q, p.Suffices depth q → inner q = inner' q) {q : Query}
    (hq : p.Suffices (depth + 1) q) : p.visit inner q = p.visit inner' q := by
  obtain ⟨boosts, levels, hfits, hdepth⟩ := hq
  cases hfits with
  | leaf hleaf =>
    cases hfind : p.find? none q with
    | none => rw [visit_leaf hleaf hfind, visit_leaf hleaf hfind]
    | some found =>
      rw [visit_found hfind, visit_found hfind]
      exact hand_of_ne_boost q _ found (Query.ne_boost_of_isLeaf hleaf)
  | @places _ levels q hspan factor =>
    have hinner := h.places q hspan
    have hinner' := h'.places q hspan
    rcases p.find?_boost none q factor with hfind | ⟨i, hfind⟩
    · rw [visit_boost hfind, visit_boost hfind, hinner, hinner']
    · rw [visit_found hfind, visit_found hfind, hand_places hinner, hand_places hinner']
  | @boost boosts levels q hfits factor =>
    have hmul := p.mul_growth_le boosts
    rcases p.find?_boost none q factor with hfind | ⟨i, hfind⟩
    · rw [visit_boost hfind, visit_boost hfind, hagree q ⟨boosts, levels, hfits, by omega⟩]
    · rw [visit_found hfind, visit_found hfind]
      exact hand_boost_congr (h.grows boosts)
        (fun levels q hq hle => hagree q ⟨boosts, levels, hq, hle⟩) hfits _ factor (by omega) i
  | @boolean _ levels clauses hfits =>
    have hclauses : changeAll (changeClause inner) clauses =
        changeAll (changeClause inner') clauses := by
      refine changeAll_congr fun c hc => ?_
      rw [changeClause, changeClause, hagree c.2 ⟨boosts, levels, hfits c hc, by omega⟩]
    rw [visit_boolean, visit_boolean, hclauses]

end Agreement

/-- Beyond a depth that suffices, the depth makes no difference. -/
theorem traverseTo_eq_of_le {depth depth' : Nat} {q : Query} (h : p.Suffices depth q)
    (hle : depth ≤ depth') : p.traverseTo depth q = p.traverseTo depth' q := by
  induction depth generalizing depth' q with
  | zero =>
    obtain ⟨boosts, levels, -, hdepth⟩ := h
    have hpos := p.growth_pos boosts
    omega
  | succ depth ih =>
    obtain ⟨depth', rfl⟩ := Nat.exists_eq_add_of_le' (Nat.one_le_of_lt hle)
    rw [traverseTo_succ, traverseTo_succ]
    exact visit_congr (moderate_traverseTo p depth) (moderate_traverseTo p depth')
      (fun _ hq => ih hq (Nat.le_of_succ_le_succ hle)) h

theorem traverseTo_eq_traverse {depth : Nat} {q : Query} (h : p.Suffices depth q) :
    p.traverseTo depth q = p.traverse q := by
  rw [traverse, traverseTo_eq_of_le h (Nat.le_max_left depth (p.depthFor q)),
    traverseTo_eq_of_le (suffices_depthFor p q) (Nat.le_max_right depth (p.depthFor q))]

/-- A traversal goes on inside of a query as it began, however deep that is. -/
theorem traverse_eq (p : Plan) (q : Query) : p.traverse q = p.visit p.traverse q := by
  obtain ⟨depth, hdepth⟩ : ∃ depth, p.depthFor q = depth + 1 := ⟨_, rfl⟩
  have hsuffices := suffices_depthFor p q
  rw [hdepth] at hsuffices
  rw [traverse, hdepth, traverseTo_succ]
  exact visit_congr (moderate_traverseTo p depth) (moderate_traverse p)
    (fun _ hq => traverseTo_eq_traverse hq) hsuffices

end Plan

end TextSearch
