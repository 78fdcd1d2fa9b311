import TextSearch.Proofs.Query.Nodes

/-!
# What equal queries have in common

`Query.essence` is what a query asks for: the tree without the deferrals around its nodes,
without the lookups that are carried along, and with the bare identities of its marks.
Queries are equal exactly if their essences are, so equality is an equivalence relation,
and equal queries have equal hashes. Main statement: `Query.equality_of_essences`.
-/

namespace TextSearch

namespace Query

/-! ### Equality clause by clause -/

theorem sameClauses_iff {clauses others : List (Occur × Query)} :
    sameClauses clauses others = true ↔
      List.Forall₂ (fun c c' => c.2.same c'.2 = true ∧ c.1 = c'.1) clauses others := by
  induction clauses generalizing others with
  | nil => cases others <;> simp [sameClauses]
  | cons c clauses ih =>
    cases others with
    | nil => simp [sameClauses]
    | cons c' others =>
      rw [sameClauses, List.forall₂_cons, ← ih, Bool.and_eq_true, Bool.and_eq_true, beq_iff_eq]

theorem sameAll_iff {qs others : List Query} :
    sameAll qs others = true ↔ List.Forall₂ (fun q r => q.same r = true) qs others := by
  induction qs generalizing others with
  | nil => cases others <;> simp [sameAll]
  | cons q qs ih =>
    cases others with
    | nil => simp [sameAll]
    | cons r others => rw [sameAll, List.forall₂_cons, ← ih, Bool.and_eq_true]

/-! ### Deferrals around a query -/

theorem peel_peel (q : Query) : q.peel.peel = q.peel := by
  induction q using byParts with
  | hdeferred q plan ih => exact ih
  | hatom q hq => cases q <;> first | rfl | cases hq
  | _ => rfl

theorem same_peel (q r : Query) : q.same r.peel = q.same r := by
  induction q using byParts with
  | hdeferred q plan ih => exact ih
  | hatom q hq => cases q <;> first | (cases hq; done) | (rw [same, same, peel_peel])
  | _ => rw [same, same, peel_peel]

theorem peel_ne_deferred (q r : Query) (plan : Plan) : q.peel ≠ deferred r plan := by
  induction q using byParts with
  | hdeferred q plan ih => exact ih
  | hatom q hq => cases q <;> first | (cases hq; done) | exact Query.noConfusion
  | _ => exact Query.noConfusion

/-! ### Essences -/

mutual

/-- What a query asks for: the query without deferrals at any depth, without the lookups that it
carries along, and with marks that have lost their labels. -/
def essence : Query → Query
  | markedTerm t mark => markedTerm t ⟨mark.id, ""⟩
  | frequentTerm t least _ => frequentTerm t least none
  | frequentSpanTerm t least _ => frequentSpanTerm t least none
  | boost q factor => boost q.essence factor
  | boolean clauses => boolean (essenceClauses clauses)
  | spanOr field qs => spanOr field (essenceAll qs)
  | spanNear field qs slop inOrder => spanNear field (essenceAll qs) slop inOrder
  | withoutPayload q => withoutPayload q.essence
  | frequentSpan q least => frequentSpan q.essence least
  | deferred q _ => q.essence
  | q => q

/-- What clauses ask for. -/
def essenceClauses : List (Occur × Query) → List (Occur × Query)
  | [] => []
  | (o, q) :: rest => (o, q.essence) :: essenceClauses rest

/-- What queries ask for. -/
def essenceAll : List Query → List Query
  | [] => []
  | q :: rest => q.essence :: essenceAll rest

end

theorem essenceClauses_eq_map (clauses : List (Occur × Query)) :
    essenceClauses clauses = clauses.map fun c => (c.1, c.2.essence) := by
  induction clauses with
  | nil => rfl
  | cons c clauses ih => rw [List.map_cons, ← ih]; rfl

theorem essenceAll_eq_map (qs : List Query) : essenceAll qs = qs.map essence := by
  induction qs with
  | nil => rfl
  | cons q qs ih => rw [List.map_cons, ← ih]; rfl

theorem essence_peel (q : Query) : q.peel.essence = q.essence := by
  induction q using byParts with
  | hdeferred q plan ih => exact ih
  | hatom q hq => cases q <;> first | rfl | cases hq
  | _ => rfl

/-- Nothing is deferred in an essence. -/
theorem deferralDepth_essence (q : Query) : q.essence.deferralDepth = 0 := by
  induction q using byParts with
  | hboost q factor ih => exact ih
  | hboolean clauses ih =>
    rw [essence, deferralDepth, ← Nat.le_zero, clausesDeferralDepth_le_iff, essenceClauses_eq_map]
    exact List.forall_mem_map.2 fun c hc => Nat.le_zero.2 (ih c hc)
  | hspanOr field qs ih =>
    rw [essence, deferralDepth, ← Nat.le_zero, greatestDeferralDepth_le_iff, essenceAll_eq_map]
    exact List.forall_mem_map.2 fun q hq => Nat.le_zero.2 (ih q hq)
  | hspanNear field qs slop inOrder ih =>
    rw [essence, deferralDepth, ← Nat.le_zero, greatestDeferralDepth_le_iff, essenceAll_eq_map]
    exact List.forall_mem_map.2 fun q hq => Nat.le_zero.2 (ih q hq)
  | hwithoutPayload q ih => exact ih
  | hfrequentSpan q least ih => exact ih
  | hdeferred q plan ih => exact ih
  | hatom q hq => cases q <;> first | rfl | cases hq

theorem essence_essence (q : Query) : q.essence.essence = q.essence := by
  induction q using byParts with
  | hboost q factor ih => rw [essence, essence, ih]
  | hboolean clauses ih =>
    rw [essence, essence, essenceClauses_eq_map, essenceClauses_eq_map, List.map_map]
    exact congrArg boolean (List.map_congr_left fun c hc => congrArg (c.1, ·) (ih c hc))
  | hspanOr field qs ih =>
    rw [essence, essence, essenceAll_eq_map, essenceAll_eq_map, List.map_map]
    exact congrArg (spanOr field) (List.map_congr_left ih)
  | hspanNear field qs slop inOrder ih =>
    rw [essence, essence, essenceAll_eq_map, essenceAll_eq_map, List.map_map]
    exact congrArg (spanNear field · slop inOrder) (List.map_congr_left ih)
  | hwithoutPayload q ih => rw [essence, essence, ih]
  | hfrequentSpan q least ih => rw [essence, essence, ih]
  | hdeferred q plan ih => exact ih
  | hatom q hq => cases q <;> first | rfl | cases hq

theorem isSpan_essence (q : Query) : q.essence.isSpan = q.isSpan := by
  induction q using byParts with
  | hdeferred q plan ih => exact ih
  | hatom q hq => cases q <;> first | rfl | cases hq
  | _ => rfl

theorem spanField?_essence (q : Query) : q.essence.spanField? = q.spanField? := by
  induction q using byParts with
  | hwithoutPayload q ih => exact ih
  | hfrequentSpan q least ih => exact ih
  | hdeferred q plan ih => exact ih
  | hatom q hq => cases q <;> first | rfl | cases hq
  | _ => rfl

/-- A deferred selection is a selection in disguise: a query selects what its essence does. -/
theorem selects_essence (q : Query) : q.essence.hasNode isSelection = q.hasNode isSelection := by
  induction q using byParts with
  | hboost q factor ih => exact ih
  | hboolean clauses ih =>
    rw [essence, essenceClauses_eq_map]
    exact clausesHaveNode_congr (List.forall₂_map_right_iff.2 (List.forall₂_same.2 ih))
  | hspanOr field qs ih =>
    rw [essence, essenceAll_eq_map]
    exact someHasNode_congr (List.forall₂_map_right_iff.2 (List.forall₂_same.2 ih))
  | hspanNear field qs slop inOrder ih =>
    rw [essence, essenceAll_eq_map]
    exact someHasNode_congr (List.forall₂_map_right_iff.2 (List.forall₂_same.2 ih))
  | hwithoutPayload q ih => exact ih
  | hfrequentSpan q least ih => exact ih
  | hdeferred q plan ih => exact ih
  | hatom q hq => cases q <;> first | rfl | cases hq

/-- Queries that ask for the same thing stand for the same kind of thing. -/
theorem isSpan_congr {q r : Query} (h : q.essence = r.essence) : r.isSpan = q.isSpan := by
  rw [← isSpan_essence, ← h, isSpan_essence]

theorem spanField?_congr {q r : Query} (h : q.essence = r.essence) :
    r.spanField? = q.spanField? := by
  rw [← spanField?_essence, ← h, spanField?_essence]

theorem selects_congr {q r : Query} (h : q.essence = r.essence) :
    r.hasNode isSelection = q.hasNode isSelection := by
  rw [← selects_essence, ← h, selects_essence]

/-! ### Equality of essences -/

theorem sameClauses_iff_essences {clauses : List (Occur × Query)}
    (h : ∀ c ∈ clauses, ∀ r : Query, c.2.same r = true ↔ c.2.essence = r.essence)
    (others : List (Occur × Query)) :
    sameClauses clauses others = true ↔ essenceClauses clauses = essenceClauses others := by
  induction clauses generalizing others with
  | nil => cases others <;> simp [sameClauses, essenceClauses]
  | cons c clauses ih =>
    obtain ⟨hc, hclauses⟩ := List.forall_mem_cons.1 h
    cases others with
    | nil => simp [sameClauses, essenceClauses]
    | cons c' others =>
      rw [sameClauses, essenceClauses, essenceClauses, List.cons.injEq, Prod.mk.injEq,
        Bool.and_eq_true, Bool.and_eq_true, beq_iff_eq, hc, ih hclauses, and_comm (a := c.1 = c'.1)]

theorem sameAll_iff_essences {qs : List Query}
    (h : ∀ q ∈ qs, ∀ r : Query, q.same r = true ↔ q.essence = r.essence) (others : List Query) :
    sameAll qs others = true ↔ essenceAll qs = essenceAll others := by
  induction qs generalizing others with
  | nil => cases others <;> simp [sameAll, essenceAll]
  | cons q qs ih =>
    obtain ⟨hq, hqs⟩ := List.forall_mem_cons.1 h
    cases others with
    | nil => simp [sameAll, essenceAll]
    | cons r others =>
      rw [sameAll, essenceAll, essenceAll, List.cons.injEq, Bool.and_eq_true, hq, ih hqs]

/-- Two queries are the same exactly if they ask for the same thing. -/
theorem same_iff_essence (q r : Query) : q.same r = true ↔ q.essence = r.essence := by
  induction q using byParts generalizing r with
  | hdeferred q plan ih => exact ih r
  | hboost q factor ih =>
    rw [same, ← essence_peel r]
    cases hpeel : r.peel with
    | boost r factor' => simp [essence, ih, and_comm]
    | deferred r' plan' => exact absurd hpeel (peel_ne_deferred r r' plan')
    | _ => simp [essence]
  | hboolean clauses ih =>
    rw [same, ← essence_peel r]
    cases hpeel : r.peel with
    | boolean others => simp [essence, sameClauses_iff_essences ih]
    | deferred r' plan' => exact absurd hpeel (peel_ne_deferred r r' plan')
    | _ => simp [essence]
  | hspanOr field qs ih =>
    rw [same, ← essence_peel r]
    cases hpeel : r.peel with
    | spanOr field' others => simp [essence, sameAll_iff_essences ih]
    | deferred r' plan' => exact absurd hpeel (peel_ne_deferred r r' plan')
    | _ => simp [essence]
  | hspanNear field qs slop inOrder ih =>
    rw [same, ← essence_peel r]
    cases hpeel : r.peel with
    | spanNear field' others slop' inOrder' =>
      simp [essence, sameAll_iff_essences ih, and_assoc]
    | deferred r' plan' => exact absurd hpeel (peel_ne_deferred r r' plan')
    | _ => simp [essence]
  | hwithoutPayload q ih =>
    rw [same, ← essence_peel r]
    cases hpeel : r.peel with
    | withoutPayload r => simp [essence, ih]
    | deferred r' plan' => exact absurd hpeel (peel_ne_deferred r r' plan')
    | _ => simp [essence]
  | hfrequentSpan q least ih =>
    rw [same, ← essence_peel r]
    cases hpeel : r.peel with
    | frequentSpan r least' => simp [essence, ih]
    | deferred r' plan' => exact absurd hpeel (peel_ne_deferred r r' plan')
    | _ => simp [essence]
  | hatom q hq =>
    rw [← essence_peel r, ← same_peel]
    have hbare := peel_ne_deferred r
    have hpeel := peel_peel r
    generalize r.peel = bare at hbare hpeel ⊢
    cases q <;> first
      | (cases hq; done)
      | (rw [same, hpeel]
         cases bare <;> first
          | exact absurd rfl (hbare _ _)
          | simp [essence, Mark.same])

theorem same_self (q : Query) : q.same q = true := (same_iff_essence q q).2 rfl

theorem same_symm {q r : Query} (h : q.same r = true) : r.same q = true :=
  (same_iff_essence r q).2 ((same_iff_essence q r).1 h).symm

theorem same_trans {q r t : Query} (h : q.same r = true) (h' : r.same t = true) :
    q.same t = true :=
  (same_iff_essence q t).2 (((same_iff_essence q r).1 h).trans ((same_iff_essence r t).1 h'))

/-- A query asks for what its essence does. -/
theorem same_essence (q : Query) : q.same q.essence = true :=
  (same_iff_essence q _).2 (essence_essence q).symm

/-! ### Hashes -/

theorem codeClauses_essence {clauses : List (Occur × Query)}
    (h : ∀ c ∈ clauses, c.2.essence.code = c.2.code) :
    codeClauses (essenceClauses clauses) = codeClauses clauses := by
  induction clauses with
  | nil => rfl
  | cons c clauses ih =>
    obtain ⟨hc, hclauses⟩ := List.forall_mem_cons.1 h
    rw [essenceClauses, codeClauses, codeClauses, hc, ih hclauses]

theorem codeAll_essence {qs : List Query} (h : ∀ q ∈ qs, q.essence.code = q.code) :
    codeAll (essenceAll qs) = codeAll qs := by
  induction qs with
  | nil => rfl
  | cons q qs ih =>
    obtain ⟨hq, hqs⟩ := List.forall_mem_cons.1 h
    rw [essenceAll, codeAll, codeAll, hq, ih hqs]

/-- The hash of a query is that of what it asks for. -/
theorem code_essence (q : Query) : q.essence.code = q.code := by
  induction q using byParts with
  | hboost q factor ih => rw [essence, code, code, ih]
  | hboolean clauses ih => rw [essence, code, code, codeClauses_essence ih]
  | hspanOr field qs ih => rw [essence, code, code, codeAll_essence ih]
  | hspanNear field qs slop inOrder ih => rw [essence, code, code, codeAll_essence ih]
  | hwithoutPayload q ih => rw [essence, code, code, ih]
  | hfrequentSpan q least ih => rw [essence, code, code, ih]
  | hdeferred q plan ih => exact ih
  | hatom q hq => cases q <;> first | rfl | cases hq

instance : EquivBEq Query where
  rfl {q} := same_self q
  symm h := same_symm h
  trans h h' := same_trans h h'

instance : LawfulHashable Query where
  hash_eq q r h := calc
    q.code = q.essence.code := (code_essence q).symm
    _ = r.essence.code := by rw [(same_iff_essence q r).1 h]
    _ = r.code := code_essence r

/-- Queries are equal exactly if they ask for the same thing, whatever is deferred in them at any
depth and whatever lookups they carry along. So equality is an equivalence relation, and equal
queries have equal hashes. -/
theorem equality_of_essences :
    (∀ q r : Query, (q == r) = true ↔ q.essence = r.essence) ∧
      Equivalence (fun q r : Query => (q == r) = true) ∧
      ∀ q r : Query, (q == r) = true → hash q = hash r := by
  refine ⟨same_iff_essence, ⟨fun q => BEq.rfl, fun h => BEq.symm h, fun h h' => BEq.trans h h'⟩, ?_⟩
  exact fun q r h => hash_eq h

-- a deferral may lie outside of a boost or inside of it, also when the factor is no number
example (plan : Plan) :
    (deferred (boost nothing .undefined) plan ==
      boost (deferred (deferred nothing plan) plan) .undefined) = true := by
  rfl

end Query

end TextSearch
