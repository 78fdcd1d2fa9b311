import TextSearch.Proofs.Plan.Rewriting

/-!
# Narrowing

Boosts and boolean combinations take a query apart into leaves, and `Query.meets` says
whether a query is met when it is known which leaves are. Without excluded clauses a
query is met by whatever a rewriting of it is met by, if that holds of every node that
a rule changes: `Plan.meets_of_rewrites`. One rule counts the occurrences of several
terms together; `Plan.pooled` is a query with these counts allowed.
-/

namespace TextSearch

namespace Query

mutual

/-- Whether a query excludes nothing: none of its clauses must not match. -/
def isPositive : Query → Bool
  | boost q _ => isPositive q
  | boolean clauses => clausesPositive clauses
  | _ => true

/-- Whether some clauses exclude nothing. -/
def clausesPositive : List (Occur × Query) → Bool
  | [] => true
  | (o, q) :: rest => o != .mustNot && isPositive q && clausesPositive rest

end

mutual

/-- Whether a query that excludes nothing is met, given which leaves are. -/
def meets (leaf : Query → Prop) : Query → Prop
  | boost q _ => meets leaf q
  | boolean clauses => clausesAllow leaf clauses ∧ clausesBack leaf clauses
  | q => leaf q

/-- Whether all clauses that have to be met are. -/
def clausesAllow (leaf : Query → Prop) : List (Occur × Query) → Prop
  | [] => True
  | (o, q) :: rest => (o = .must → meets leaf q) ∧ clausesAllow leaf rest

/-- Whether some clause has to be met, or may be met and is. -/
def clausesBack (leaf : Query → Prop) : List (Occur × Query) → Prop
  | [] => False
  | (o, q) :: rest => (o = .must ∨ o = .should ∧ meets leaf q) ∨ clausesBack leaf rest

end

variable {leaf leaf' : Query → Prop}

theorem clausesPositive_iff {clauses : List (Occur × Query)} :
    clausesPositive clauses = true ↔ ∀ c ∈ clauses, c.1 ≠ .mustNot ∧ c.2.isPositive = true := by
  induction clauses with
  | nil => simp [clausesPositive]
  | cons c clauses ih =>
    rw [clausesPositive, Bool.and_eq_true, Bool.and_eq_true, ih, List.forall_mem_cons, bne_iff_ne]

theorem clausesAllow_iff {clauses : List (Occur × Query)} :
    clausesAllow leaf clauses ↔ ∀ c ∈ clauses, c.1 = .must → c.2.meets leaf := by
  induction clauses with
  | nil => simp [clausesAllow]
  | cons c clauses ih => rw [clausesAllow, ih, List.forall_mem_cons]

theorem clausesBack_iff {clauses : List (Occur × Query)} :
    clausesBack leaf clauses ↔
      ∃ c ∈ clauses, c.1 = .must ∨ c.1 = .should ∧ c.2.meets leaf := by
  induction clauses with
  | nil => simp [clausesBack]
  | cons c clauses ih => rw [clausesBack, ih, List.exists_mem_cons_iff]

/-- Whether a query is neither a boost nor a boolean combination. -/
def isLeaf : Query → Bool
  | boost _ _ => false
  | boolean _ => false
  | _ => true

mutual

/-- What holds of leaves, and of combinations if it holds of their parts, holds of all queries. -/
theorem combination {P : Query → Prop} (hboost : ∀ q factor, P q → P (boost q factor))
    (hboolean : ∀ clauses, (∀ c ∈ clauses, P c.2) → P (boolean clauses))
    (hleaf : ∀ q, q.isLeaf = true → P q) : ∀ q, P q
  | boost q factor => hboost q factor (combination hboost hboolean hleaf q)
  | boolean clauses => hboolean clauses (combination_clauses hboost hboolean hleaf clauses)
  | term t => hleaf (term t) rfl
  | markedTerm t mark => hleaf (markedTerm t mark) rfl
  | frequentTerm t least carried => hleaf (frequentTerm t least carried) rfl
  | multiTerm m => hleaf (multiTerm m) rfl
  | spanTerm t => hleaf (spanTerm t) rfl
  | frequentSpanTerm t least carried => hleaf (frequentSpanTerm t least carried) rfl
  | spanMultiTerm m => hleaf (spanMultiTerm m) rfl
  | spanOr field qs => hleaf (spanOr field qs) rfl
  | spanNear field qs slop inOrder => hleaf (spanNear field qs slop inOrder) rfl
  | withoutPayload q => hleaf (withoutPayload q) rfl
  | frequentSpan q least => hleaf (frequentSpan q least) rfl
  | deferred q plan => hleaf (deferred q plan) rfl
  | nothing => hleaf nothing rfl

theorem combination_clauses {P : Query → Prop} (hboost : ∀ q factor, P q → P (boost q factor))
    (hboolean : ∀ clauses, (∀ c ∈ clauses, P c.2) → P (boolean clauses))
    (hleaf : ∀ q, q.isLeaf = true → P q) :
    ∀ clauses : List (Occur × Query), ∀ c ∈ clauses, P c.2
  | [] => List.forall_mem_nil _
  | (_, q) :: rest => List.forall_mem_cons.2
    ⟨combination hboost hboolean hleaf q, combination_clauses hboost hboolean hleaf rest⟩

end

theorem meets_leaf {q : Query} (hq : q.isLeaf = true) : q.meets leaf ↔ leaf q := by
  cases q with
  | boost => cases hq
  | boolean => cases hq
  | _ => exact Iff.rfl

/-- A query is met when more leaves are. -/
theorem meets_mono (h : ∀ q, leaf q → leaf' q) (q : Query) : q.meets leaf → q.meets leaf' := by
  induction q using combination with
  | hboost q factor ih => exact ih
  | hboolean clauses ih =>
    rintro ⟨hallow, hback⟩
    constructor
    · rw [clausesAllow_iff] at hallow ⊢
      exact fun c hc ho => ih c hc (hallow c hc ho)
    · obtain ⟨c, hc, hbacks⟩ := clausesBack_iff.1 hback
      exact clausesBack_iff.2 ⟨c, hc, hbacks.imp_right fun hone => ⟨hone.1, ih c hc hone.2⟩⟩
  | hleaf q hq =>
    rw [meets_leaf hq, meets_leaf hq]
    exact h q

/-- Leaves as they are, except for selections. -/
def selecting (leaf : Query → Prop) (selected : MultiTerm → Prop) : Query → Prop
  | multiTerm m => selected m
  | q => leaf q

theorem selecting_eq {selected : MultiTerm → Prop} {q : Query} (hq : ∀ m, q ≠ multiTerm m) :
    selecting leaf selected q ↔ leaf q := by
  cases q with
  | multiTerm m => exact absurd rfl (hq m)
  | _ => exact Iff.rfl

theorem selecting_of_leaf {selected : MultiTerm → Prop} (h : ∀ m, leaf (multiTerm m) → selected m)
    (q : Query) (hq : leaf q) : selecting leaf selected q := by
  cases q with
  | multiTerm m => exact h m hq
  | _ => exact hq

end Query

namespace Plan

variable {p : Plan}

/-! ### Rewriting -/

theorem isPositive_exactForm {q : Query} (hq : q.isPositive = true) (t : Term)
    (fromPhrase : Bool) : (p.exactForm q t fromPhrase).isPositive = true := by
  rcases p.exactForm_cases q t fromPhrase with h | ⟨factor, h⟩ <;> rw [h]
  · rfl
  · have hclauses : Query.clausesPositive
        [(.should, q), (.should, .boost (exactPlaces t) factor)] = (q.isPositive && true) := rfl
    rw [hq] at hclauses
    exact hclauses

/-- Rewriting excludes nothing. -/
theorem Step.isPositive {q q' : Query} (h : p.Step q q') (hq : q.isPositive = true) :
    q'.isPositive = true := by
  induction h with
  | node _ hchange _ =>
    cases hchange with
    | term => exact isPositive_exactForm rfl _ _
    | markedTerm => exact isPositive_exactForm rfl _ _
    | _ => rfl
  | boost _ _ ih => exact ih hq
  | clause before o after _ ih =>
    have hclauses := Query.clausesPositive_iff.1 hq
    refine Query.clausesPositive_iff.2 fun c hc => ?_
    have hchanged := hclauses _ (List.mem_append_right before (List.mem_cons_self ..))
    rcases List.mem_append.1 hc with hc | hc
    · exact hclauses c (List.mem_append_left _ hc)
    · rcases List.mem_cons.1 hc with rfl | hc
      · exact ⟨hchanged.1, ih hchanged.2⟩
      · exact hclauses c (List.mem_append_right _ (List.mem_cons_of_mem _ hc))

theorem Rewrites.isPositive {q q' : Query} (h : p.Rewrites q q') (hq : q.isPositive = true) :
    q'.isPositive = true := by
  induction h with
  | refl => exact hq
  | tail _ hstep ih => exact hstep.isPositive ih

/-- What a rule changes is a leaf. -/
theorem Change.meets_iff {r : Rule} {q q' : Query} (h : p.Change r q q') (leaf : Query → Prop) :
    q.meets leaf ↔ leaf q := by
  cases h <;> exact Iff.rfl

/-- That changed nodes meet no more than the nodes did. -/
def Narrows (p : Plan) (leaf : Query → Prop) : Prop :=
  ∀ r q q', r ∈ p.chain → p.Change r q q' →
    (∀ m, q = .multiTerm m → p.firstRule? q = some r) → q'.meets leaf → leaf q

/-- A step leads to no more than was met. -/
theorem Step.meets {leaf : Query → Prop} (hleaf : p.Narrows leaf) {q q' : Query}
    (h : p.Step q q') (hmeets : q'.meets leaf) : q.meets leaf := by
  induction h with
  | node hmem hchange hfirst =>
    exact (hchange.meets_iff leaf).2 (hleaf _ _ _ hmem hchange hfirst hmeets)
  | boost _ _ ih => exact ih hmeets
  | @clause q q' before o after _ ih =>
    obtain ⟨hallow, hback⟩ := hmeets
    rw [Query.clausesAllow_iff, List.forall_mem_append, List.forall_mem_cons] at hallow
    obtain ⟨hbefore, hone, hafter⟩ := hallow
    refine ⟨Query.clausesAllow_iff.2 ?_, Query.clausesBack_iff.2 ?_⟩
    · rw [List.forall_mem_append, List.forall_mem_cons]
      exact ⟨hbefore, fun ho => ih (hone ho), hafter⟩
    · obtain ⟨c, hc, hbacks⟩ := Query.clausesBack_iff.1 hback
      rcases List.mem_append.1 hc with hc | hc
      · exact ⟨c, List.mem_append_left _ hc, hbacks⟩
      · rcases List.mem_cons.1 hc with rfl | hc
        · exact ⟨(o, q), List.mem_append_right _ (List.mem_cons_self ..),
            hbacks.imp_right fun hshould => ⟨hshould.1, ih hshould.2⟩⟩
        · exact ⟨c, List.mem_append_right _ (List.mem_cons_of_mem _ hc), hbacks⟩

/-- Rewriting leads to no more than was met. -/
theorem meets_of_rewrites {leaf : Query → Prop} (hleaf : p.Narrows leaf) {q q' : Query}
    (h : p.Rewrites q q') (hmeets : q'.meets leaf) : q.meets leaf := by
  induction h with
  | refl => exact hmeets
  | tail _ hstep ih => exact ih (hstep.meets hleaf hmeets)

/-! ### Pooled counts -/

/-- The minimum frequency that a plan asks of all terms of a selection together, if it does. -/
def pool? (p : Plan) (m : MultiTerm) : Option Threshold :=
  if p.firstRule? (.multiTerm m) = some .exactFrequentMultiTerm ∧ p.isTokenized m.field = true then
    m.least
  else none

/-- A selection, or the places of all of its terms together where a plan counts these. -/
def pooledSelection (p : Plan) (m : MultiTerm) : Query :=
  match p.pool? m with
  | none => .multiTerm m
  | some least =>
    .boolean [(.should, .multiTerm m),
      (.should, .frequentSpan (exactMultiPlaces m.withoutMinimum) least)]

mutual

/-- A query in which the terms of a selection may reach its minimum frequency together, without
their payloads, where a plan counts them so. -/
def pooled (p : Plan) : Query → Query
  | .multiTerm m => p.pooledSelection m
  | .boost q factor => .boost (p.pooled q) factor
  | .boolean clauses => .boolean (p.pooledClauses clauses)
  | q => q

/-- Some clauses with pooled counts. -/
def pooledClauses (p : Plan) : List (Occur × Query) → List (Occur × Query)
  | [] => []
  | (o, q) :: rest => (o, p.pooled q) :: p.pooledClauses rest

end

/-- Only one rule pools counts. -/
theorem pool?_eq_none (h : .exactFrequentMultiTerm ∉ p.chain) (m : MultiTerm) :
    p.pool? m = none := by
  rw [pool?, if_neg]
  rintro ⟨hfirst, -⟩
  obtain ⟨found, hfound, hrule⟩ := Option.map_eq_some_iff.1 hfirst
  exact h (hrule ▸ (find?_eq_some hfound).1)

theorem pooledClauses_eq_map (clauses : List (Occur × Query)) :
    p.pooledClauses clauses = clauses.map fun c => (c.1, p.pooled c.2) := by
  induction clauses with
  | nil => rfl
  | cons c clauses ih => rw [pooledClauses, ih, List.map_cons]

/-- Leaves other than selections are left as they are. -/
theorem pooled_leaf {q : Query} (hq : q.isLeaf = true) (hnot : ∀ m, q ≠ .multiTerm m) :
    p.pooled q = q := by
  cases q with
  | boost => cases hq
  | boolean => cases hq
  | multiTerm m => exact absurd rfl (hnot m)
  | _ => rfl

/-- Without the rule that pools counts a query is left as it is. -/
theorem pooled_eq_self (h : .exactFrequentMultiTerm ∉ p.chain) (q : Query) : p.pooled q = q := by
  induction q using Query.combination with
  | hboost q factor ih => rw [pooled, ih]
  | hboolean clauses ih =>
    have hsame : ∀ c ∈ clauses, (c.1, p.pooled c.2) = id c := fun c hc => Prod.ext rfl (ih c hc)
    rw [pooled, pooledClauses_eq_map, List.map_congr_left hsame, List.map_id]
  | hleaf q hq =>
    by_cases hm : ∃ m, q = .multiTerm m
    · obtain ⟨m, rfl⟩ := hm
      rw [pooled, pooledSelection, pool?_eq_none h]
    · exact pooled_leaf hq fun m hq => hm ⟨m, hq⟩

/-- Pooled counts exclude nothing. -/
theorem isPositive_pooled {q : Query} (hq : q.isPositive = true) :
    (p.pooled q).isPositive = true := by
  induction q using Query.combination with
  | hboost q factor ih => exact ih hq
  | hboolean clauses ih =>
    have hclauses := Query.clausesPositive_iff.1 hq
    rw [pooled, pooledClauses_eq_map]
    refine Query.clausesPositive_iff.2 fun c' hc' => ?_
    obtain ⟨c, hc, rfl⟩ := List.mem_map.1 hc'
    exact ⟨(hclauses c hc).1, ih c hc (hclauses c hc).2⟩
  | hleaf q hleaf =>
    by_cases hm : ∃ m, q = .multiTerm m
    · obtain ⟨m, rfl⟩ := hm
      rw [pooled, pooledSelection]
      cases p.pool? m <;> rfl
    · rw [pooled_leaf hleaf fun m hq => hm ⟨m, hq⟩]
      exact hq

/-- With pooled counts a query is met when it is met as it is, with selections met when they are
with pooled counts. -/
theorem meets_pooled {leaf : Query → Prop} (q : Query) : (p.pooled q).meets leaf ↔
    q.meets (Query.selecting leaf fun m => (p.pooledSelection m).meets leaf) := by
  induction q using Query.combination with
  | hboost q factor ih => exact ih
  | hboolean clauses ih =>
    rw [pooled, pooledClauses_eq_map, Query.meets, Query.meets]
    refine and_congr ?_ ?_
    · rw [Query.clausesAllow_iff, Query.clausesAllow_iff, List.forall_mem_map]
      exact forall₂_congr fun c hc => imp_congr_right fun _ => ih c hc
    · simp only [Query.clausesBack_iff, List.mem_map, exists_exists_and_eq_and]
      exact exists_congr fun c => and_congr_right fun hc =>
        or_congr_right (and_congr_right fun _ => ih c hc)
  | hleaf q hq =>
    rw [Query.meets_leaf hq]
    by_cases hm : ∃ m, q = .multiTerm m
    · obtain ⟨m, rfl⟩ := hm
      exact Iff.rfl
    · have hnot : ∀ m, q ≠ .multiTerm m := fun m hq => hm ⟨m, hq⟩
      rw [pooled_leaf hq hnot, Query.meets_leaf hq, Query.selecting_eq hnot]

end Plan

end TextSearch
