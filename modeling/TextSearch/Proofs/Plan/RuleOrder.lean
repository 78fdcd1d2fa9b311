import TextSearch.Proofs.Plan.Alongside
import TextSearch.Proofs.Plan.Divergence
import TextSearch.Proofs.Query.Equality

/-!
# The order of rules

If no node is accepted by two rules of a chain, their order makes no difference: the rule that
accepts a node is found wherever it stands, and it is passed over wherever it stands. Only the
plans that are put off carry the chain in the order that it has. Main statement:
`Plan.rule_order_irrelevant`.
-/

namespace TextSearch

/-- No node is accepted by two rules of a chain. -/
def Chain.Exclusive (chain : Chain) : Prop :=
  chain.Pairwise fun r r' => ∀ q, ¬ (r.accepts q = true ∧ r'.accepts q = true)

namespace Query

variable {parts : Query → Query → Prop}

/-- Queries are the same if they are equal but for parts that are the same. -/
theorem EqualBut.same {q q' : Query} (h : EqualBut parts q q')
    (hparts : ∀ {q q'}, parts q q' → q.same q' = true) : q.same q' = true := by
  induction h with
  | refl q => exact same_self q
  | part h => exact hparts h
  | @boost q q' factor h ih =>
    change (factor == factor && q.same q') = true
    rw [beq_self_eq_true, ih]
    rfl
  | @boolean clauses clauses' hlength hoccur h ih =>
    exact sameClauses_iff.2 (forall₂_of_zip hlength fun c hc => ⟨ih c hc, hoccur c hc⟩)

end Query

namespace Plan

open Query

variable {chain chain' : Chain}

/-! ### Places of rules -/

/-- Only one rule of the chain accepts a node, and it stands in one place only. -/
theorem place_unique (hchain : Chain.Exclusive chain) {i j : Nat} {r r' : Rule}
    (hi : chain[i]? = some r) (hj : chain[j]? = some r') {q : Query}
    (hr : r.accepts q = true) (hr' : r'.accepts q = true) : i = j := by
  obtain ⟨hilt, rfl⟩ := List.getElem?_eq_some_iff.1 hi
  obtain ⟨hjlt, rfl⟩ := List.getElem?_eq_some_iff.1 hj
  rcases Nat.lt_trichotomy i j with hlt | heq | hlt
  · exact absurd ⟨hr, hr'⟩ (List.pairwise_iff_getElem.1 hchain i j hilt hjlt hlt q)
  · exact heq
  · exact absurd ⟨hr', hr⟩ (List.pairwise_iff_getElem.1 hchain j i hjlt hilt hlt q)

variable {p p' : Plan}

theorem exists_find? {i : Nat} {r : Rule} (hi : p.chain[i]? = some r) {q : Query}
    (hr : r.accepts q = true) {passed : Option Nat} (hpassed : passed ≠ some i) :
    ∃ j r', p.find? passed q = some (j, r') := by
  cases hfind : p.find? passed q with
  | some found => exact ⟨found.1, found.2, rfl⟩
  | none =>
    have hmem : (r, i) ∈ p.chain.zipIdx := List.mem_zipIdx_iff_getElem?.2 hi
    have hnot := List.find?_eq_none.1 (Option.map_eq_none_iff.1 hfind) (r, i) hmem
    exact absurd (Bool.and_eq_true_iff.2 ⟨bne_iff_ne.2 hpassed, hr⟩) hnot

/-- Places where the same rule stands in two chains. -/
def SameRule (p p' : Plan) (i i' : Nat) : Prop :=
  ∃ r, p.chain[i]? = some r ∧ p'.chain[i']? = some r

/-- What one chain finds the other one finds as well. -/
theorem find?_reordered (hchain : Chain.Exclusive p.chain) (hchain' : Chain.Exclusive p'.chain)
    (hsub : p.chain ⊆ p'.chain) {passed passed' : Option Nat}
    (hpassed : Option.Rel (SameRule p p') passed passed') {q : Query} {i : Nat} {r : Rule}
    (hfind : p.find? passed q = some (i, r)) :
    ∃ i', p'.find? passed' q = some (i', r) ∧ SameRule p p' i i' := by
  have hi : p.chain[i]? = some r := find?_eq_some_getElem? hfind
  have hr : r.accepts q = true := (find?_eq_some hfind).2
  obtain ⟨i', hi'⟩ := List.mem_iff_getElem?.1 (hsub (find?_eq_some hfind).1)
  -- passing over its place in the other chain would be passing over its place in this one
  have hnot : passed' ≠ some i' := by
    rintro rfl
    cases hpassed with
    | @some k _ hsame =>
      obtain ⟨r', hk, hk'⟩ := hsame
      obtain rfl : r = r' := Option.some.inj (hi'.symm.trans hk')
      exact passed_ne_of_find? hfind (congrArg some (place_unique hchain hk hi hr hr))
  obtain ⟨j, r', hfind'⟩ := exists_find? hi' hr hnot
  have hj := find?_eq_some_getElem? hfind'
  obtain rfl : i' = j := place_unique hchain' hi' hj hr (find?_eq_some hfind').2
  obtain rfl : r = r' := Option.some.inj (hi'.symm.trans hj)
  exact ⟨i', hfind', r, hi, hi'⟩

theorem SameRule.symm {i i' : Nat} (h : SameRule p p' i i') : SameRule p' p i' i :=
  h.imp fun _ h => h.symm

theorem rel_find?_reordered (hchain : Chain.Exclusive p.chain)
    (hchain' : Chain.Exclusive p'.chain) (hperm : p.chain.Perm p'.chain)
    {passed passed' : Option Nat} (hpassed : Option.Rel (SameRule p p') passed passed')
    (q : Query) :
    Option.Rel (fun found found' => SameRule p p' found.1 found'.1 ∧ found.2 = found'.2)
      (p.find? passed q) (p'.find? passed' q) := by
  have hback : Option.Rel (SameRule p' p) passed' passed := by
    cases hpassed with
    | none => exact .none
    | some h => exact .some h.symm
  cases hfind : p.find? passed q with
  | some found =>
    obtain ⟨i', hfind', hsame⟩ := find?_reordered hchain hchain' hperm.subset hpassed hfind
    rw [hfind']
    exact .some ⟨hsame, rfl⟩
  | none =>
    cases hfind' : p'.find? passed' q with
    | none => exact .none
    | some found =>
      obtain ⟨i, hfound, -⟩ := find?_reordered hchain' hchain hperm.symm.subset hback hfind'
      rw [hfind] at hfound
      cases hfound

/-! ### Traversals -/

/-- A query that is put off by both of two plans. -/
def PutOff (p p' : Plan) (q q' : Query) : Prop :=
  ∃ r, q = .deferred r p ∧ q' = .deferred r p'

theorem PutOff.same {q q' : Query} (h : PutOff p p' q q') : q.same q' = true := by
  obtain ⟨r, rfl, rfl⟩ := h
  exact (same_iff_essence _ _).2 rfl

theorem alongside_reordered (hchain : Chain.Exclusive chain) (hperm : chain.Perm chain')
    (options : TraversalOptions) (context : SearchContext) :
    Alongside ⟨chain, options, context⟩ ⟨chain', options, context⟩
      (PutOff ⟨chain, options, context⟩ ⟨chain', options, context⟩)
      (SameRule ⟨chain, options, context⟩ ⟨chain', options, context⟩) where
  options := rfl
  context := rfl
  inert := by
    rintro q q' ⟨r, rfl, rfl⟩
    exact ⟨⟨rfl, fun rule => by cases rule <;> rfl⟩, rfl, fun rule => by cases rule <;> rfl⟩
  putOff q := .part ⟨q, rfl, rfl⟩
  finds hpassed q := by
    have hchain' : Chain.Exclusive chain' := hchain.perm hperm fun h q hq => h q hq.symm
    exact rel_find?_reordered hchain hchain' hperm hpassed q

/-- If no node is accepted by two rules of a chain, then traversals by the chain and by any
reordering of it fail both, or come to the same query. The only difference is that what is put off
carries along the chain that was followed. -/
theorem rule_order_irrelevant (hchain : Chain.Exclusive chain) (hperm : chain.Perm chain')
    (options : TraversalOptions) (context : SearchContext) (q : Query) :
    let p : Plan := ⟨chain, options, context⟩
    let p' : Plan := ⟨chain', options, context⟩
    Concur (fun r r' => (r == r') = true ∧ EqualBut (PutOff p p') r r')
      (p.traversed q) (p'.traversed q) := by
  intro p p'
  have hconcur := (alongside_reordered hchain hperm options context).concur_traversed (.refl q)
  exact hconcur.mono_of_ok fun r r' _ h => ⟨h.same PutOff.same, h⟩

/-- Inside of a boost a term is marked and then made exact, and a range is put off. -/
theorem rule_order_irrelevant_marking :
    let mark : Mark := ⟨1, "synonym"⟩
    let chain : Chain := [.throughBoost, .markTerm mark, .exactMarkedTerm mark, .deferRange]
    let chain' : Chain := [.deferRange, .exactMarkedTerm mark, .throughBoost, .markTerm mark]
    let context : SearchContext := ⟨Mapping.empty.withField "body" .text, default⟩
    let p : Plan := ⟨chain, default, context⟩
    let p' : Plan := ⟨chain', default, context⟩
    let range : Query := .multiTerm ⟨"body", .range (some "a") none true true, none⟩
    let q : Query := .boost (.boolean [(.must, .term ⟨"body", "fox"⟩), (.mustNot, range)])
      ⟨0x40400000⟩
    (Chain.Exclusive chain ∧ chain.Perm chain') ∧
      Concur (fun r r' => (r == r') = true ∧ EqualBut (PutOff p p') r r')
        (p.traversed q) (p'.traversed q) := by
  intro mark chain chain' context p p' range q
  have hchain : Chain.Exclusive chain := by
    simp only [chain, Chain.Exclusive, List.pairwise_cons, List.forall_mem_cons]
    refine ⟨⟨?_, ?_, ?_, ?_⟩, ⟨?_, ?_, ?_⟩, ⟨?_, ?_⟩, ?_, .nil⟩
    all_goals first
      | exact List.forall_mem_nil _
      | (intro q; cases q <;> simp [Rule.accepts])
  have hperm : chain.Perm chain' := by decide
  exact ⟨⟨hchain, hperm⟩, rule_order_irrelevant hchain hperm default context q⟩

end Plan

end TextSearch
