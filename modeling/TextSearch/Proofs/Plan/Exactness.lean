import TextSearch.Proofs.Plan.Rewriting
import TextSearch.Proofs.Search.Yields

/-!
# Exact plans

An exact plan has the rules that make terms, selections and terms with a minimum
frequency exact, goes through boosts, and puts ranges off. `Plan.exactly` says what
such a plan makes of a query, and `Plan.eq_exactly_of_traversed` that it does.
-/

namespace TextSearch

namespace Plan

/-- The rules that make a query exact. -/
def exactChain : Chain := [.throughBoost, .exactTerm, .exactMultiTerm, .exactFrequentTerm, .deferRange]

/-- A plan that makes queries exact, and adds no boosted forms instead. -/
structure IsExact (p : Plan) : Prop where
  /-- The rules are those that make a query exact. -/
  chain : p.chain = exactChain
  /-- Exact forms replace the terms that they belong to. -/
  replaces : p.options.boostExactTokens = none

mutual

/-- What an exact plan makes of a query. -/
def exactly (p : Plan) : Query → Query
  | .term t => if p.isTokenized t.field then exactPlaces t else .term t
  | .markedTerm t mark => if p.isTokenized t.field then exactPlaces t else .markedTerm t mark
  | .frequentTerm t least carried =>
    if p.isTokenized t.field then .frequentSpan (exactPlaces t) least
    else .frequentTerm t least carried
  | .multiTerm m =>
    if m.isRange then .deferred (.multiTerm m) p
    else if m.least.isNone && p.isTokenized m.field then exactMultiPlaces m
    else .multiTerm m
  | .boost q factor => .boost (p.exactly q) factor
  | .boolean clauses => .boolean (p.exactlyClauses clauses)
  | q => q

/-- What an exact plan makes of clauses. -/
def exactlyClauses (p : Plan) : List (Occur × Query) → List (Occur × Query)
  | [] => []
  | (o, q) :: rest => (o, p.exactly q) :: p.exactlyClauses rest

end

variable {p : Plan}

/-- No rule takes a node up. -/
def Leaves (p : Plan) (q : Query) : Prop := ∀ passed, p.find? passed q = none

/-- A node that no other rule takes up is not handed on. -/
theorem apply_of_hand {inner : Query → Except Fault (Option Query)} {given q : Query}
    {passes i : Nat} {r : Rule} {o : Option Query}
    (hfinal : ∀ next, p.apply inner r q = .ok (some next) → p.find? (some i) next = none)
    (h : p.hand inner given passes (i, r) q = .ok o) : p.apply inner r q = .ok o := by
  cases passes with
  | zero => cases h
  | succ passes =>
    rw [hand] at h
    obtain ⟨o₁, happly, h⟩ := except_bind_eq_ok.1 h
    cases o₁ with
    | none =>
      cases h
      exact happly
    | some next =>
      simp only [hfinal next happly] at h
      cases h
      exact happly

/-- A node that one rule turns into one that no rule takes up is what that rule makes of it. -/
theorem getD_of_traverseTo {depth : Nat} {q : Query} {i : Nat} {r : Rule} {made o : Option Query}
    (hfind : p.find? none q = some (i, r))
    (happly : p.apply (p.traverseTo depth) r q = .ok made) (hmade : ∀ next ∈ made, p.Leaves next)
    (h : p.traverseTo (depth + 1) q = .ok o) : o.getD q = made.getD q := by
  unfold traverseTo at h
  simp only [hfind] at h
  have hsame := apply_of_hand (fun next hnext => hmade next ?_ _) h
  · rw [happly] at hsame
    cases hsame
    rfl
  · rw [happly] at hnext
    cases hnext
    rfl

/-- A leaf that no rule takes up is left as it is. -/
theorem getD_of_leaves {depth : Nat} {q : Query} {o : Option Query} (hleaves : p.Leaves q)
    (hq : q.height = 0) (h : p.traverseTo (depth + 1) q = .ok o) : o.getD q = q := by
  unfold traverseTo at h
  simp only [hleaves none] at h
  cases q with
  | boost => cases hq
  | boolean => cases hq
  | _ =>
    cases h
    rfl

/-- A node for which a rule has one form under a condition becomes that form. -/
theorem getD_of_form {depth : Nat} {q form : Query} {i : Nat} {r : Rule} {c : Bool}
    {o : Option Query} (hfind : p.find? none q = some (i, r))
    (happly : p.apply (p.traverseTo depth) r q = .ok (if c then some form else none))
    (hform : p.Leaves form) (h : p.traverseTo (depth + 1) q = .ok o) :
    o.getD q = if c then form else q := by
  rw [getD_of_traverseTo hfind happly (fun next hnext => ?_) h]
  · cases c <;> rfl
  · cases c with
    | true =>
      cases hnext
      exact hform
    | false => cases hnext

namespace IsExact

theorem leaves_of_accepts (hp : p.IsExact) {q : Query}
    (hq : ∀ r ∈ exactChain, r.accepts q = false) : p.Leaves q :=
  find?_eq_none_of_chain (hp.chain ▸ hq)

theorem leaves_withoutPayload (hp : p.IsExact) (q : Query) : p.Leaves (.withoutPayload q) :=
  hp.leaves_of_accepts (by simp [exactChain, Rule.accepts])

theorem leaves_frequentSpan (hp : p.IsExact) (q : Query) (least : Threshold) :
    p.Leaves (.frequentSpan q least) :=
  hp.leaves_of_accepts (by simp [exactChain, Rule.accepts])

theorem leaves_deferred (hp : p.IsExact) (q : Query) (plan : Plan) : p.Leaves (.deferred q plan) :=
  hp.leaves_of_accepts (by simp [exactChain, Rule.accepts])

theorem exactForm_eq (hp : p.IsExact) (q : Query) (t : Term) (fromPhrase : Bool) :
    p.exactForm q t fromPhrase = exactPlaces t := by
  rw [exactForm, hp.replaces]

/-- An exact plan makes of a selection its exact form where it has one, and puts ranges off. -/
theorem getD_multiTerm (hp : p.IsExact) {depth : Nat} {m : MultiTerm} {o : Option Query}
    (h : p.traverseTo (depth + 1) (.multiTerm m) = .ok o) :
    o.getD (.multiTerm m) = p.exactly (.multiTerm m) := by
  rw [exactly]
  cases hrange : m.isRange with
  | true =>
    have hfind : p.find? none (.multiTerm m) = some (4, .deferRange) := by
      rw [find?, hp.chain]
      simp [exactChain, Rule.accepts, List.zipIdx, hrange]
    rw [getD_of_traverseTo hfind rfl (fun next hnext => ?_) h]
    · rfl
    · cases hnext
      exact hp.leaves_deferred _ _
  | false =>
    cases hleast : m.least with
    | none =>
      have hfind : p.find? none (.multiTerm m) = some (2, .exactMultiTerm) := by
        rw [find?, hp.chain]
        simp [exactChain, Rule.accepts, List.zipIdx, hrange, hleast]
      rw [getD_of_form hfind rfl (hp.leaves_withoutPayload _) h]
      rfl
    | some least =>
      have hleaves : p.Leaves (.multiTerm m) :=
        hp.leaves_of_accepts (by simp [exactChain, Rule.accepts, hrange, hleast])
      exact getD_of_leaves hleaves rfl h

mutual

/-- Where traversing down to a depth does not fail, an exact plan makes of a query what it should. -/
theorem getD_eq_exactly (hp : p.IsExact) : ∀ (q : Query) {depth : Nat} {o : Option Query},
    q.height < depth → p.traverseTo depth q = .ok o → o.getD q = p.exactly q
  | .term t, depth + 1, o, _, h => by
    have hfind : p.find? none (.term t) = some (1, .exactTerm) := by
      rw [find?, hp.chain]
      rfl
    have happly : p.apply (p.traverseTo depth) .exactTerm (.term t) =
        .ok (if p.isTokenized t.field then some (exactPlaces t) else none) := by
      rw [← hp.exactForm_eq (.term t) t false]
      rfl
    exact getD_of_form hfind happly (hp.leaves_withoutPayload _) h
  | .markedTerm t mark, depth + 1, o, _, h => by
    have hfind : p.find? none (.markedTerm t mark) = some (1, .exactTerm) := by
      rw [find?, hp.chain]
      rfl
    have happly : p.apply (p.traverseTo depth) .exactTerm (.markedTerm t mark) =
        .ok (if p.isTokenized t.field then some (exactPlaces t) else none) := by
      rw [← hp.exactForm_eq (.markedTerm t mark) t (mark.same .phrase)]
      rfl
    exact getD_of_form hfind happly (hp.leaves_withoutPayload _) h
  | .frequentTerm t least carried, depth + 1, o, _, h => by
    have hfind : p.find? none (.frequentTerm t least carried) = some (3, .exactFrequentTerm) := by
      rw [find?, hp.chain]
      rfl
    exact getD_of_form hfind rfl (hp.leaves_frequentSpan _ _) h
  | .multiTerm m, depth + 1, o, _, h => hp.getD_multiTerm h
  | .boost q factor, depth + 1, o, hheight, h => by
    have hdepth : q.height < depth := Nat.lt_of_succ_lt_succ hheight
    have hfind : p.find? none (.boost q factor) = some (0, .throughBoost) := by
      rw [find?, hp.chain]
      rfl
    have hpassed : ∀ q, p.find? (some 0) (.boost q factor) = none := by
      intro q
      rw [find?, hp.chain]
      rfl
    unfold traverseTo at h
    simp only [hfind] at h
    have happly : p.apply (p.traverseTo depth) .throughBoost (.boost q factor) = .ok o := by
      refine apply_of_hand (fun next hnext => ?_) h
      obtain ⟨o', -, ho'⟩ := except_map_eq_ok.1 hnext
      obtain ⟨q', -, rfl⟩ := Option.map_eq_some_iff.1 ho'
      exact hpassed q'
    obtain ⟨o', ho', rfl⟩ := except_map_eq_ok.1 happly
    rw [exactly, ← hp.getD_eq_exactly q hdepth ho']
    cases o' <;> rfl
  | .boolean clauses, depth + 1, o, hheight, h => by
    have hdepth : Query.heightClauses clauses < depth := Nat.lt_of_succ_lt_succ hheight
    have hfind : p.find? none (.boolean clauses) = none :=
      hp.leaves_of_accepts (by simp [exactChain, Rule.accepts]) none
    unfold traverseTo at h
    simp only [hfind] at h
    obtain ⟨o', ho', rfl⟩ := except_map_eq_ok.1 h
    rw [exactly, ← hp.getD_eq_exactlyClauses clauses hdepth ho']
    cases o' <;> rfl
  | .spanTerm _, _ + 1, _, _, h =>
    getD_of_leaves (hp.leaves_of_accepts (by simp [exactChain, Rule.accepts])) rfl h
  | .frequentSpanTerm _ _ _, _ + 1, _, _, h =>
    getD_of_leaves (hp.leaves_of_accepts (by simp [exactChain, Rule.accepts])) rfl h
  | .spanMultiTerm _, _ + 1, _, _, h =>
    getD_of_leaves (hp.leaves_of_accepts (by simp [exactChain, Rule.accepts])) rfl h
  | .spanOr _ _, _ + 1, _, _, h =>
    getD_of_leaves (hp.leaves_of_accepts (by simp [exactChain, Rule.accepts])) rfl h
  | .spanNear _ _ _ _, _ + 1, _, _, h =>
    getD_of_leaves (hp.leaves_of_accepts (by simp [exactChain, Rule.accepts])) rfl h
  | .withoutPayload _, _ + 1, _, _, h => getD_of_leaves (hp.leaves_withoutPayload _) rfl h
  | .frequentSpan _ _, _ + 1, _, _, h => getD_of_leaves (hp.leaves_frequentSpan _ _) rfl h
  | .deferred _ _, _ + 1, _, _, h => getD_of_leaves (hp.leaves_deferred _ _) rfl h
  | .nothing, _ + 1, _, _, h =>
    getD_of_leaves (hp.leaves_of_accepts (by simp [exactChain, Rule.accepts])) rfl h

/-- Clauses are made exact one by one. -/
theorem getD_eq_exactlyClauses (hp : p.IsExact) :
    ∀ (clauses : List (Occur × Query)) {depth : Nat} {o : Option (List (Occur × Query))},
      Query.heightClauses clauses < depth →
        changeAll (changeClause (p.traverseTo depth)) clauses = .ok o →
          o.getD clauses = p.exactlyClauses clauses
  | [], _, _, _, h => by
    cases h
    rfl
  | (occur, q) :: rest, depth, o, hheight, h => by
    rw [Query.heightClauses, Nat.max_lt] at hheight
    rw [changeAll] at h
    obtain ⟨c', hclause, h⟩ := except_bind_eq_ok.1 h
    obtain ⟨rest', hrest, h⟩ := except_bind_eq_ok.1 h
    obtain ⟨q', hq', rfl⟩ := except_map_eq_ok.1 hclause
    cases h
    rw [exactlyClauses, ← hp.getD_eq_exactly q hheight.1 hq',
      ← hp.getD_eq_exactlyClauses rest hheight.2 hrest]
    cases q' <;> cases rest' <;> rfl

end

end IsExact

/-- A traversal by an exact plan ends with what an exact plan makes of a query. -/
theorem eq_exactly_of_traversed (hp : p.IsExact) {q q' : Query} (h : p.traversed q = .ok q') :
    q' = p.exactly q := by
  obtain ⟨o, ho, rfl⟩ := except_map_eq_ok.1 h
  refine hp.getD_eq_exactly q ?_ ho
  rw [depthFor]
  omega

end Plan

end TextSearch
