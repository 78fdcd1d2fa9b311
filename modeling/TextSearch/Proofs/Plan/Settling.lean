import Mathlib.Data.List.Find
import TextSearch.Proofs.Plan.Keeping
import TextSearch.Proofs.Plan.Narrowing

/-!
# Settled queries

What one rule makes of a node goes on to the next rule, but not for long: a leaf goes through two
rules at most (`Plan.traverseTo_leaf`), and no rule changes what they make of it, unless the
boosted exact form of a term is put beside the term. Then the term is still there, inside of a
combination, and the next traversal finds it. A query without such leaves is settled by a single
traversal (`Plan.exists_settled`), so that a second one leaves it as it is:
`Plan.traversal_idempotent`.
-/

namespace TextSearch

namespace Query

mutual

/-- The queries that boosts and boolean combinations are made of. -/
def leaves : Query → List Query
  | boost q _ => leaves q
  | boolean clauses => leavesOfClauses clauses
  | q => [q]

/-- The leaves of some clauses. -/
def leavesOfClauses : List (Occur × Query) → List Query
  | [] => []
  | (_, q) :: rest => leaves q ++ leavesOfClauses rest

end

theorem leavesOfClauses_eq_flatMap (clauses : List (Occur × Query)) :
    leavesOfClauses clauses = clauses.flatMap fun c => c.2.leaves := by
  induction clauses with
  | nil => rfl
  | cons c clauses ih => rw [leavesOfClauses, ih, List.flatMap_cons]

theorem leaves_leaf {q : Query} (hq : q.isLeaf = true) : q.leaves = [q] := by
  cases q with
  | boost => cases hq
  | boolean => cases hq
  | _ => rfl

theorem mem_leaves_boolean {clauses : List (Occur × Query)} {leaf : Query} :
    leaf ∈ (boolean clauses).leaves ↔ ∃ c ∈ clauses, leaf ∈ c.2.leaves := by
  rw [leaves, leavesOfClauses_eq_flatMap, List.mem_flatMap]

theorem ne_boost_of_isLeaf {q : Query} (hq : q.isLeaf = true) (q' : Query) (factor : Single) :
    q ≠ boost q' factor := by
  rintro rfl
  cases hq

end Query

namespace Plan

variable {p : Plan}

/-- What the first rule that accepts a node makes of it. -/
def changeFirst (p : Plan) (q : Query) : Option Query :=
  (p.firstRule? q).bind fun r => p.changeNode r q

/-- What two rules make of a node, if the second one accepts what the first one makes. -/
def changeTwice (p : Plan) (q : Query) : Option Query :=
  (p.changeFirst q).map fun next => (p.changeFirst next).getD next

/-- Whether the exact form of a term is put beside the term, and not in its place. -/
def addsExact (p : Plan) (t : Term) (fromPhrase : Bool) : Bool :=
  p.options.boostExactTokens.isSome && p.isTokenized t.field && !fromPhrase

/-- Whether the rules put the exact form of a marked term beside it. -/
def doublesMarked (p : Plan) (t : Term) (mark : Mark) : Bool :=
  decide (p.firstRule? (.markedTerm t mark) = some .exactTerm) &&
    p.addsExact t (mark.same .phrase)

/-- Whether the rules put the boosted exact form of a leaf beside it: of a term that comes to the
rule that makes terms exact, whether it is marked on the way or not. -/
def doubles (p : Plan) : Query → Bool
  | .term t =>
    match p.firstRule? (.term t) with
    | some .exactTerm => p.addsExact t false
    | some (.markTerm mark) => p.doublesMarked t mark
    | _ => false
  | .markedTerm t mark => p.doublesMarked t mark
  | _ => false

/-- A traversal leaves a query as it is, however deep it goes. -/
def Settled (p : Plan) (q : Query) : Prop := ∀ depth, p.traverseTo depth q = .ok none

/-! ### Passes -/

section Passes

variable {inner : Query → Except Fault (Option Query)} {given q next : Query} {passes i : Nat}
  {r : Rule}

theorem hand_declined (happly : p.apply inner r q = .ok none) :
    p.hand inner given (passes + 1) (i, r) q = .ok none := by
  rw [hand, happly]
  rfl

theorem hand_ended (happly : p.apply inner r q = .ok (some next))
    (hfind : p.find? (some i) next = none) :
    p.hand inner given (passes + 1) (i, r) q = .ok (some next) := by
  rw [hand, happly]
  simp only [bind, Except.bind, hfind]
  rfl

theorem hand_passed_on {found : Nat × Rule} (happly : p.apply inner r q = .ok (some next))
    (hfind : p.find? (some i) next = some found) :
    p.hand inner given (passes + 1) (i, r) q =
      (fun o => some (o.getD next)) <$> p.hand inner given passes found next := by
  rw [hand, happly]
  simp only [bind, Except.bind, hfind]
  cases p.hand inner given passes found next <;> rfl

end Passes

theorem find?_eq_some_getElem? {passed : Option Nat} {q : Query} {i : Nat} {r : Rule}
    (h : p.find? passed q = some (i, r)) : p.chain[i]? = some r := by
  obtain ⟨⟨r', j⟩, hfind, heq⟩ := Option.map_eq_some_iff.1 h
  cases heq
  exact List.mem_zipIdx_iff_getElem?.1 (List.mem_of_find?_eq_some hfind)

/-- Passing over a rule makes no difference to a node that this rule does not accept. -/
theorem find?_passed {i : Nat} {r : Rule} (hi : p.chain[i]? = some r) {q : Query}
    (hq : r.accepts q = false) : p.find? (some i) q = p.find? none q := by
  rw [find?, find?]
  refine congrArg _ (List.find?_congr ?_)
  rintro ⟨r', j⟩ hmem
  by_cases hij : i = j
  · subst hij
    have hj := List.mem_zipIdx_iff_getElem?.1 hmem
    rw [hi] at hj
    cases hj
    simp [hq]
  · have hpassed : (some i != some j) = true := by simpa using hij
    change (some i != some j && r'.accepts q) = _
    rw [hpassed]
    rfl

/-! ### Leaves -/

theorem accepts_exactForm (q : Query) (t : Term) (fromPhrase : Bool) (r : Rule) :
    r.accepts (p.exactForm q t fromPhrase) = false := by
  rcases p.exactForm_cases q t fromPhrase with h | ⟨factor, h⟩ <;> rw [h] <;> cases r <;> rfl

/-- A rule does not accept what it made itself. -/
theorem Change.not_accepts {r : Rule} {q q' : Query} (h : p.Change r q q')
    (hr : r.isConfigurable = true) : r.accepts q' = false := by
  cases h with
  | term => exact accepts_exactForm _ _ _ _
  | markedTerm => exact accepts_exactForm _ _ _ _
  | replace => cases hr
  | _ => rfl

/-- No rule accepts what two rules made in a row. -/
theorem Change.accepts_second {r r' : Rule} {q q' q'' : Query} (h : p.Change r q q')
    (hr : r.isConfigurable = true) (h' : p.Change r' q' q'') (s : Rule) :
    s.accepts q'' = false := by
  have hform : ∀ (q : Query) (t : Term) (fromPhrase : Bool),
      ¬ p.Change r' (p.exactForm q t fromPhrase) q'' := by
    intro q t fromPhrase
    rcases p.exactForm_cases q t fromPhrase with h | ⟨factor, h⟩ <;> rw [h] <;> exact nofun
  cases h with
  | term => exact absurd h' (hform _ _ _)
  | markedTerm => exact absurd h' (hform _ _ _)
  | mark =>
    cases h' with
    | markedTerm => exact accepts_exactForm _ _ _ _
    | markedPlaces => cases s <;> rfl
  | require =>
    cases h'
    cases s <;> rfl
  | replace => cases hr
  | _ => cases h'

theorem changeFirst_of_find? {q : Query} {found : Nat × Rule}
    (h : p.find? none q = some found) : p.changeFirst q = p.changeNode found.2 q := by
  rw [changeFirst, firstRule?, h]
  rfl

theorem changeFirst_of_find?_none {q : Query} (h : p.find? none q = none) :
    p.changeFirst q = none := by
  rw [changeFirst, firstRule?, h]
  rfl

/-- A leaf goes through two rules at most. -/
theorem traverseTo_leaf (hp : ∀ r ∈ p.chain, r.isConfigurable = true)
    (hpasses : 2 ≤ p.context.settings.maxPasses) {q : Query} (hq : q.isLeaf = true) (depth : Nat) :
    p.traverseTo (depth + 1) q = .ok (p.changeTwice q) := by
  obtain ⟨passes, hpasses⟩ := Nat.exists_eq_add_of_le' hpasses
  unfold traverseTo
  rw [changeTwice]
  cases hfind : p.find? none q with
  | none =>
    rw [changeFirst_of_find?_none hfind]
    cases q <;> first | rfl | cases hq
  | some found =>
    obtain ⟨i, r⟩ := found
    obtain ⟨hmem, haccepts⟩ := find?_eq_some hfind
    simp only [hpasses]
    rw [changeFirst_of_find? hfind]
    have happly : p.apply (p.traverseTo depth) r q = .ok (p.changeNode r q) :=
      apply_of_ne_boost (Query.ne_boost_of_isLeaf hq)
    cases hnext : p.changeNode r q with
    | none => exact hand_declined (happly.trans (congrArg _ hnext))
    | some next =>
      rw [hnext] at happly
      have hchange := change_of_changeNode haccepts hnext
      have hpassed := find?_passed (find?_eq_some_getElem? hfind) (hchange.not_accepts (hp r hmem))
      cases hfind' : p.find? none next with
      | none =>
        rw [hand_ended happly (hpassed.trans hfind'), Option.map_some,
          changeFirst_of_find?_none hfind', Option.getD_none]
      | some found' =>
        obtain ⟨j, r'⟩ := found'
        have haccepts' := (find?_eq_some hfind').2
        rw [hand_passed_on happly (hpassed.trans hfind'), Option.map_some,
          changeFirst_of_find? hfind']
        have happly' : p.apply (p.traverseTo depth) r' next = .ok (p.changeNode r' next) :=
          apply_of_ne_boost (ne_boost_of_changeNode hnext)
        cases hnext' : p.changeNode r' next with
        | none =>
          rw [hnext'] at happly'
          rw [hand_declined happly']
          rfl
        | some next' =>
          rw [hnext'] at happly'
          have hchange' := change_of_changeNode haccepts' hnext'
          rw [hand_ended happly' (find?_eq_none (hchange.accepts_second (hp r hmem) hchange') _)]
          rfl

/-! ### Exact forms -/

theorem exactForm_of_addsExact {t : Term} {fromPhrase : Bool}
    (h : p.addsExact t fromPhrase = true) (q : Query) :
    ∃ factor, p.exactForm q t fromPhrase =
      .boolean [(.should, q), (.should, .boost (exactPlaces t) factor)] := by
  simp only [addsExact, Bool.and_eq_true, Bool.not_eq_true'] at h
  obtain ⟨⟨hfactor, -⟩, hphrase⟩ := h
  obtain ⟨factor, hfactor⟩ := Option.isSome_iff_exists.1 hfactor
  refine ⟨factor, ?_⟩
  rw [exactForm, hfactor, hphrase]
  rfl

theorem exactForm_of_not_addsExact {t : Term} {fromPhrase : Bool}
    (htext : p.isTokenized t.field = true) (h : p.addsExact t fromPhrase = false) (q : Query) :
    p.exactForm q t fromPhrase = exactPlaces t := by
  rw [addsExact, htext, Bool.and_true] at h
  rw [exactForm]
  cases hfactor : p.options.boostExactTokens with
  | none => rfl
  | some factor =>
    rw [hfactor, Option.isSome_some, Bool.true_and, Bool.not_eq_false'] at h
    exact if_pos h

theorem isTokenized_of_addsExact {t : Term} {fromPhrase : Bool}
    (h : p.addsExact t fromPhrase = true) : p.isTokenized t.field = true := by
  simp only [addsExact, Bool.and_eq_true] at h
  exact h.1.2

theorem changeFirst_of_firstRule? {q : Query} {r : Rule} (h : p.firstRule? q = some r) :
    p.changeFirst q = p.changeNode r q := by
  rw [changeFirst, h]
  rfl

theorem changeFirst_of_inert {q : Query} (h : ∀ r : Rule, r.accepts q = false) :
    p.changeFirst q = none :=
  changeFirst_of_find?_none (find?_eq_none h none)

/-- A combination of a leaf with the boosted exact form of its term. -/
def IsDoubled (p : Plan) (q : Query) : Prop :=
  ∃ (leaf : Query) (t : Term) (factor : Single), p.doubles leaf = true ∧
    q = .boolean [(.should, leaf), (.should, .boost (exactPlaces t) factor)]

theorem changeFirst_markedTerm {t : Term} {mark : Mark} (h : p.doublesMarked t mark = true) :
    ∃ next, p.changeFirst (.markedTerm t mark) = some next ∧ p.IsDoubled next := by
  have hdoubles : p.doubles (.markedTerm t mark) = true := h
  rw [doublesMarked, Bool.and_eq_true, decide_eq_true_iff] at h
  obtain ⟨hfirst, hadds⟩ := h
  obtain ⟨factor, hform⟩ := exactForm_of_addsExact hadds (.markedTerm t mark)
  refine ⟨_, ?_, _, t, factor, hdoubles, hform⟩
  rw [changeFirst_of_firstRule? hfirst]
  exact if_pos (isTokenized_of_addsExact hadds)

theorem changeFirst_of_isDoubled {q : Query} (h : p.IsDoubled q) : p.changeFirst q = none := by
  obtain ⟨leaf, t, factor, -, rfl⟩ := h
  exact changeFirst_of_inert fun r => by cases r <;> rfl

/-- A leaf beside which its exact form is put is still there afterwards, or its marked form is. -/
theorem changeTwice_of_doubles {q : Query} (h : p.doubles q = true) :
    ∃ q', p.changeTwice q = some q' ∧ p.IsDoubled q' := by
  have hended : ∀ {q next}, p.changeFirst q = some next → p.IsDoubled next →
      ∃ q', p.changeTwice q = some q' ∧ p.IsDoubled q' := by
    intro q next hnext hdoubled
    refine ⟨next, ?_, hdoubled⟩
    rw [changeTwice, hnext, Option.map_some, changeFirst_of_isDoubled hdoubled]
    rfl
  cases q with
  | term t =>
    have hdoubles := h
    simp only [doubles] at h
    split at h
    next hfirst =>
      obtain ⟨factor, hform⟩ := exactForm_of_addsExact h (.term t)
      refine hended ?_ ⟨_, t, factor, hdoubles, hform⟩
      rw [changeFirst_of_firstRule? hfirst]
      exact if_pos (isTokenized_of_addsExact h)
    next mark hfirst =>
      have hmark : p.changeFirst (.term t) = some (.markedTerm t mark) := by
        rw [changeFirst_of_firstRule? hfirst]
        rw [doublesMarked, Bool.and_eq_true] at h
        exact if_pos (isTokenized_of_addsExact h.2)
      obtain ⟨next, hnext, hdoubled⟩ := changeFirst_markedTerm h
      refine ⟨next, ?_, hdoubled⟩
      rw [changeTwice, hmark, Option.map_some, hnext]
      rfl
    next => cases h
  | markedTerm t mark =>
    obtain ⟨next, hnext, hdoubled⟩ := changeFirst_markedTerm h
    exact hended hnext hdoubled
  | _ => cases h

theorem changeFirst_eq_some {q next : Query} (h : p.changeFirst q = some next) :
    ∃ r ∈ p.chain, r.accepts q = true ∧ p.firstRule? q = some r ∧
      p.changeNode r q = some next := by
  obtain ⟨r, hfirst, hnode⟩ := Option.bind_eq_some_iff.1 h
  obtain ⟨found, hfind, rfl⟩ := Option.map_eq_some_iff.1 hfirst
  obtain ⟨hmem, haccepts⟩ := find?_eq_some hfind
  exact ⟨_, hmem, haccepts, hfirst, hnode⟩

/-- Where no exact form is put beside it, a leaf is changed into a leaf. -/
theorem isLeaf_of_changeFirst (hp : ∀ r ∈ p.chain, r.isConfigurable = true) {q next : Query}
    (hnot : p.doubles q = false) (h : p.changeFirst q = some next) :
    next.isLeaf = true ∧ p.doubles next = false := by
  obtain ⟨r, hmem, haccepts, hfirst, hnode⟩ := changeFirst_eq_some h
  cases change_of_changeNode haccepts hnode with
  | term t =>
    rw [doubles, hfirst] at hnot
    have htext := (Option.ite_none_right_eq_some.1 hnode).1
    rw [exactForm_of_not_addsExact htext hnot]
    exact ⟨rfl, rfl⟩
  | markedTerm t mark =>
    rw [doubles, doublesMarked, hfirst, decide_eq_true rfl, Bool.true_and] at hnot
    have htext := (Option.ite_none_right_eq_some.1 hnode).1
    rw [exactForm_of_not_addsExact htext hnot]
    exact ⟨rfl, rfl⟩
  | mark t mark =>
    rw [doubles, hfirst] at hnot
    exact ⟨rfl, hnot⟩
  | replace => cases hp _ hmem
  | _ => exact ⟨rfl, rfl⟩

/-- Where no exact form is put beside it, the rules make of a leaf another one, which they leave
as it is. -/
theorem changeFirst_changeTwice (hp : ∀ r ∈ p.chain, r.isConfigurable = true) {q : Query}
    (hq : q.isLeaf = true) (hnot : p.doubles q = false) :
    ((p.changeTwice q).getD q).isLeaf = true ∧ p.changeFirst ((p.changeTwice q).getD q) = none := by
  rw [changeTwice]
  cases hnext : p.changeFirst q with
  | none => exact ⟨hq, hnext⟩
  | some next =>
    obtain ⟨hleaf, hnot'⟩ := isLeaf_of_changeFirst hp hnot hnext
    rw [Option.map_some, Option.getD_some]
    cases hnext' : p.changeFirst next with
    | none => exact ⟨hleaf, hnext'⟩
    | some next' =>
      obtain ⟨r, hmem, haccepts, -, hnode⟩ := changeFirst_eq_some hnext
      obtain ⟨r', -, haccepts', -, hnode'⟩ := changeFirst_eq_some hnext'
      have hinert := (change_of_changeNode haccepts hnode).accepts_second (hp r hmem)
        (change_of_changeNode haccepts' hnode')
      exact ⟨(isLeaf_of_changeFirst hp hnot' hnext').1, changeFirst_of_inert hinert⟩

/-! ### Settled queries -/

theorem find?_boolean (clauses : List (Occur × Query)) (passed : Option Nat) :
    p.find? passed (.boolean clauses) = none :=
  find?_eq_none (fun r => by cases r <;> rfl) passed

/-- No rule is for combinations, so that all clauses are traversed. -/
theorem traverseTo_boolean (depth : Nat) (clauses : List (Occur × Query)) :
    p.traverseTo (depth + 1) (.boolean clauses) =
      Option.map Query.boolean <$> changeAll (changeClause (p.traverseTo depth)) clauses := by
  rw [traverseTo.eq_def]
  simp only [find?_boolean]

theorem exists_traverseTo_boolean {depth : Nat} {clauses : List (Occur × Query)}
    (h : ∀ c ∈ clauses, ∃ o, p.traverseTo depth c.2 = .ok o) :
    ∃ o, changeAll (changeClause (p.traverseTo depth)) clauses = .ok o ∧
      p.traverseTo (depth + 1) (.boolean clauses) = .ok (o.map Query.boolean) := by
  obtain ⟨o, hall⟩ := exists_changeAll_clauses h
  refine ⟨o, hall, ?_⟩
  rw [traverseTo_boolean, hall]
  rfl

theorem apply_boost {inner : Query → Except Fault (Option Query)} {q : Query} {o : Option Query}
    (ho : inner q = .ok o) (factor : Single) :
    p.apply inner .throughBoost (.boost q factor) = .ok (o.map (Query.boost · factor)) := by
  rw [apply, ho]
  rfl

theorem settled_boolean {clauses : List (Occur × Query)} (h : ∀ c ∈ clauses, p.Settled c.2) :
    p.Settled (.boolean clauses) := by
  intro depth
  cases depth with
  | zero => rfl
  | succ depth =>
    rw [traverseTo_boolean, changeAll_of_none fun c hc => changeClause_eq_none.2 (h c hc depth)]
    rfl

section Settled

variable (hpasses : 2 ≤ p.context.settings.maxPasses)
include hpasses

theorem settled_leaf (hp : ∀ r ∈ p.chain, r.isConfigurable = true) {q : Query}
    (hq : q.isLeaf = true) (h : p.changeFirst q = none) : p.Settled q := by
  intro depth
  cases depth with
  | zero => rfl
  | succ depth =>
    rw [traverseTo_leaf hp hpasses hq, changeTwice, h]
    rfl

/-- A traversal of a boost ends with what the traversal of its inside does, if no other rule is
left for what a rule for boosts made, or if this other rule finds nothing to be changed inside. -/
theorem traverseTo_boost {q : Query} {factor : Single} {depth : Nat} {o : Option Query}
    (ho : p.traverseTo depth q = .ok o)
    (hagain : ∀ next i, o = some next → p.chain[i]? = some .throughBoost →
      p.find? (some i) (.boost next factor) = none ∨ p.traverseTo depth next = .ok none) :
    p.traverseTo (depth + 1) (.boost q factor) = .ok (o.map (Query.boost · factor)) := by
  obtain ⟨passes, hpasses⟩ := Nat.exists_eq_add_of_le' hpasses
  rw [traverseTo.eq_def]
  rcases p.find?_boost none q factor with hfind | ⟨i, hfind⟩
  · simp only [hfind, ho]
    rfl
  · simp only [hfind, hpasses]
    cases o with
    | none => exact hand_declined (apply_boost ho factor)
    | some next =>
      have hended := hagain next i rfl (find?_eq_some_getElem? hfind)
      rcases p.find?_boost (some i) next factor with hfind' | ⟨j, hfind'⟩
      · exact hand_ended (apply_boost ho factor) hfind'
      · have hquiet := hended.resolve_left (by simp [hfind'])
        rw [hand_passed_on (apply_boost ho factor) hfind',
          hand_declined (apply_boost hquiet factor)]
        rfl

theorem settled_boost {q : Query} (h : p.Settled q) (factor : Single) :
    p.Settled (.boost q factor) := by
  intro depth
  cases depth with
  | zero => rfl
  | succ depth =>
    have hagain : ∀ next i, none = some next → p.chain[i]? = some .throughBoost →
        p.find? (some i) (.boost next factor) = none ∨ p.traverseTo depth next = .ok none := by
      intro next i hnone
      cases hnone
    exact traverseTo_boost hpasses (h depth) hagain

theorem traverseTo_boost_of_settled {q : Query} {depth : Nat} {o : Option Query}
    (ho : p.traverseTo depth q = .ok o) (hsettled : p.Settled (o.getD q)) (factor : Single) :
    p.traverseTo (depth + 1) (.boost q factor) = .ok (o.map (Query.boost · factor)) := by
  refine traverseTo_boost hpasses ho fun next i hnext _ => ?_
  subst hnext
  exact .inr (hsettled depth)

/-- A traversal that goes deep enough settles a query, unless the exact form of some term is put
beside the term. -/
theorem exists_settled (hp : ∀ r ∈ p.chain, r.isConfigurable = true) {q : Query}
    (hnot : ∀ leaf ∈ q.leaves, p.doubles leaf = false) {depth : Nat} (hdepth : q.height < depth) :
    ∃ o, p.traverseTo depth q = .ok o ∧ p.Settled (o.getD q) := by
  obtain ⟨depth, rfl⟩ := Nat.exists_eq_add_of_le' (Nat.one_le_of_lt hdepth)
  induction q using Query.combination generalizing depth with
  | hleaf q hq =>
    have hquiet := hnot q (by simp [Query.leaves_leaf hq])
    obtain ⟨hleaf, hrests⟩ := changeFirst_changeTwice hp hq hquiet
    exact ⟨_, traverseTo_leaf hp hpasses hq depth, settled_leaf hpasses hp hleaf hrests⟩
  | hboost q factor ih =>
    rw [Query.height, Nat.add_lt_add_iff_right] at hdepth
    obtain ⟨depth, rfl⟩ := Nat.exists_eq_add_of_le' (Nat.one_le_of_lt hdepth)
    obtain ⟨o, ho, hsettled⟩ := ih hnot depth hdepth
    refine ⟨_, traverseTo_boost_of_settled hpasses ho hsettled factor, ?_⟩
    cases o <;> exact settled_boost hpasses hsettled factor
  | hboolean clauses ih =>
    rw [Query.height, Nat.add_lt_add_iff_right] at hdepth
    obtain ⟨depth, rfl⟩ := Nat.exists_eq_add_of_le' (Nat.one_le_of_lt hdepth)
    have hclauses : ∀ c ∈ clauses, ∃ o, p.traverseTo (depth + 1) c.2 = .ok o ∧
        p.Settled (o.getD c.2) := by
      intro c hc
      have hle := Query.height_le_heightClauses hc
      exact ih c hc (fun leaf hleaf => hnot leaf (Query.mem_leaves_boolean.2 ⟨c, hc, hleaf⟩))
        depth (by omega)
    obtain ⟨o, hall, ho⟩ := exists_traverseTo_boolean fun c hc =>
      (hclauses c hc).imp fun _ h => h.1
    have hsettled : ∀ c ∈ o.getD clauses, p.Settled c.2 := by
      intro c' hc'
      obtain ⟨c, hc, o', ho', hc'⟩ := exists_clause_of_changeAll hall hc'
      obtain ⟨o'', ho'', hsettled⟩ := hclauses c hc
      cases ho'.symm.trans ho''
      rwa [hc']
    refine ⟨_, ho, ?_⟩
    cases o <;> exact settled_boolean hsettled

end Settled

theorem doubles_eq_false (h : p.options.boostExactTokens = none) (q : Query) :
    p.doubles q = false := by
  have hadds : ∀ t fromPhrase, p.addsExact t fromPhrase = false := by
    intro t fromPhrase
    rw [addsExact, h]
    rfl
  have hmarked : ∀ t mark, p.doublesMarked t mark = false := by
    intro t mark
    rw [doublesMarked, hadds, Bool.and_false]
  cases q with
  | term t =>
    rw [doubles]
    split
    next => exact hadds t false
    next mark _ => exact hmarked t mark
    next => rfl
  | markedTerm t mark => exact hmarked t mark
  | _ => rfl

theorem height_lt_depthFor (p : Plan) (q : Query) : q.height < p.depthFor q := by
  rw [depthFor]
  omega

/-- Where no boosted exact forms are asked for, a traversal comes to an end, and a second one
leaves its outcome as it is. -/
theorem traversal_idempotent (hp : ∀ r ∈ p.chain, r.isConfigurable = true)
    (hpasses : 2 ≤ p.context.settings.maxPasses) (hoptions : p.options.boostExactTokens = none)
    (q : Query) : ∃ r, p.traversed q = .ok r ∧ p.traverse r = .ok none := by
  have hnot : ∀ leaf ∈ q.leaves, p.doubles leaf = false :=
    fun leaf _ => doubles_eq_false hoptions leaf
  obtain ⟨o, ho, hsettled⟩ := exists_settled hpasses hp hnot (height_lt_depthFor p q)
  refine ⟨o.getD q, ?_, hsettled _⟩
  rw [traversed, traverse, ho]
  rfl

/-- A term is marked and made exact inside of a boost, which the chain has two rules for. -/
theorem traversal_idempotent_boost :
    let mark : Mark := ⟨1, "synonym"⟩
    let p : Plan := ⟨[.throughBoost, .markTerm mark, .exactMarkedTerm mark, .throughBoost], default,
      Mapping.empty.withField "body" .text, default⟩
    let q : Query := .boost (.boolean [(.must, .term ⟨"body", "fox"⟩),
      (.mustNot, .term ⟨"tag", "fox"⟩)]) ⟨0x40400000⟩
    (∀ r ∈ p.chain, r.isConfigurable = true) ∧ 2 ≤ p.context.settings.maxPasses ∧
      p.options.boostExactTokens = none ∧ ∃ r, p.traversed q = .ok r ∧ p.traverse r = .ok none := by
  intro mark p q
  have hp : ∀ r ∈ p.chain, r.isConfigurable = true := by decide
  have hpasses : 2 ≤ p.context.settings.maxPasses := by decide
  exact ⟨hp, hpasses, rfl, traversal_idempotent hp hpasses rfl q⟩

end Plan

end TextSearch
