import Mathlib.Data.List.Forall2
import Mathlib.Logic.Relation
import TextSearch.Plan.Traversal
import TextSearch.Proofs.Query.Nodes

/-!
# Rewriting

A traversal is a run of small steps, each of which changes one node of a query by
one rule of the chain. `Plan.Step` is one such step, in any place that a traversal
can reach, and `Plan.rewrites_of_traverse` says that traversing is rewriting in
any number of steps.
-/

namespace TextSearch

/-- Whether a rule is one of those that chains can be configured with. -/
def Rule.isConfigurable : Rule → Bool
  | .replaceText _ _ => false
  | _ => true

namespace Plan

/-- What a rule makes of a node that it accepts, and when. -/
inductive Change (p : Plan) : Rule → Query → Query → Prop
  /-- A term is made exact. -/
  | term (t : Term) : Change p .exactTerm (.term t) (p.exactForm (.term t) t false)
  /-- A marked term is made exact. -/
  | markedTerm (t : Term) (mark : Mark) : Change p .exactTerm (.markedTerm t mark)
    (p.exactForm (.markedTerm t mark) t (mark.same .phrase))
  /-- A term with a certain mark is made exact. -/
  | markedPlaces (t : Term) (mark mark' : Mark) :
    Change p (.exactMarkedTerm mark) (.markedTerm t mark') (exactPlaces t)
  /-- A term is marked. -/
  | mark (t : Term) (mark : Mark) : Change p (.markTerm mark) (.term t) (.markedTerm t mark)
  /-- A selection is made exact. -/
  | multiTerm (m : MultiTerm) (hleast : m.least = none) :
    Change p .exactMultiTerm (.multiTerm m) (exactMultiPlaces m)
  /-- A selection with a minimum frequency is made exact. -/
  | frequentMultiTerm (m : MultiTerm) {least : Threshold} (hleast : m.least = some least)
    (htext : p.isTokenized m.field = true) : Change p .exactFrequentMultiTerm (.multiTerm m)
    (.frequentSpan (exactMultiPlaces m.withoutMinimum) least)
  /-- A term with a minimum frequency is made exact. -/
  | frequentTerm (t : Term) (least : Threshold) (carried : Option TermLookup) :
    Change p .exactFrequentTerm (.frequentTerm t least carried)
      (.frequentSpan (exactPlaces t) least)
  /-- A minimum frequency of exact occurrences is asked of a term. -/
  | requirePlaces (t : Term) (least : Threshold) :
    Change p (.requireFrequency least) (.term t) (.frequentSpan (exactPlaces t) least)
  /-- A minimum frequency is asked of a term. -/
  | require (t : Term) (least : Threshold) :
    Change p (.requireFrequency least) (.term t) (.frequentTerm t least none)
  /-- A range is put off. -/
  | defer (m : MultiTerm) : Change p .deferRange (.multiTerm m) (.deferred (.multiTerm m) p)
  /-- The text of a term is replaced. -/
  | replace (t : Term) (source target : String) :
    Change p (.replaceText source target) (.term t) (.term { t with text := target })

/-- The rule that a plan tries first on a node. -/
def firstRule? (p : Plan) (q : Query) : Option Rule := (p.find? none q).map (·.2)

/-- One rule of the chain changes one node of a query. -/
inductive Step (p : Plan) : Query → Query → Prop
  /-- The node is the query itself. Selections are changed by the first rule only, as no rule
  makes any. -/
  | node {r : Rule} {q q' : Query} (hmem : r ∈ p.chain) (hchange : p.Change r q q')
    (hfirst : ∀ m, q = .multiTerm m → p.firstRule? q = some r) : Step p q q'
  /-- The node is inside of a boost. -/
  | boost {q q' : Query} (factor : Single) (h : Step p q q') :
    Step p (.boost q factor) (.boost q' factor)
  /-- The node is inside of a clause of a boolean combination. -/
  | clause {q q' : Query} (before : List (Occur × Query)) (o : Occur)
    (after : List (Occur × Query)) (h : Step p q q') :
    Step p (.boolean (before ++ (o, q) :: after)) (.boolean (before ++ (o, q') :: after))

/-- Any number of steps. -/
abbrev Rewrites (p : Plan) : Query → Query → Prop := Relation.ReflTransGen p.Step

variable {p : Plan}

/-- An exact form is the places of the term, or it has them beside the query. -/
theorem exactForm_cases (p : Plan) (q : Query) (t : Term) (fromPhrase : Bool) :
    p.exactForm q t fromPhrase = exactPlaces t ∨ ∃ factor, p.exactForm q t fromPhrase =
      .boolean [(.should, q), (.should, .boost (exactPlaces t) factor)] := by
  rw [exactForm]
  cases p.options.boostExactTokens with
  | none => exact .inl rfl
  | some factor =>
    cases fromPhrase with
    | true => exact .inl rfl
    | false => exact .inr ⟨factor, rfl⟩

/-- What a rule makes of a node is one of these changes. -/
theorem change_of_changeNode {r : Rule} {q q' : Query} (haccepts : r.accepts q = true)
    (h : p.changeNode r q = some q') : p.Change r q q' := by
  cases r with
  | throughBoost => cases h
  | exactTerm =>
    cases q with
    | term t =>
      simp only [changeNode, Option.ite_none_right_eq_some, Option.some.injEq] at h
      exact h.2 ▸ .term t
    | markedTerm t mark =>
      simp only [changeNode, Option.ite_none_right_eq_some, Option.some.injEq] at h
      exact h.2 ▸ .markedTerm t mark
    | _ => cases h
  | markTerm mark =>
    cases q with
    | term t =>
      simp only [changeNode, Option.ite_none_right_eq_some, Option.some.injEq] at h
      exact h.2 ▸ .mark t mark
    | _ => cases h
  | exactMarkedTerm mark =>
    cases q with
    | markedTerm t mark' =>
      simp only [changeNode, Option.ite_none_right_eq_some, Option.some.injEq] at h
      exact h.2 ▸ .markedPlaces t mark mark'
    | _ => cases h
  | exactMultiTerm =>
    cases q with
    | multiTerm m =>
      simp only [changeNode, Option.ite_none_right_eq_some, Option.some.injEq] at h
      have hleast := (Bool.and_eq_true_iff.1 haccepts).2
      exact h.2 ▸ .multiTerm m (Option.isNone_iff_eq_none.1 hleast)
    | _ => cases h
  | exactFrequentMultiTerm =>
    cases q with
    | multiTerm m =>
      cases hleast : m.least with
      | none => simp only [changeNode, hleast, reduceCtorEq] at h
      | some least =>
        simp only [changeNode, hleast, Option.ite_none_right_eq_some, Option.some.injEq] at h
        exact h.2 ▸ .frequentMultiTerm m hleast h.1
    | _ => cases h
  | exactFrequentTerm =>
    cases q with
    | frequentTerm t least carried =>
      simp only [changeNode, Option.ite_none_right_eq_some, Option.some.injEq] at h
      exact h.2 ▸ .frequentTerm t least carried
    | _ => cases h
  | requireFrequency least =>
    cases q with
    | term t =>
      simp only [changeNode, Option.some.injEq] at h
      cases htext : p.isTokenized t.field with
      | true => exact h ▸ if_pos htext ▸ .requirePlaces t least
      | false => exact h ▸ if_neg (Bool.eq_false_iff.1 htext) ▸ .require t least
    | _ => cases h
  | deferRange =>
    cases q with
    | multiTerm m =>
      cases h
      exact .defer m
    | _ => cases haccepts
  | replaceText source target =>
    cases q with
    | term t =>
      cases h
      exact .replace t source target
    | _ => cases h

/-- No rule makes a selection. -/
theorem Change.ne_multiTerm {r : Rule} {q q' : Query} (h : p.Change r q q') (m : MultiTerm) :
    q' ≠ .multiTerm m := by
  have hform : ∀ q t fromPhrase, p.exactForm q t fromPhrase ≠ .multiTerm m := by
    intro q t fromPhrase
    rcases p.exactForm_cases q t fromPhrase with h | ⟨factor, h⟩ <;> rw [h] <;> exact nofun
  cases h with
  | term => exact hform _ _ _
  | markedTerm => exact hform _ _ _
  | _ => exact fun hnot => by cases hnot

theorem Rewrites.boost {q q' : Query} (h : p.Rewrites q q') (factor : Single) :
    p.Rewrites (.boost q factor) (.boost q' factor) := by
  induction h with
  | refl => exact .refl
  | tail _ hstep ih => exact ih.tail (.boost factor hstep)

theorem Rewrites.clause {q q' : Query} (h : p.Rewrites q q') (before : List (Occur × Query))
    (o : Occur) (after : List (Occur × Query)) :
    p.Rewrites (.boolean (before ++ (o, q) :: after))
      (.boolean (before ++ (o, q') :: after)) := by
  induction h with
  | refl => exact .refl
  | tail _ hstep ih => exact ih.tail (.clause before o after hstep)

/-- Clauses may be rewritten one after the other. -/
theorem rewrites_boolean {clauses clauses' : List (Occur × Query)}
    (h : List.Forall₂ (fun c c' => c.1 = c'.1 ∧ p.Rewrites c.2 c'.2) clauses clauses') :
    p.Rewrites (.boolean clauses) (.boolean clauses') := by
  have hafter : ∀ before : List (Occur × Query),
      p.Rewrites (.boolean (before ++ clauses)) (.boolean (before ++ clauses')) := by
    induction h with
    | nil => exact fun _ => .refl
    | @cons c c' clauses clauses' hc _ ih =>
      intro before
      obtain ⟨o, q⟩ := c
      obtain ⟨o', q'⟩ := c'
      obtain ⟨rfl, hq⟩ := hc
      have hrest := ih (before ++ [(o, q')])
      rw [List.append_assoc, List.append_assoc] at hrest
      exact (hq.clause before o clauses).trans hrest
  exact hafter []

theorem find?_eq_none_of_chain {q : Query} (h : ∀ r ∈ p.chain, r.accepts q = false)
    (passed : Option Nat) : p.find? passed q = none := by
  rw [find?, Option.map_eq_none_iff, List.find?_eq_none]
  rintro ⟨r, i⟩ hr
  simp [h r (List.mem_of_getElem? (List.mem_zipIdx_iff_getElem?.1 hr))]

theorem find?_eq_some {passed : Option Nat} {q : Query} {found : Nat × Rule}
    (h : p.find? passed q = some found) :
    found.2 ∈ p.chain ∧ found.2.accepts q = true := by
  obtain ⟨⟨r, i⟩, hfind, rfl⟩ := Option.map_eq_some_iff.1 h
  have hmem := List.mem_of_find?_eq_some hfind
  have haccepts := List.find?_some hfind
  rw [Bool.and_eq_true] at haccepts
  exact ⟨List.mem_of_getElem? (List.mem_zipIdx_iff_getElem?.1 hmem), haccepts.2⟩

/-- A function that rewrites what it changes. -/
def Rewriting (p : Plan) (inner : Query → Except Fault (Option Query)) : Prop :=
  ∀ q o, inner q = .ok o → p.Rewrites q (o.getD q)

/-- What a rule makes of a node that it accepts is no selection. -/
theorem ne_multiTerm_of_apply {inner : Query → Except Fault (Option Query)} {r : Rule}
    {q next : Query} (haccepts : r.accepts q = true) (h : p.apply inner r q = .ok (some next))
    (m : MultiTerm) : next ≠ .multiTerm m := by
  have hnode : Except.ok (p.changeNode r q) = (.ok (some next) : Except Fault (Option Query)) →
      next ≠ .multiTerm m :=
    fun h => (change_of_changeNode haccepts (Except.ok.inj h)).ne_multiTerm m
  cases r with
  | throughBoost =>
    cases q with
    | boost q factor =>
      obtain ⟨o', -, hnext⟩ := except_map_eq_ok.1 h
      obtain ⟨q', -, rfl⟩ := Option.map_eq_some_iff.1 hnext
      exact fun hnot => by cases hnot
    | _ => cases h
  | _ => exact hnode h

theorem rewrites_of_apply {inner : Query → Except Fault (Option Query)} (hinner : p.Rewriting inner)
    {r : Rule} (hmem : r ∈ p.chain) {q : Query} (haccepts : r.accepts q = true)
    (hfirst : ∀ m, q = .multiTerm m → p.firstRule? q = some r) {o : Option Query}
    (h : p.apply inner r q = .ok o) : p.Rewrites q (o.getD q) := by
  have hnode : ∀ {o}, Except.ok (p.changeNode r q) = (.ok o : Except Fault (Option Query)) →
      p.Rewrites q (o.getD q) := by
    intro o h
    cases h
    cases hchange : p.changeNode r q with
    | none => exact .refl
    | some q' => exact .single (.node hmem (change_of_changeNode haccepts hchange) hfirst)
  cases r with
  | throughBoost =>
    cases q with
    | boost q factor =>
      obtain ⟨o', ho', rfl⟩ := except_map_eq_ok.1 h
      cases o' with
      | none => exact .refl
      | some q' => exact (hinner q _ ho').boost factor
    | _ => cases h; exact .refl
  | _ => exact hnode h

/-- Handing a node from rule to rule is rewriting. -/
theorem rewrites_of_hand {inner : Query → Except Fault (Option Query)}
    (hinner : p.Rewriting inner) (given : Query) :
    ∀ (passes : Nat) {found : Nat × Rule} {q : Query} {o : Option Query},
      found.2 ∈ p.chain → found.2.accepts q = true →
        (∀ m, q = .multiTerm m → p.firstRule? q = some found.2) →
          p.hand inner given passes found q = .ok o → p.Rewrites q (o.getD q)
  | 0, _, _, _, _, _, _, h => by cases h
  | passes + 1, (i, r), q, o, hmem, haccepts, hfirst, h => by
    rw [hand] at h
    obtain ⟨o₁, happly, h⟩ := except_bind_eq_ok.1 h
    have hone := rewrites_of_apply hinner hmem haccepts hfirst happly
    cases o₁ with
    | none =>
      cases h
      exact .refl
    | some next =>
      cases hfind : p.find? (some i) next with
      | none =>
        simp only [hfind] at h
        cases h
        exact hone
      | some found =>
        simp only [hfind] at h
        obtain ⟨o₂, hhand, h⟩ := except_bind_eq_ok.1 h
        cases h
        obtain ⟨hmem', haccepts'⟩ := find?_eq_some hfind
        have hnot := ne_multiTerm_of_apply haccepts happly
        exact hone.trans (rewrites_of_hand hinner given passes hmem' haccepts'
          (fun m hm => absurd hm (hnot m)) hhand)

/-- Changing every clause by rewriting is rewriting. -/
theorem rewrites_of_changeAll {inner : Query → Except Fault (Option Query)}
    (hinner : p.Rewriting inner) {clauses : List (Occur × Query)}
    {o : Option (List (Occur × Query))} (h : changeAll (changeClause inner) clauses = .ok o) :
    List.Forall₂ (fun c c' => c.1 = c'.1 ∧ p.Rewrites c.2 c'.2) clauses (o.getD clauses) := by
  refine (forall₂_of_changeAll h).imp fun c c' hc => ?_
  obtain ⟨hoccur, o', ho', hquery⟩ := hc.clause
  rw [hquery]
  exact ⟨hoccur.symm, hinner _ _ ho'⟩

/-- Traversing down to any depth is rewriting. -/
theorem rewriting_traverseTo (p : Plan) : ∀ depth, p.Rewriting (p.traverseTo depth)
  | 0, q, o, h => by
    cases h
    exact .refl
  | depth + 1, q, o, h => by
    have hinner := rewriting_traverseTo p depth
    unfold traverseTo at h
    cases hfind : p.find? none q with
    | some found =>
      rw [hfind] at h
      obtain ⟨hmem, haccepts⟩ := find?_eq_some hfind
      have hfirst : ∀ m, q = .multiTerm m → p.firstRule? q = some found.2 :=
        fun _ _ => congrArg (Option.map Prod.snd) hfind
      exact rewrites_of_hand hinner q _ hmem haccepts hfirst h
    | none =>
      simp only [hfind] at h
      cases q with
      | boost q factor =>
        obtain ⟨o', ho', rfl⟩ := except_map_eq_ok.1 h
        cases o' with
        | none => exact .refl
        | some q' => exact (hinner q _ ho').boost factor
      | boolean clauses =>
        obtain ⟨o', ho', rfl⟩ := except_map_eq_ok.1 h
        have hclauses := rewrites_boolean (rewrites_of_changeAll hinner ho')
        cases o' with
        | none => exact .refl
        | some clauses' => exact hclauses
      | _ => cases h; exact .refl

/-- What a traversal ends with is a rewriting of what it was given. -/
theorem rewrites_of_traversed {q q' : Query} (h : p.traversed q = .ok q') : p.Rewrites q q' := by
  obtain ⟨o, ho, rfl⟩ := except_map_eq_ok.1 h
  exact rewriting_traverseTo p _ q o ho

end Plan

end TextSearch
