import TextSearch.Proofs.Plan.Settling

/-!
# Traversals alongside each other

Two traversals of queries that are equal but for parts that no rule accepts go hand in hand if
their plans find the same rules, whatever their places in the chains are: they fail both, or they
end with queries that are again equal but for such parts. The plans that are put into queries for
later count among these parts. Main statement: `Plan.Alongside.concur_traversed`.
-/

namespace TextSearch

namespace Query

/-- Queries that are equal but for some parts, which are reached through boosts and boolean
combinations only. -/
inductive EqualBut (parts : Query → Query → Prop) : Query → Query → Prop
  /-- There is no difference. -/
  | refl (q : Query) : EqualBut parts q q
  /-- The queries themselves are such parts. -/
  | part {q q' : Query} (h : parts q q') : EqualBut parts q q'
  /-- The difference is inside of a boost. -/
  | boost {q q' : Query} (factor : Single) (h : EqualBut parts q q') :
    EqualBut parts (.boost q factor) (.boost q' factor)
  /-- The difference is inside of some clauses. -/
  | boolean {clauses clauses' : List (Occur × Query)} (hlength : clauses.length = clauses'.length)
    (hoccur : ∀ c ∈ clauses.zip clauses', c.1.1 = c.2.1)
    (h : ∀ c ∈ clauses.zip clauses', EqualBut parts c.1.2 c.2.2) :
    EqualBut parts (.boolean clauses) (.boolean clauses')

/-- A query that traversals leave to itself: no rule accepts it, and nothing inside of it is
reached. -/
def Inert (q : Query) : Prop := q.isLeaf = true ∧ ∀ r : Rule, r.accepts q = false

variable {parts : Query → Query → Prop}

theorem equalBut_boolean {clauses clauses' : List (Occur × Query)}
    (h : List.Forall₂ (fun c c' => c.1 = c'.1 ∧ EqualBut parts c.2 c'.2) clauses clauses') :
    EqualBut parts (boolean clauses) (boolean clauses') := by
  obtain ⟨hlength, hzip⟩ := List.forall₂_iff_zip.1 h
  exact .boolean hlength (fun _ hc => (hzip hc).1) fun _ hc => (hzip hc).2

theorem height_leaf {q : Query} (hq : q.isLeaf = true) : q.height = 0 := by
  cases q <;> first | rfl | cases hq

theorem EqualBut.height {q q' : Query} (h : EqualBut parts q q')
    (hparts : ∀ {q q'}, parts q q' → q.Inert ∧ q'.Inert) : q'.height = q.height := by
  induction h with
  | refl => rfl
  | part h => rw [height_leaf (hparts h).1.1, height_leaf (hparts h).2.1]
  | boost _ _ ih => exact congrArg (· + 1) ih
  | boolean hlength _ _ ih =>
    exact congrArg (· + 1) (heightClauses_congr (forall₂_of_zip hlength ih))

/-- Queries that are equal but for inert parts are accepted by the same rules. -/
theorem EqualBut.accepts {q q' : Query} (h : EqualBut parts q q')
    (hparts : ∀ {q q'}, parts q q' → q.Inert ∧ q'.Inert) (r : Rule) :
    r.accepts q' = r.accepts q := by
  cases h with
  | refl => rfl
  | part h => rw [(hparts h).1.2 r, (hparts h).2.2 r]
  | boost => cases r <;> rfl
  | boolean => cases r <;> rfl

end Query

namespace Plan

open Query

/-- Two plans that do the same, but for what they put off: they differ in their chains at most, and
they find the same rules, at places that correspond to each other. -/
structure Alongside (p p' : Plan) (parts : Query → Query → Prop) (places : Nat → Nat → Prop) :
    Prop where
  options : p'.options = p.options
  context : p'.context = p.context
  inert : ∀ {q q'}, parts q q' → q.Inert ∧ q'.Inert
  putOff : ∀ q, EqualBut parts (.deferred q p) (.deferred q p')
  finds : ∀ {passed passed'}, Option.Rel places passed passed' → ∀ q,
    Option.Rel (fun found found' => places found.1 found'.1 ∧ found.2 = found'.2)
      (p.find? passed q) (p'.find? passed' q)

variable {p p' : Plan} {parts : Query → Query → Prop} {places : Nat → Nat → Prop}

namespace Alongside

theorem finds_equalBut (h : Alongside p p' parts places) {passed passed' : Option Nat}
    (hpassed : Option.Rel places passed passed') {q q' : Query} (hq : EqualBut parts q q') :
    Option.Rel (fun found found' => places found.1 found'.1 ∧ found.2 = found'.2)
      (p.find? passed q) (p'.find? passed' q') := by
  rw [find?_congr (hq.accepts h.inert) passed']
  exact h.finds hpassed q

theorem changeNode (h : Alongside p p' parts places) (r : Rule) (q : Query) :
    Option.Rel (EqualBut parts) (p.changeNode r q) (p'.changeNode r q) := by
  have hputOff := h.putOff
  obtain ⟨chain, options, context⟩ := p
  obtain ⟨chain', options', context'⟩ := p'
  obtain ⟨rfl, rfl⟩ : options' = options ∧ context' = context := ⟨h.options, h.context⟩
  have hrefl : ∀ o : Option Query, Option.Rel (EqualBut parts) o o := by
    intro o
    cases o with
    | none => exact .none
    | some q => exact .some (.refl q)
  cases r with
  | deferRange => exact .some (hputOff q)
  | _ => exact hrefl _

/-- A rule that accepts two nodes changes them alike. -/
theorem concur_apply (h : Alongside p p' parts places)
    {inner inner' : Query → Except Fault (Option Query)}
    (hinner : ∀ {q q'}, EqualBut parts q q' →
      Concur (Option.Rel (EqualBut parts)) (inner q) (inner' q'))
    {r : Rule} {q q' : Query} (hq : EqualBut parts q q') (hr : r.accepts q = true) :
    Concur (Option.Rel (EqualBut parts)) (p.apply inner r q) (p'.apply inner' r q') := by
  have hboost : ∀ {q q'} (factor : Single), EqualBut parts q q' →
      Concur (Option.Rel (EqualBut parts)) (p.apply inner .throughBoost (.boost q factor))
        (p'.apply inner' .throughBoost (.boost q' factor)) := fun factor hq =>
    (hinner hq).map fun _ _ hrel => rel_map_map hrel fun _ _ => .boost factor
  cases hq with
  | part hpart =>
    rw [(h.inert hpart).1.2 r] at hr
    cases hr
  | boolean => cases r <;> cases hr
  | boost factor hq =>
    obtain rfl := eq_throughBoost hr
    exact hboost factor hq
  | refl =>
    cases q with
    | boost q factor =>
      obtain rfl := eq_throughBoost hr
      exact hboost factor (.refl q)
    | _ =>
      rw [apply_of_ne_boost (by simp), apply_of_ne_boost (by simp)]
      exact .ok (h.changeNode r _)

theorem concur_hand (h : Alongside p p' parts places)
    {inner inner' : Query → Except Fault (Option Query)}
    (hinner : ∀ {q q'}, EqualBut parts q q' →
      Concur (Option.Rel (EqualBut parts)) (inner q) (inner' q'))
    (given given' : Query) (passes : Nat) {i i' : Nat} (hplaces : places i i') {r : Rule}
    {q q' : Query} (hq : EqualBut parts q q') (hr : r.accepts q = true) :
    Concur (Option.Rel (EqualBut parts)) (p.hand inner given passes (i, r) q)
      (p'.hand inner' given' passes (i', r) q') := by
  induction passes generalizing i i' r q q' with
  | zero => exact .error _ _
  | succ passes ih =>
    rw [hand, hand]
    refine (h.concur_apply hinner hq hr).bind fun o o' hrel => ?_
    cases hrel with
    | none => exact .ok .none
    | @some next next' hnext =>
      have hfinds := h.finds_equalBut (.some hplaces) hnext
      simp only
      generalize hfound : p.find? (some i) next = found at hfinds
      generalize p'.find? (some i') next' = found' at hfinds
      cases hfinds with
      | none => exact .ok (.some hnext)
      | @some found found' hsame =>
        obtain ⟨j, r⟩ := found
        obtain ⟨j', r'⟩ := found'
        obtain ⟨hplaces, rfl⟩ : places j j' ∧ r = r' := hsame
        refine (ih hplaces hnext (find?_eq_some hfound).2).bind fun _ _ hlast => ?_
        exact .ok (.some (rel_getD hlast hnext))

theorem concur_traverseTo (h : Alongside p p' parts places) (depth : Nat) {q q' : Query}
    (hq : EqualBut parts q q') :
    Concur (Option.Rel (EqualBut parts)) (p.traverseTo depth q) (p'.traverseTo depth q') := by
  induction depth generalizing q q' with
  | zero => exact .ok .none
  | succ depth ih =>
    have hfinds := h.finds_equalBut .none hq
    rw [traverseTo.eq_def, traverseTo.eq_def p' (depth + 1) q']
    simp only
    generalize hfound : p.find? none q = found at hfinds
    generalize p'.find? none q' = found' at hfinds
    cases hfinds with
    | @some found found' hsame =>
      obtain ⟨i, r⟩ := found
      obtain ⟨i', r'⟩ := found'
      obtain ⟨hplaces, rfl⟩ : places i i' ∧ r = r' := hsame
      simp only [h.context]
      exact h.concur_hand ih q q' _ hplaces hq (find?_eq_some hfound).2
    | none =>
      have hboost : ∀ {q q'} (factor : Single), EqualBut parts q q' →
          Concur (Option.Rel (EqualBut parts))
            (Option.map (Query.boost · factor) <$> p.traverseTo depth q)
            (Option.map (Query.boost · factor) <$> p'.traverseTo depth q') := fun factor hq =>
        (ih hq).map fun _ _ hrel => rel_map_map hrel fun _ _ => .boost factor
      have hboolean : ∀ {clauses clauses'},
          List.Forall₂ (fun c c' => c.1 = c'.1 ∧ EqualBut parts c.2 c'.2) clauses clauses' →
          Concur (Option.Rel (EqualBut parts))
            (Option.map Query.boolean <$> changeAll (changeClause (p.traverseTo depth)) clauses)
            (Option.map Query.boolean <$>
              changeAll (changeClause (p'.traverseTo depth)) clauses') := by
        intro clauses clauses' hclauses
        refine (concur_changeAll (hclauses.imp ?_)).map fun _ _ hrel =>
          rel_map_map hrel fun _ _ => equalBut_boolean
        rintro ⟨o, q⟩ ⟨o', q'⟩ ⟨rfl, hq⟩
        exact ⟨⟨rfl, hq⟩, (ih hq).map fun _ _ hrel => rel_map_map hrel fun _ _ h => ⟨rfl, h⟩⟩
      cases hq with
      | part hpart =>
        obtain ⟨⟨hleaf, -⟩, hleaf', -⟩ := h.inert hpart
        cases q <;> first | cases hleaf; done | (cases q' <;> first | exact .ok .none | cases hleaf')
      | boost factor hq => exact hboost factor hq
      | boolean hlength hoccur hclauses =>
        exact hboolean (forall₂_of_zip hlength fun c hc => ⟨hoccur c hc, hclauses c hc⟩)
      | refl =>
        cases q with
        | boost q factor => exact hboost factor (.refl q)
        | boolean clauses => exact hboolean (List.forall₂_same.2 fun c _ => ⟨rfl, .refl c.2⟩)
        | _ => exact .ok .none

/-- Queries that are equal but for inert parts are traversed hand in hand. -/
theorem concur_traversed (h : Alongside p p' parts places) {q q' : Query}
    (hq : EqualBut parts q q') : Concur (EqualBut parts) (p.traversed q) (p'.traversed q') := by
  have hdepth : p'.depthFor q' = p.depthFor q := by
    rw [depthFor, depthFor, hq.height h.inert, h.context]
  rw [traversed, traversed, traverse, traverse, hdepth]
  exact (h.concur_traverseTo _ hq).map fun _ _ hrel => rel_getD hrel hq

end Alongside

end Plan

end TextSearch
