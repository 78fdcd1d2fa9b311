import TextSearch.Proofs.Plan.RuleOrder
import TextSearch.Proofs.Search.GroundSteps

/-!
# Deferrals without rules

A deferral whose plan has no rules, or none but the one that puts ranges off, may be
wrapped around any node of a query. `Query.Wrapped` says where it is, and `Query.Guard`
how careful that has to be: where a plan with rules is going to look at the node, a step
of grounding must not leave any wrapper behind. `Query.Guard.Agree` says what steps on a
query and on the wrapped one then have to agree on, and `Plan.tandem_traversed` that this
is enough for plans to do the same.
-/

namespace TextSearch

/-! ### Plans without rules -/

namespace Plan

open Query

/-- Whether a plan has other rules than the one that puts ranges off. -/
def hasRules (p : Plan) : Bool := p.chain.any fun r => r != .deferRange

variable {p : Plan} {q : Query}

theorem eq_deferRange (hp : p.hasRules = false) {r : Rule} (hr : r ∈ p.chain) :
    r = .deferRange := by
  by_contra hne
  exact Bool.eq_false_iff.1 hp (List.any_eq_true.2 ⟨r, hr, bne_iff_ne.2 hne⟩)

theorem find?_of_not_hasRules (hp : p.hasRules = false) (hq : q.hasNode isSelection = false)
    (passed : Option Nat) : p.find? passed q = none := by
  refine find?_eq_none_of_chain (fun r hr => ?_) passed
  rw [eq_deferRange hp hr]
  cases q <;> first | rfl | cases hq

/-- Where there are no rules and nothing is selected a traversal changes nothing. -/
theorem traverseTo_of_not_hasRules (hp : p.hasRules = false) (hq : q.hasNode isSelection = false)
    (depth : Nat) : p.traverseTo depth q = .ok none := by
  induction depth generalizing q with
  | zero => rfl
  | succ depth ih =>
    rw [traverseTo.eq_def]
    simp only [find?_of_not_hasRules hp hq]
    cases q with
    | boost q factor =>
      have hinner : p.traverseTo depth q = .ok none := ih hq
      simp only [hinner]
      rfl
    | boolean clauses =>
      have hclauses : changeAll (changeClause (p.traverseTo depth)) clauses = .ok none := by
        refine changeAll_of_none fun c hc => changeClause_eq_none.2 ?_
        exact ih ((hasNode_boolean rfl).1 hq c hc)
      simp only [hclauses]
      rfl
    | _ => rfl

theorem traversed_of_not_hasRules (hp : p.hasRules = false) (hq : q.hasNode isSelection = false) :
    p.traversed q = .ok q := by
  rw [traversed, traverse, traverseTo_of_not_hasRules hp hq]
  rfl

/-- Whether the plan of a deferred query is going to look at what is inside: it has rules, and
something is selected, and not for places. -/
def looksInto (p : Plan) (q : Query) : Bool :=
  p.hasRules && q.hasNode isSelection && !q.isSpan

end Plan

namespace Query

/-! ### Wrappers -/

/-- How wrappers may be put into a query. -/
inductive Guard where
  /-- In any way. -/
  | off
  /-- In any way, until some plan is going to look at the node. -/
  | idle
  /-- A plan is going to look at the node, and no wrapper may be left by then. -/
  | on
  deriving DecidableEq

/-- The guard inside of a deferral. -/
def Guard.within : Guard → Bool → Guard
  | idle, true => on
  | g, _ => g

/-- The guard inside of a query for places, which plans do not look into. -/
def Guard.inPlaces : Guard → Guard
  | off => off
  | _ => idle

theorem Guard.within_false (g : Guard) : g.within false = g := by
  cases g <;> rfl

theorem Guard.within_true {g : Guard} (hg : g ≠ .off) : g.within true = .on := by
  cases g with
  | off => exact absurd rfl hg
  | _ => rfl

theorem Guard.within_ne_off {g : Guard} (hg : g ≠ .off) {looks : Bool} : g.within looks ≠ .off := by
  cases looks with
  | false => rwa [within_false]
  | true =>
    rw [within_true hg]
    exact Guard.noConfusion

theorem Guard.inPlaces_ne_off {g : Guard} (hg : g ≠ .off) : g.inPlaces ≠ .off := by
  cases g with
  | off => exact absurd rfl hg
  | _ => exact Guard.noConfusion

/-- Whether a node is a deferred query that does not stand for places. -/
def isOpenDeferral : Query → Bool
  | deferred q _ => !q.isSpan
  | _ => false

/-- Whether a node is deferred with a plan that has rules. -/
def defersToRules : Query → Bool
  | deferred _ plan => plan.hasRules
  | _ => false

/-- A query and the query that it becomes when some of its nodes are wrapped into deferrals without
rules. Where a plan is going to look, a step must not leave any wrapper: what is wrapped selects
something, or there is no other deferral inside of the wrapper, nor around it. -/
inductive Wrapped : Guard → Query → Query → Prop
  /-- Nothing is wrapped. -/
  | refl (g : Guard) (q : Query) : Wrapped g q q
  /-- The query itself is wrapped, and nodes inside of it may be as well. -/
  | here {g : Guard} {q q' : Query} (plan : Plan) (hrules : plan.hasRules = false)
    (h : Wrapped g q q')
    (hguard : g = .on → q.hasNode isSelection = true ∨ q'.hasNode isOpenDeferral = false) :
    Wrapped g q (.deferred q' plan)
  /-- The wrapped nodes are inside of a boost. -/
  | boost {g : Guard} {q q' : Query} (factor : Single) (h : Wrapped g q q') :
    Wrapped g (.boost q factor) (.boost q' factor)
  /-- The wrapped nodes are inside of some clauses. -/
  | boolean {g : Guard} {clauses clauses' : List (Occur × Query)}
    (hlength : clauses.length = clauses'.length)
    (hoccur : ∀ c ∈ clauses.zip clauses', c.1.1 = c.2.1)
    (h : ∀ c ∈ clauses.zip clauses', Wrapped g c.1.2 c.2.2) :
    Wrapped g (.boolean clauses) (.boolean clauses')
  /-- The wrapped nodes are inside of some operands of a union. -/
  | spanOr {g : Guard} (field : String) {qs qs' : List Query} (hlength : qs.length = qs'.length)
    (h : ∀ c ∈ qs.zip qs', Wrapped g.inPlaces c.1 c.2) :
    Wrapped g (.spanOr field qs) (.spanOr field qs')
  /-- The wrapped nodes are inside of some operands of a proximity query. -/
  | spanNear {g : Guard} (field : String) {qs qs' : List Query} (slop : UInt32) (inOrder : Bool)
    (hlength : qs.length = qs'.length) (h : ∀ c ∈ qs.zip qs', Wrapped g.inPlaces c.1 c.2) :
    Wrapped g (.spanNear field qs slop inOrder) (.spanNear field qs' slop inOrder)
  /-- The wrapped nodes are inside of a check of payloads. -/
  | withoutPayload {g : Guard} {q q' : Query} (h : Wrapped g.inPlaces q q') :
    Wrapped g (.withoutPayload q) (.withoutPayload q')
  /-- The wrapped nodes are inside of a minimum frequency. -/
  | frequentSpan {g : Guard} {q q' : Query} (least : Threshold) (h : Wrapped g.inPlaces q q') :
    Wrapped g (.frequentSpan q least) (.frequentSpan q' least)
  /-- The wrapped nodes are inside of a deferral. -/
  | deferred {g : Guard} {q q' : Query} (plan : Plan)
    (h : Wrapped (g.within (plan.looksInto q)) q q')
    (hguard : g = .on → q.isSpan = true ∨ q.hasNode isSelection = true) :
    Wrapped g (.deferred q plan) (.deferred q' plan)

variable {g : Guard} {q q' r : Query}

theorem essenceClauses_congr {clauses clauses' : List (Occur × Query)}
    (h : List.Forall₂ (fun c c' => c.1 = c'.1 ∧ c.2.essence = c'.2.essence) clauses clauses') :
    essenceClauses clauses = essenceClauses clauses' := by
  induction h with
  | nil => rfl
  | cons hc _ ih => rw [essenceClauses, essenceClauses, hc.1, hc.2, ih]

theorem essenceAll_congr {qs qs' : List Query}
    (h : List.Forall₂ (fun q q' => q.essence = q'.essence) qs qs') :
    essenceAll qs = essenceAll qs' := by
  induction h with
  | nil => rfl
  | cons hq _ ih => rw [essenceAll, essenceAll, hq, ih]

theorem clausesDeferralDepth_mono {clauses clauses' : List (Occur × Query)}
    (h : List.Forall₂ (fun c c' => c.2.deferralDepth ≤ c'.2.deferralDepth) clauses clauses') :
    clausesDeferralDepth clauses ≤ clausesDeferralDepth clauses' := by
  induction h with
  | nil => exact Nat.le_refl _
  | cons hc _ ih =>
    rw [clausesDeferralDepth, clausesDeferralDepth]
    omega

theorem greatestDeferralDepth_mono {qs qs' : List Query}
    (h : List.Forall₂ (fun q q' => q.deferralDepth ≤ q'.deferralDepth) qs qs') :
    greatestDeferralDepth qs ≤ greatestDeferralDepth qs' := by
  induction h with
  | nil => exact Nat.le_refl _
  | cons hq _ ih =>
    rw [greatestDeferralDepth, greatestDeferralDepth]
    omega

namespace Wrapped

/-- What is wrapped asks for the same thing. -/
theorem essence (h : Wrapped g q q') : q.essence = q'.essence := by
  induction h with
  | refl => rfl
  | here _ _ _ _ ih => exact ih
  | boost factor _ ih => exact congrArg (Query.boost · factor) ih
  | boolean hlength hoccur _ ih =>
    exact congrArg Query.boolean
      (essenceClauses_congr (forall₂_of_zip hlength fun c hc => ⟨hoccur c hc, ih c hc⟩))
  | spanOr field hlength _ ih =>
    exact congrArg (Query.spanOr field) (essenceAll_congr (forall₂_of_zip hlength ih))
  | spanNear field slop inOrder hlength _ ih =>
    exact congrArg (Query.spanNear field · slop inOrder)
      (essenceAll_congr (forall₂_of_zip hlength ih))
  | withoutPayload _ ih => exact congrArg Query.withoutPayload ih
  | frequentSpan least _ ih => exact congrArg (Query.frequentSpan · least) ih
  | deferred _ _ _ ih => exact ih

theorem selects (h : Wrapped g q q') : q'.hasNode isSelection = q.hasNode isSelection :=
  selects_congr h.essence

theorem isSpan (h : Wrapped g q q') : q'.isSpan = q.isSpan := isSpan_congr h.essence

theorem spanField? (h : Wrapped g q q') : q'.spanField? = q.spanField? :=
  spanField?_congr h.essence

/-- Wrappers may be put around any node. -/
theorem built (h : Wrapped g q q') (hq : q.Built) : q'.Built := by
  induction h with
  | refl => exact hq
  | here plan _ _ _ ih => exact .deferred plan (ih hq)
  | boost factor _ ih => exact .boost factor (ih (built_boost.1 hq))
  | boolean hlength _ _ ih =>
    exact .boolean (built_clauses hlength ih (built_boolean.1 hq))
  | spanOr field hlength h ih =>
    have hoperands := fun c hc => And.intro (ih c hc) (h c hc).spanField?
    exact built_spanOr.2 (built_operands hlength hoperands (built_spanOr.1 hq))
  | spanNear field slop inOrder hlength h ih =>
    obtain ⟨hsome, hqs⟩ := built_spanNear.1 hq
    have hoperands := fun c hc => And.intro (ih c hc) (h c hc).spanField?
    refine built_spanNear.2 ⟨?_, built_operands hlength hoperands hqs⟩
    rintro rfl
    exact hsome (List.eq_nil_of_length_eq_zero hlength)
  | withoutPayload h ih =>
    obtain ⟨hq, field, hfield⟩ := built_withoutPayload.1 hq
    exact .withoutPayload (ih hq) (h.spanField?.trans hfield)
  | frequentSpan least h ih =>
    obtain ⟨hq, field, hfield⟩ := built_frequentSpan.1 hq
    exact .frequentSpan least (ih hq) (h.spanField?.trans hfield)
  | deferred plan _ _ ih => exact .deferred plan (ih (built_deferred.1 hq))

theorem deferralDepth_le (h : Wrapped g q q') : q.deferralDepth ≤ q'.deferralDepth := by
  induction h with
  | refl => exact Nat.le_refl _
  | here _ _ _ _ ih => exact Nat.le_succ_of_le ih
  | boost _ _ ih => exact ih
  | boolean hlength _ _ ih => exact clausesDeferralDepth_mono (forall₂_of_zip hlength ih)
  | spanOr _ hlength _ ih => exact greatestDeferralDepth_mono (forall₂_of_zip hlength ih)
  | spanNear _ _ _ hlength _ ih => exact greatestDeferralDepth_mono (forall₂_of_zip hlength ih)
  | withoutPayload _ ih => exact ih
  | frequentSpan _ _ ih => exact ih
  | deferred _ _ _ ih => exact Nat.succ_le_succ ih

end Wrapped

/-! ### What a step has to agree on -/

/-- Queries that ask for the same places. -/
def SamePlaces (q q' : Query) : Prop :=
  q.isSpan = true ∧ q'.isSpan = true ∧ q.same q' = true

/-- What steps on a query and on the wrapped query have to agree on. Where a plan is going to look,
they may differ inside of queries for places only. -/
def Guard.Agree : Guard → Query → Query → Prop
  | on, q, q' => EqualBut SamePlaces q q'
  | _, q, q' => q.essence = q'.essence

theorem samePlaces_of_essence (h : q.essence = q'.essence) (hspan : q.isSpan = true) :
    SamePlaces q q' :=
  ⟨hspan, (isSpan_congr h).trans hspan, (same_iff_essence q q').2 h⟩

theorem essence_of_equalBut (h : EqualBut SamePlaces q q') : q.essence = q'.essence :=
  (same_iff_essence q q').1 (h.same fun hparts => hparts.2.2)

namespace Guard.Agree

theorem of_equalBut (h : EqualBut SamePlaces q q') : g.Agree q q' := by
  cases g with
  | on => exact h
  | _ => exact essence_of_equalBut h

theorem essence (h : g.Agree q q') : q.essence = q'.essence := by
  cases g with
  | on => exact essence_of_equalBut h
  | _ => exact h

theorem of_places (h : q.essence = q'.essence) (hspan : q.isSpan = true) : g.Agree q q' :=
  of_equalBut (.part (samePlaces_of_essence h hspan))

theorem boost (h : g.Agree q q') (factor : Single) :
    g.Agree (.boost q factor) (.boost q' factor) := by
  cases g with
  | on => exact EqualBut.boost factor h
  | _ => exact congrArg (Query.boost · factor) h

theorem boolean {clauses clauses' : List (Occur × Query)}
    (h : List.Forall₂ (fun c c' => c.1 = c'.1 ∧ g.Agree c.2 c'.2) clauses clauses') :
    g.Agree (.boolean clauses) (.boolean clauses') := by
  cases g with
  | on => exact equalBut_boolean h
  | _ => exact congrArg Query.boolean (essenceClauses_congr h)

end Guard.Agree

end Query

/-- Faults that are the same, or that both come from plans whose passes do not suffice. -/
def SameFault (e e' : Fault) : Prop :=
  e = e' ∨ (∃ given passes, e = .traversalDiverged given passes) ∧
    ∃ given passes, e' = .traversalDiverged given passes

namespace Plan

open Query

theorem inert_of_isSpan {q : Query} (h : q.isSpan = true) : q.Inert := by
  refine ⟨?_, accepts_of_isSpan h⟩
  cases q <;> first | rfl | cases h

theorem alongside_places (p : Plan) : Alongside p p SamePlaces Eq where
  options := rfl
  context := rfl
  inert h := ⟨inert_of_isSpan h.1, inert_of_isSpan h.2.1⟩
  putOff q := .refl _
  finds hpassed q := by
    cases hpassed with
    | none => exact rel_refl (fun _ => ⟨rfl, rfl⟩) _
    | some h =>
      subst h
      exact rel_refl (fun _ => ⟨rfl, rfl⟩) _

theorem tandem_traversed (p : Plan) {q q' : Query} (h : EqualBut SamePlaces q q') :
    Tandem SameFault (EqualBut SamePlaces) (p.traversed q) (p.traversed q') :=
  ((alongside_places p).concur_traversed h).tandem fun _ _ he he' =>
    .inr ⟨eq_traversalDiverged he, eq_traversalDiverged he'⟩

end Plan

end TextSearch
