import Mathlib.Data.List.Forall2
import TextSearch.Proofs.Outcome
import TextSearch.Query.Build
import TextSearch.Query.Change
import TextSearch.Query.Equality

/-!
# The nodes of a query

Facts about every node of a query, at any depth: an induction along the parts of a
query, whether some node passes a test, and how many deferrals lie around each other.
`Query.Built` says of every node that it could have been built: the operands of span
queries are span queries on one field. Steps that change the members of a list are
taken apart member by member.
-/

namespace TextSearch

/-! ### Steps on lists -/

section Lists

variable {α : Type} {step : α → Except Fault (Option α)}

/-- A step that does not fail leads from a value to another, or leaves it as it is. -/
def LeadsTo (step : α → Except Fault (Option α)) (a a' : α) : Prop :=
  ∃ o, step a = .ok o ∧ a' = o.getD a

/-- Where two lists agree member by member, each member of the second agrees with one of the
first. -/
theorem exists_mem_of_forall₂ {α β : Type} {P : α → β → Prop} {as : List α} {bs : List β}
    (h : List.Forall₂ P as bs) {b : β} (hb : b ∈ bs) : ∃ a ∈ as, P a b := by
  induction h with
  | nil => cases hb
  | cons hab _ ih =>
    rcases List.mem_cons.1 hb with rfl | hb
    · exact ⟨_, List.mem_cons_self .., hab⟩
    · obtain ⟨a, ha, hab⟩ := ih hb
      exact ⟨a, List.mem_cons_of_mem _ ha, hab⟩

theorem forall₂_of_zip {α β : Type} {P : α → β → Prop} {as : List α} {bs : List β}
    (hlength : as.length = bs.length) (h : ∀ x ∈ as.zip bs, P x.1 x.2) : List.Forall₂ P as bs :=
  List.forall₂_iff_zip.2 ⟨hlength, fun hmem => h _ hmem⟩

theorem exists_mem_zip {α β : Type} {as : List α} {bs : List β} (hlength : as.length = bs.length)
    {b : β} (hb : b ∈ bs) : ∃ a ∈ as, (a, b) ∈ as.zip bs := by
  have hzip : List.Forall₂ (fun a b => (a, b) ∈ as.zip bs) as bs :=
    forall₂_of_zip hlength fun _ hc => hc
  exact exists_mem_of_forall₂ hzip hb

theorem forall₂_toList {α β : Type} {R : α → β → Prop} {o : Option α} {o' : Option β}
    (h : Option.Rel R o o') :
    List.Forall₂ R o.toList o'.toList := by
  cases h with
  | none => exact .nil
  | some h => exact .cons h .nil

/-- Lists that agree member by member with the same one agree with each other. -/
theorem forall₂_comp {α β γ : Type} {P : α → β → Prop} {Q : β → γ → Prop} {R : α → γ → Prop}
    (hcomp : ∀ a b c, P a b → Q b c → R a c) {as : List α} {bs : List β} {cs : List γ}
    (h : List.Forall₂ P as bs) (h' : List.Forall₂ Q bs cs) : List.Forall₂ R as cs := by
  induction h generalizing cs with
  | nil =>
    cases h'
    exact .nil
  | cons hab _ ih =>
    cases h' with
    | cons hbc hrest => exact .cons (hcomp _ _ _ hab hbc) (ih hrest)

theorem changeAll_congr {step' : α → Except Fault (Option α)} {as : List α}
    (h : ∀ a ∈ as, step a = step' a) : changeAll step as = changeAll step' as := by
  induction as with
  | nil => rfl
  | cons a as ih =>
    obtain ⟨ha, has⟩ := List.forall_mem_cons.1 h
    rw [changeAll, changeAll, ha, ih has]

theorem forall₂_of_changeAll {as : List α} {o : Option (List α)} (h : changeAll step as = .ok o) :
    List.Forall₂ (LeadsTo step) as (o.getD as) := by
  induction as generalizing o with
  | nil =>
    cases h
    exact .nil
  | cons a as ih =>
    rw [changeAll] at h
    obtain ⟨a', ha, h⟩ := except_bind_eq_ok.1 h
    obtain ⟨as', has, h⟩ := except_bind_eq_ok.1 h
    have hboth : List.Forall₂ (LeadsTo step) (a :: as) (a'.getD a :: as'.getD as) :=
      .cons ⟨a', ha, rfl⟩ (ih has)
    cases h
    cases a' with
    | some => exact hboth
    | none => cases as' <;> exact hboth

theorem changeAll_eq_none {as : List α} (h : changeAll step as = .ok none) :
    ∀ a ∈ as, step a = .ok none := by
  induction as with
  | nil => simp
  | cons a as ih =>
    rw [changeAll] at h
    obtain ⟨a', ha, h⟩ := except_bind_eq_ok.1 h
    obtain ⟨as', has, h⟩ := except_bind_eq_ok.1 h
    cases a' with
    | some => cases h
    | none =>
      cases as' with
      | some => cases h
      | none => exact List.forall_mem_cons.2 ⟨ha, ih has⟩

theorem changeAll_of_none {as : List α} (h : ∀ a ∈ as, step a = .ok none) :
    changeAll step as = .ok none := by
  induction as with
  | nil => rfl
  | cons a as ih =>
    obtain ⟨ha, has⟩ := List.forall_mem_cons.1 h
    rw [changeAll, ha, ih has]
    rfl

theorem exists_of_changeAll_eq_error {as : List α} {e : Fault}
    (h : changeAll step as = .error e) : ∃ a ∈ as, step a = .error e := by
  induction as with
  | nil => cases h
  | cons a as ih =>
    rw [changeAll] at h
    rcases except_bind_eq_error.1 h with ha | ⟨a', -, h⟩
    · exact ⟨a, List.mem_cons_self .., ha⟩
    · rcases except_bind_eq_error.1 h with has | ⟨as', -, h⟩
      · obtain ⟨b, hb, hstep⟩ := ih has
        exact ⟨b, List.mem_cons_of_mem _ hb, hstep⟩
      · cases h

/-- Steps on lists concur if they do so on the members. -/
theorem concur_changeAll {β : Type} {R : α → β → Prop} {step' : β → Except Fault (Option β)}
    {as : List α} {bs : List β}
    (h : List.Forall₂ (fun a b => R a b ∧ Concur (Option.Rel R) (step a) (step' b)) as bs) :
    Concur (Option.Rel (List.Forall₂ R)) (changeAll step as) (changeAll step' bs) := by
  induction h with
  | nil => exact .ok .none
  | @cons a b as bs hab hrest ih =>
    have hall : List.Forall₂ R as bs := hrest.imp fun _ _ h => h.1
    refine hab.2.bind fun o o' ho => ih.bind fun rest rest' hrest => ?_
    have hsome : Option.Rel (List.Forall₂ R) (some (o.getD a :: rest.getD as))
        (some (o'.getD b :: rest'.getD bs)) :=
      .some (.cons (rel_getD ho hab.1) (rel_getD hrest hall))
    cases ho with
    | some => exact .ok hsome
    | none =>
      cases hrest with
      | some => exact .ok hsome
      | none => exact .ok .none

/-- Runs over lists go in tandem if they do so member by member. -/
theorem tandem_mapM {ε β γ δ : Type} {faults : ε → ε → Prop} {R : γ → δ → Prop}
    {f : α → Except ε γ} {g : β → Except ε δ} {as : List α} {bs : List β}
    (h : List.Forall₂ (fun a b => Tandem faults R (f a) (g b)) as bs) :
    Tandem faults (List.Forall₂ R) (as.mapM f) (bs.mapM g) := by
  induction h with
  | nil => exact .ok .nil
  | cons hab _ ih =>
    rw [List.mapM_cons, List.mapM_cons]
    refine hab.bind_of_ok fun c d _ _ hcd => ih.bind_of_ok fun cs ds _ _ hrest => ?_
    exact .ok (.cons hcd hrest)

end Lists

theorem changeClause_eq_none {step : Query → Except Fault (Option Query)} {c : Occur × Query} :
    changeClause step c = .ok none ↔ step c.2 = .ok none := by
  rw [changeClause, except_map_eq_ok]
  constructor
  · rintro ⟨o, ho, hnone⟩
    rw [ho, Option.map_eq_none_iff.1 hnone]
  · exact fun h => ⟨none, h, rfl⟩

/-- A step on clauses leads from every clause to one that plays the same part. -/
theorem LeadsTo.clause {step : Query → Except Fault (Option Query)} {c c' : Occur × Query}
    (h : LeadsTo (changeClause step) c c') : c'.1 = c.1 ∧ LeadsTo step c.2 c'.2 := by
  obtain ⟨o, ho, rfl⟩ := h
  obtain ⟨o', ho', rfl⟩ := except_map_eq_ok.1 ho
  cases o' with
  | none => exact ⟨rfl, none, ho', rfl⟩
  | some q => exact ⟨rfl, some q, ho', rfl⟩

/-- Each of the clauses comes to one of the outcome. -/
theorem exists_outcome_of_changeAll {step : Query → Except Fault (Option Query)}
    {clauses : List (Occur × Query)} {o : Option (List (Occur × Query))}
    (h : changeAll (changeClause step) clauses = .ok o) {c : Occur × Query} (hc : c ∈ clauses) :
    ∃ c' ∈ o.getD clauses, LeadsTo step c.2 c'.2 := by
  obtain ⟨c', hc', hleads⟩ := exists_mem_of_forall₂ (forall₂_of_changeAll h).flip hc
  exact ⟨c', hc', (LeadsTo.clause hleads).2⟩

/-- Where no clause fails, a run over all of them does not fail. -/
theorem exists_changeAll_clauses {step : Query → Except Fault (Option Query)}
    {clauses : List (Occur × Query)} (h : ∀ c ∈ clauses, ∃ o, step c.2 = .ok o) :
    ∃ o, changeAll (changeClause step) clauses = .ok o := by
  cases hall : changeAll (changeClause step) clauses with
  | ok o => exact ⟨o, rfl⟩
  | error e =>
    obtain ⟨c, hc, herror⟩ := exists_of_changeAll_eq_error hall
    obtain ⟨o, ho⟩ := h c hc
    rw [changeClause, ho] at herror
    cases herror

/-- Each clause of the outcome comes from one of the clauses. -/
theorem exists_clause_of_changeAll {step : Query → Except Fault (Option Query)}
    {clauses : List (Occur × Query)} {o : Option (List (Occur × Query))}
    (h : changeAll (changeClause step) clauses = .ok o) {c' : Occur × Query}
    (hc' : c' ∈ o.getD clauses) : ∃ c ∈ clauses, LeadsTo step c.2 c'.2 := by
  obtain ⟨c, hc, hleads⟩ := exists_mem_of_forall₂ (forall₂_of_changeAll h) hc'
  exact ⟨c, hc, hleads.clause.2⟩

namespace Query

/-! ### Parts -/

/-- Whether a query has no queries inside. -/
def isAtom : Query → Bool
  | boost .. => false
  | boolean _ => false
  | spanOr .. => false
  | spanNear .. => false
  | withoutPayload _ => false
  | frequentSpan .. => false
  | deferred .. => false
  | _ => true

/-- What holds of queries without parts, and of others if it holds of their parts, holds of all
queries. -/
theorem byParts {P : Query → Prop} (hboost : ∀ q factor, P q → P (boost q factor))
    (hboolean : ∀ clauses, (∀ c ∈ clauses, P c.2) → P (boolean clauses))
    (hspanOr : ∀ field qs, (∀ q ∈ qs, P q) → P (spanOr field qs))
    (hspanNear : ∀ field qs slop inOrder, (∀ q ∈ qs, P q) → P (spanNear field qs slop inOrder))
    (hwithoutPayload : ∀ q, P q → P (withoutPayload q))
    (hfrequentSpan : ∀ q least, P q → P (frequentSpan q least))
    (hdeferred : ∀ q plan, P q → P (deferred q plan))
    (hatom : ∀ q, q.isAtom = true → P q) : ∀ q, P q :=
  -- the recursor wants to know, besides, what holds of clauses and of lists of operands
  @Query.rec P (fun clauses => ∀ c ∈ clauses, P c.2) (fun qs => ∀ q ∈ qs, P q) (fun c => P c.2)
    (fun t => hatom (term t) rfl) (fun t mark => hatom (markedTerm t mark) rfl)
    (fun t least carried => hatom (frequentTerm t least carried) rfl)
    (fun m => hatom (multiTerm m) rfl) (fun q factor => hboost q factor) hboolean
    (fun t => hatom (spanTerm t) rfl)
    (fun t least carried => hatom (frequentSpanTerm t least carried) rfl)
    (fun m => hatom (spanMultiTerm m) rfl) hspanOr hspanNear hwithoutPayload
    (fun q least => hfrequentSpan q least) (fun q plan => hdeferred q plan) (hatom nothing rfl)
    (List.forall_mem_nil _) (fun _ _ hc hrest => List.forall_mem_cons.2 ⟨hc, hrest⟩)
    (List.forall_mem_nil _) (fun _ _ hq hrest => List.forall_mem_cons.2 ⟨hq, hrest⟩)
    (fun _ _ hq => hq)

/-! ### Tests of nodes -/

mutual

/-- Whether some node of a query, at any depth, passes a test. -/
def hasNode (test : Query → Bool) : Query → Bool
  | boost q factor => test (boost q factor) || hasNode test q
  | boolean clauses => test (boolean clauses) || clausesHaveNode test clauses
  | spanOr field qs => test (spanOr field qs) || someHasNode test qs
  | spanNear field qs slop inOrder =>
    test (spanNear field qs slop inOrder) || someHasNode test qs
  | withoutPayload q => test (withoutPayload q) || hasNode test q
  | frequentSpan q least => test (frequentSpan q least) || hasNode test q
  | deferred q plan => test (deferred q plan) || hasNode test q
  | q => test q

/-- Whether some node of some clause passes a test. -/
def clausesHaveNode (test : Query → Bool) : List (Occur × Query) → Bool
  | [] => false
  | (_, q) :: rest => hasNode test q || clausesHaveNode test rest

/-- Whether some node of some query passes a test. -/
def someHasNode (test : Query → Bool) : List Query → Bool
  | [] => false
  | q :: rest => hasNode test q || someHasNode test rest

end

/-- Whether a node selects terms by a pattern. -/
def isSelection : Query → Bool
  | multiTerm _ => true
  | spanMultiTerm _ => true
  | _ => false

/-- Whether a node has to be grounded: it selects terms by a pattern, or is deferred. -/
def isUnbound : Query → Bool
  | deferred .. => true
  | q => q.isSelection

variable {test : Query → Bool}

theorem clausesHaveNode_eq_false {clauses : List (Occur × Query)} :
    clausesHaveNode test clauses = false ↔ ∀ c ∈ clauses, c.2.hasNode test = false := by
  induction clauses with
  | nil => simp [clausesHaveNode]
  | cons c clauses ih => rw [clausesHaveNode, Bool.or_eq_false_iff, ih, List.forall_mem_cons]

theorem someHasNode_eq_false {qs : List Query} :
    someHasNode test qs = false ↔ ∀ q ∈ qs, q.hasNode test = false := by
  induction qs with
  | nil => simp [someHasNode]
  | cons q qs ih => rw [someHasNode, Bool.or_eq_false_iff, ih, List.forall_mem_cons]

theorem hasNode_atom {q : Query} (hq : q.isAtom = true) : q.hasNode test = test q := by
  cases q <;> first | rfl | cases hq

theorem hasNode_boolean {clauses : List (Occur × Query)} (htest : test (boolean clauses) = false) :
    (boolean clauses).hasNode test = false ↔ ∀ c ∈ clauses, c.2.hasNode test = false := by
  rw [hasNode, htest, Bool.false_or, clausesHaveNode_eq_false]

theorem hasNode_spanOr {field : String} {qs : List Query} (htest : test (spanOr field qs) = false) :
    (spanOr field qs).hasNode test = false ↔ ∀ q ∈ qs, q.hasNode test = false := by
  rw [hasNode, htest, Bool.false_or, someHasNode_eq_false]

theorem hasNode_spanNear {field : String} {qs : List Query} {slop : UInt32} {inOrder : Bool}
    (htest : test (spanNear field qs slop inOrder) = false) :
    (spanNear field qs slop inOrder).hasNode test = false ↔ ∀ q ∈ qs, q.hasNode test = false := by
  rw [hasNode, htest, Bool.false_or, someHasNode_eq_false]

theorem clausesHaveNode_congr {test : Query → Bool} {clauses clauses' : List (Occur × Query)}
    (h : List.Forall₂ (fun c c' => c'.2.hasNode test = c.2.hasNode test) clauses clauses') :
    clausesHaveNode test clauses' = clausesHaveNode test clauses := by
  induction h with
  | nil => rfl
  | cons hc _ ih => rw [clausesHaveNode, clausesHaveNode, hc, ih]

theorem someHasNode_congr {test : Query → Bool} {qs qs' : List Query}
    (h : List.Forall₂ (fun q q' => q'.hasNode test = q.hasNode test) qs qs') :
    someHasNode test qs' = someHasNode test qs := by
  induction h with
  | nil => rfl
  | cons hq _ ih => rw [someHasNode, someHasNode, hq, ih]

/-! ### Deferrals -/

mutual

/-- The greatest number of deferrals on a path into a query. -/
def deferralDepth : Query → Nat
  | boost q _ => deferralDepth q
  | boolean clauses => clausesDeferralDepth clauses
  | spanOr _ qs => greatestDeferralDepth qs
  | spanNear _ qs _ _ => greatestDeferralDepth qs
  | withoutPayload q => deferralDepth q
  | frequentSpan q _ => deferralDepth q
  | deferred q _ => deferralDepth q + 1
  | _ => 0

/-- The greatest number of deferrals on a path into a clause. -/
def clausesDeferralDepth : List (Occur × Query) → Nat
  | [] => 0
  | (_, q) :: rest => max (deferralDepth q) (clausesDeferralDepth rest)

/-- The greatest number of deferrals on a path into one of several queries. -/
def greatestDeferralDepth : List Query → Nat
  | [] => 0
  | q :: rest => max (deferralDepth q) (greatestDeferralDepth rest)

end

theorem clausesDeferralDepth_le_iff {clauses : List (Occur × Query)} {n : Nat} :
    clausesDeferralDepth clauses ≤ n ↔ ∀ c ∈ clauses, c.2.deferralDepth ≤ n := by
  induction clauses with
  | nil => simp [clausesDeferralDepth]
  | cons c clauses ih => rw [clausesDeferralDepth, Nat.max_le, ih, List.forall_mem_cons]

theorem greatestDeferralDepth_le_iff {qs : List Query} {n : Nat} :
    greatestDeferralDepth qs ≤ n ↔ ∀ q ∈ qs, q.deferralDepth ≤ n := by
  induction qs with
  | nil => simp [greatestDeferralDepth]
  | cons q qs ih => rw [greatestDeferralDepth, Nat.max_le, ih, List.forall_mem_cons]

theorem deferralDepth_atom {q : Query} (hq : q.isAtom = true) : q.deferralDepth = 0 := by
  cases q <;> first | rfl | cases hq

/-- A query that selects nothing and defers nothing has nothing to be grounded. -/
theorem hasNode_isUnbound {q : Query} (hselects : q.hasNode isSelection = false)
    (hdepth : q.deferralDepth = 0) : q.hasNode isUnbound = false := by
  induction q using byParts with
  | hboost q factor ih => exact ih hselects hdepth
  | hboolean clauses ih =>
    have hclauses := clausesDeferralDepth_le_iff.1 (Nat.le_of_eq hdepth)
    refine (hasNode_boolean rfl).2 fun c hc => ?_
    exact ih c hc ((hasNode_boolean rfl).1 hselects c hc) (Nat.le_zero.1 (hclauses c hc))
  | hspanOr field qs ih =>
    have hqs := greatestDeferralDepth_le_iff.1 (Nat.le_of_eq hdepth)
    refine (hasNode_spanOr rfl).2 fun q hq => ?_
    exact ih q hq ((hasNode_spanOr rfl).1 hselects q hq) (Nat.le_zero.1 (hqs q hq))
  | hspanNear field qs slop inOrder ih =>
    have hqs := greatestDeferralDepth_le_iff.1 (Nat.le_of_eq hdepth)
    refine (hasNode_spanNear rfl).2 fun q hq => ?_
    exact ih q hq ((hasNode_spanNear rfl).1 hselects q hq) (Nat.le_zero.1 (hqs q hq))
  | hwithoutPayload q ih => exact ih hselects hdepth
  | hfrequentSpan q least ih => exact ih hselects hdepth
  | hdeferred q plan ih => cases hdepth
  | hatom q hq =>
    rw [hasNode_atom hq] at hselects ⊢
    cases q <;> first | exact hselects | cases hq

/-! ### Heights -/

theorem height_of_isSpan {q : Query} (h : q.isSpan = true) : q.height = 0 := by
  cases q <;> first | rfl | cases h

theorem heightClauses_congr {clauses clauses' : List (Occur × Query)}
    (h : List.Forall₂ (fun c c' => c'.2.height = c.2.height) clauses clauses') :
    heightClauses clauses' = heightClauses clauses := by
  induction h with
  | nil => rfl
  | cons hc _ ih => rw [heightClauses, heightClauses, hc, ih]

/-! ### Queries that can be built -/

/-- Whether a query could have been built: the operands of a span query are span queries, all on
its field, and a proximity query has some. -/
inductive Built : Query → Prop
  | atom {q : Query} (h : q.isAtom = true) : Built q
  | boost {q : Query} (factor : Single) (h : Built q) : Built (boost q factor)
  | boolean {clauses : List (Occur × Query)} (h : ∀ c ∈ clauses, Built c.2) :
    Built (boolean clauses)
  | spanOr {field : String} {qs : List Query} (h : ∀ q ∈ qs, Built q)
    (hfield : ∀ q ∈ qs, q.spanField? = some field) : Built (spanOr field qs)
  | spanNear {field : String} {qs : List Query} (slop : UInt32) (inOrder : Bool)
    (h : ∀ q ∈ qs, Built q) (hfield : ∀ q ∈ qs, q.spanField? = some field) (hsome : qs ≠ []) :
    Built (spanNear field qs slop inOrder)
  | withoutPayload {q : Query} {field : String} (h : Built q) (hfield : q.spanField? = some field) :
    Built (withoutPayload q)
  | frequentSpan {q : Query} {field : String} (least : Threshold) (h : Built q)
    (hfield : q.spanField? = some field) : Built (frequentSpan q least)
  | deferred {q : Query} (plan : Plan) (h : Built q) : Built (deferred q plan)

section Built

variable {q : Query} {qs : List Query} {field : String} {slop : UInt32} {inOrder : Bool}

theorem built_boost {factor : Single} : (boost q factor).Built ↔ q.Built := by
  refine ⟨fun h => ?_, .boost factor⟩
  cases h with
  | atom hatom => cases hatom
  | boost _ hq => exact hq

theorem built_boolean {clauses : List (Occur × Query)} :
    (boolean clauses).Built ↔ ∀ c ∈ clauses, c.2.Built := by
  refine ⟨fun h => ?_, .boolean⟩
  cases h with
  | atom hatom => cases hatom
  | boolean hclauses => exact hclauses

theorem built_spanOr :
    (spanOr field qs).Built ↔ ∀ q ∈ qs, q.Built ∧ q.spanField? = some field := by
  refine ⟨fun h => ?_, fun h => .spanOr (fun q hq => (h q hq).1) fun q hq => (h q hq).2⟩
  cases h with
  | atom hatom => cases hatom
  | spanOr hqs hfields => exact fun q hq => ⟨hqs q hq, hfields q hq⟩

theorem built_spanNear :
    (spanNear field qs slop inOrder).Built ↔
      qs ≠ [] ∧ ∀ q ∈ qs, q.Built ∧ q.spanField? = some field := by
  refine ⟨fun h => ?_, fun ⟨hsome, h⟩ =>
    .spanNear slop inOrder (fun q hq => (h q hq).1) (fun q hq => (h q hq).2) hsome⟩
  cases h with
  | atom hatom => cases hatom
  | spanNear _ _ hqs hfields hsome => exact ⟨hsome, fun q hq => ⟨hqs q hq, hfields q hq⟩⟩

theorem built_withoutPayload :
    (withoutPayload q).Built ↔ q.Built ∧ ∃ field, q.spanField? = some field := by
  refine ⟨fun h => ?_, fun ⟨hq, _, hfield⟩ => .withoutPayload hq hfield⟩
  cases h with
  | atom hatom => cases hatom
  | withoutPayload hq hfield => exact ⟨hq, _, hfield⟩

theorem built_frequentSpan {least : Threshold} :
    (frequentSpan q least).Built ↔ q.Built ∧ ∃ field, q.spanField? = some field := by
  refine ⟨fun h => ?_, fun ⟨hq, _, hfield⟩ => .frequentSpan least hq hfield⟩
  cases h with
  | atom hatom => cases hatom
  | frequentSpan _ hq hfield => exact ⟨hq, _, hfield⟩

theorem built_deferred {plan : Plan} : (deferred q plan).Built ↔ q.Built := by
  refine ⟨fun h => ?_, .deferred plan⟩
  cases h with
  | atom hatom => cases hatom
  | deferred _ hq => exact hq

theorem built_clauses {clauses clauses' : List (Occur × Query)}
    (hlength : clauses.length = clauses'.length)
    (h : ∀ c ∈ clauses.zip clauses', c.1.2.Built → c.2.2.Built)
    (hclauses : ∀ c ∈ clauses, c.2.Built) : ∀ c' ∈ clauses', c'.2.Built := by
  intro c' hc'
  obtain ⟨c, hc, hzip⟩ := exists_mem_zip hlength hc'
  exact h _ hzip (hclauses c hc)

theorem built_operands {qs' : List Query} (hlength : qs.length = qs'.length)
    (h : ∀ c ∈ qs.zip qs', (c.1.Built → c.2.Built) ∧ c.2.spanField? = c.1.spanField?)
    (hqs : ∀ q ∈ qs, q.Built ∧ q.spanField? = some field) :
    ∀ q' ∈ qs', q'.Built ∧ q'.spanField? = some field := by
  intro q' hq'
  obtain ⟨q, hq, hzip⟩ := exists_mem_zip hlength hq'
  obtain ⟨hbuilt, hfield⟩ := h _ hzip
  exact ⟨hbuilt (hqs q hq).1, hfield.trans (hqs q hq).2⟩

end Built

theorem isSpan_of_spanField? {q : Query} {field : String} (h : q.spanField? = some field) :
    q.isSpan = true := by
  induction q using byParts with
  | hdeferred q plan ih => exact ih h
  | hboost => cases h
  | hboolean => cases h
  | hatom q hatom => cases q <;> first | rfl | cases h | cases hatom
  | _ => rfl

/-- A span query that could have been built is on some field. -/
theorem Built.exists_spanField? {q : Query} (hq : q.Built) (h : q.isSpan = true) :
    ∃ field, q.spanField? = some field := by
  induction hq with
  | @atom q hatom =>
    cases q with
    | spanTerm => exact ⟨_, rfl⟩
    | frequentSpanTerm => exact ⟨_, rfl⟩
    | spanMultiTerm => exact ⟨_, rfl⟩
    | spanOr => cases hatom
    | spanNear => cases hatom
    | withoutPayload => cases hatom
    | frequentSpan => cases hatom
    | deferred => cases hatom
    | _ => cases h
  | boost => cases h
  | boolean => cases h
  | spanOr => exact ⟨_, rfl⟩
  | spanNear => exact ⟨_, rfl⟩
  | withoutPayload _ hfield => exact ⟨_, hfield⟩
  | frequentSpan _ _ hfield => exact ⟨_, hfield⟩
  | deferred _ _ ih => exact ih h

theorem operandField_eq_ok {q : Query} {field : String} :
    q.operandField = .ok field ↔ q.spanField? = some field := by
  rw [operandField]
  cases q.spanField? <;> simp

theorem checkOperand_eq_ok {field : String} {q : Query} :
    checkOperand field q = .ok () ↔ q.spanField? = some field := by
  rw [checkOperand]
  cases hfield : q.operandField with
  | error e =>
    have hnone : q.spanField? ≠ some field := fun h => by
      rw [← operandField_eq_ok, hfield] at h
      cases h
    simp [bind, Except.bind, hnone]
  | ok field' =>
    rw [operandField_eq_ok.1 hfield]
    by_cases h : field' = field
    · simp [bind, Except.bind, h, pure, Except.pure]
    · simp [bind, Except.bind, h]

theorem forM_checkOperand_eq_ok {field : String} {qs : List Query} :
    qs.forM (checkOperand field) = .ok () ↔ ∀ q ∈ qs, q.spanField? = some field := by
  induction qs with
  | nil => exact iff_of_true rfl (List.forall_mem_nil _)
  | cons q qs ih =>
    rw [List.forM, List.forall_mem_cons, ← ih, ← checkOperand_eq_ok]
    exact except_bind_eq_ok.trans ⟨fun ⟨⟨⟩, h⟩ => h, fun h => ⟨(), h⟩⟩

/-- A union is built of the span queries on its field. -/
theorem spanUnion_eq_ok {field : String} {qs : List Query} {q : Query} :
    spanUnion field qs = .ok q ↔ (∀ r ∈ qs, r.spanField? = some field) ∧ q = .spanOr field qs := by
  rw [spanUnion, except_bind_eq_ok]
  constructor
  · rintro ⟨⟨⟩, hall, hq⟩
    cases hq
    exact ⟨forM_checkOperand_eq_ok.1 hall, rfl⟩
  · rintro ⟨hall, rfl⟩
    exact ⟨(), forM_checkOperand_eq_ok.2 hall, rfl⟩

/-- A proximity query is built of span queries on one field, and of some at least. -/
theorem spanProximity_eq_ok {qs : List Query} {slop : UInt32} {inOrder : Bool} {q : Query} :
    spanProximity qs slop inOrder = .ok q ↔
      qs ≠ [] ∧ ∃ field, (∀ r ∈ qs, r.spanField? = some field) ∧
        q = .spanNear field qs slop inOrder := by
  cases qs with
  | nil => simp [spanProximity]
  | cons first rest =>
    simp only [spanProximity, except_bind_eq_ok, operandField_eq_ok, List.forall_mem_cons]
    constructor
    · rintro ⟨field, hfirst, ⟨⟩, hall, hq⟩
      cases hq
      exact ⟨List.cons_ne_nil _ _, field, ⟨hfirst, forM_checkOperand_eq_ok.1 hall⟩, rfl⟩
    · rintro ⟨-, field, ⟨hfirst, hall⟩, rfl⟩
      exact ⟨field, hfirst, (), forM_checkOperand_eq_ok.2 hall, rfl⟩

theorem exactSpan_eq_ok {q r : Query} :
    q.exactSpan = .ok r ↔ (∃ field, q.spanField? = some field) ∧ r = .withoutPayload q := by
  rw [exactSpan, except_bind_eq_ok]
  constructor
  · rintro ⟨_, hfield, hr⟩
    cases hr
    obtain ⟨field, hfield, -⟩ := except_map_eq_ok.1 hfield
    exact ⟨⟨field, operandField_eq_ok.1 hfield⟩, rfl⟩
  · rintro ⟨⟨field, hfield⟩, rfl⟩
    exact ⟨_, except_map_eq_ok.2 ⟨field, operandField_eq_ok.2 hfield, rfl⟩, rfl⟩

theorem spanAtLeast_eq_ok {q r : Query} {least : Threshold} :
    q.spanAtLeast least.value = .ok r ↔
      (∃ field, q.spanField? = some field) ∧ r = .frequentSpan q least := by
  rw [spanAtLeast, except_bind_eq_ok, Threshold.ofNat_value]
  constructor
  · rintro ⟨_, hfield, hr⟩
    cases hr
    obtain ⟨field, hfield, -⟩ := except_map_eq_ok.1 hfield
    exact ⟨⟨field, operandField_eq_ok.1 hfield⟩, rfl⟩
  · rintro ⟨⟨field, hfield⟩, rfl⟩
    exact ⟨_, except_map_eq_ok.2 ⟨field, operandField_eq_ok.2 hfield, rfl⟩, rfl⟩

end Query

end TextSearch
