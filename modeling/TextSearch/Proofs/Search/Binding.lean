import TextSearch.Proofs.Query.Nodes
import TextSearch.Proofs.Search.Yields

/-!
# Queries that cannot be bound

Whether binding a query fails, and how, depends on the query alone: neither on the
shared lookups nor on whether scores are needed. `Query.bindingFault?` says how, and
`Weighing.fails_weight_iff` that it does. A query that could have been built can be
bound as soon as nothing in it has to be grounded.
-/

namespace TextSearch

namespace Query

mutual

/-- Why a query cannot be bound for its places, if it cannot. -/
def spanBindingFault? : Query → Option Fault
  | spanTerm _ => none
  | frequentSpanTerm .. => none
  | spanOr _ qs => firstSpanBindingFault? qs
  | spanNear _ qs _ _ => firstSpanBindingFault? qs
  | withoutPayload q => spanBindingFault? q
  | frequentSpan q _ => spanBindingFault? q
  | spanMultiTerm m => some (.notGrounded (spanMultiTerm m).display)
  | deferred q plan => some (.notGrounded (deferred q plan).display)
  | q => some (.notSpan q.display)

/-- Why the first of several queries that cannot be bound for its places cannot be. -/
def firstSpanBindingFault? : List Query → Option Fault
  | [] => none
  | q :: rest => (spanBindingFault? q).or (firstSpanBindingFault? rest)

end

mutual

/-- Why a query cannot be bound, if it cannot. -/
def bindingFault? : Query → Option Fault
  | term _ => none
  | markedTerm .. => none
  | frequentTerm .. => none
  | boost q _ => bindingFault? q
  | boolean clauses => firstBindingFault? clauses
  | nothing => none
  | multiTerm m => some (.notGrounded (multiTerm m).display)
  | q => q.spanBindingFault?

/-- Why the first of several clauses that cannot be bound cannot be. -/
def firstBindingFault? : List (Occur × Query) → Option Fault
  | [] => none
  | (_, q) :: rest => (bindingFault? q).or (firstBindingFault? rest)

end

end Query

namespace Weighing

variable {s : Snapshot} {c : LookupCache} {e : Fault}

/-- Of two computations in a row the second one fails only if the first does not. -/
theorem fails_cons_iff {α β γ : Type} {m : Weighing α} {n : Weighing β} {f : α → β → γ}
    {first rest : Option Fault} (hm : ∀ e, Fails m c e ↔ first = some e)
    (hn : ∀ c₁ e, Fails n c₁ e ↔ rest = some e) :
    Fails (do let a ← m; let b ← n; pure (f a b)) c e ↔ first.or rest = some e := by
  rw [fails_bind, hm]
  cases first with
  | some e' =>
    refine ⟨?_, .inl⟩
    rintro (h | ⟨a, c₁, hyields, -⟩)
    · exact h
    · exact absurd ((hm e').2 rfl) (not_fails_of_yields hyields)
  | none =>
    have hrest : ∀ a c₁, Fails (do let b ← n; pure (f a b)) c₁ e ↔ rest = some e := fun a c₁ =>
      (fails_bind_iff_left fun _ _ => not_fails_pure).trans (hn c₁ e)
    obtain ⟨a, c₁, ha⟩ := exists_yields_of_not_fails fun e' h => by cases (hm e').1 h
    constructor
    · rintro (h | ⟨a, c₁, -, h⟩)
      · cases h
      · exact (hrest a c₁).1 h
    · exact fun h => .inr ⟨a, c₁, ha, (hrest a c₁).2 h⟩

/-- Looking a term up and going on without a failure does not fail. -/
theorem not_fails_resolve_bind {α : Type} {t : Term} {carried : Option TermLookup} {counted : Bool}
    {f : TermLookup → α} : ¬ Fails (do let l ← resolve s t carried counted; pure (f l)) c e :=
  fun h => not_fails_resolve ((fails_bind_iff_left fun _ _ => not_fails_pure).1 h)

/-- What is made of a result does not fail. -/
theorem fails_map_iff {α β : Type} {m : Weighing α} {f : α → β} {fault : Option Fault}
    (h : Fails m c e ↔ fault = some e) :
    Fails (do let a ← m; pure (f a)) c e ↔ fault = some e :=
  (fails_bind_iff_left fun _ _ => not_fails_pure).trans h

mutual

/-- Binding a query for its places fails exactly as the query says. -/
theorem fails_spanWeight_iff (s : Snapshot) (counted : Bool) :
    ∀ (q : Query) (c : LookupCache) (e : Fault),
      Fails (spanWeight s counted q) c e ↔ q.spanBindingFault? = some e
  | .spanTerm _, _, _ => iff_of_false not_fails_resolve_bind nofun
  | .frequentSpanTerm _ _ _, _, _ => iff_of_false not_fails_resolve_bind nofun
  | .spanOr _ qs, c, e => fails_map_iff (fails_spanWeights_iff s counted qs c e)
  | .spanNear _ qs _ _, c, e => fails_map_iff (fails_spanWeights_iff s counted qs c e)
  | .withoutPayload q, c, e => fails_map_iff (fails_spanWeight_iff s counted q c e)
  | .frequentSpan q _, c, e => fails_map_iff (fails_spanWeight_iff s counted q c e)
  | .spanMultiTerm _, _, _ => fails_throw.trans Option.some_inj.symm
  | .deferred _ _, _, _ => fails_throw.trans Option.some_inj.symm
  | .term _, _, _ => fails_throw.trans Option.some_inj.symm
  | .markedTerm _ _, _, _ => fails_throw.trans Option.some_inj.symm
  | .frequentTerm _ _ _, _, _ => fails_throw.trans Option.some_inj.symm
  | .multiTerm _, _, _ => fails_throw.trans Option.some_inj.symm
  | .boost _ _, _, _ => fails_throw.trans Option.some_inj.symm
  | .boolean _, _, _ => fails_throw.trans Option.some_inj.symm
  | .nothing, _, _ => fails_throw.trans Option.some_inj.symm

/-- Binding queries for their places fails exactly as the first of them that fails. -/
theorem fails_spanWeights_iff (s : Snapshot) (counted : Bool) :
    ∀ (qs : List Query) (c : LookupCache) (e : Fault),
      Fails (spanWeights s counted qs) c e ↔ Query.firstSpanBindingFault? qs = some e
  | [], _, _ => iff_of_false not_fails_pure nofun
  | q :: qs, c, _ =>
    fails_cons_iff (fails_spanWeight_iff s counted q c) (fails_spanWeights_iff s counted qs)

end

variable {R : Type} [ScoreNumber R]

theorem fails_spansWeight_iff (s : Snapshot) (q : Query) (scored : Bool) (boost : R)
    (c : LookupCache) (e : Fault) :
    Fails (spansWeight s q scored boost) c e ↔ q.spanBindingFault? = some e :=
  fails_map_iff (fails_spanWeight_iff s scored q c e)

mutual

/-- Binding a query fails exactly as the query says, whatever was looked up before and whether
scores are needed or not. -/
theorem fails_weight_iff (s : Snapshot) :
    ∀ (q : Query) (scored : Bool) (boost : R) (c : LookupCache) (e : Fault),
      Fails (weight s scored boost q) c e ↔ q.bindingFault? = some e
  | .term _, _, _, _, _ => iff_of_false not_fails_resolve_bind nofun
  | .markedTerm _ _, _, _, _, _ => iff_of_false not_fails_resolve_bind nofun
  | .frequentTerm _ _ _, _, _, _, _ => iff_of_false not_fails_resolve_bind nofun
  | .boost q _, scored, _, c, e => fails_weight_iff s q scored _ c e
  | .boolean clauses, scored, boost, c, e =>
    fails_map_iff (fails_clauseWeights_iff s clauses scored boost c e)
  | .nothing, _, _, _, _ => iff_of_false not_fails_pure nofun
  | .multiTerm _, _, _, _, _ => fails_throw.trans Option.some_inj.symm
  | .spanMultiTerm _, _, _, _, _ => fails_throw.trans Option.some_inj.symm
  | .deferred _ _, _, _, _, _ => fails_throw.trans Option.some_inj.symm
  | .spanTerm _, scored, boost, c, e => fails_spansWeight_iff s _ scored boost c e
  | .frequentSpanTerm _ _ _, scored, boost, c, e => fails_spansWeight_iff s _ scored boost c e
  | .spanOr _ _, scored, boost, c, e => fails_spansWeight_iff s _ scored boost c e
  | .spanNear _ _ _ _, scored, boost, c, e => fails_spansWeight_iff s _ scored boost c e
  | .withoutPayload _, scored, boost, c, e => fails_spansWeight_iff s _ scored boost c e
  | .frequentSpan _ _, scored, boost, c, e => fails_spansWeight_iff s _ scored boost c e

/-- Binding clauses fails exactly as the first of them that fails. -/
theorem fails_clauseWeights_iff (s : Snapshot) :
    ∀ (clauses : List (Occur × Query)) (scored : Bool) (boost : R) (c : LookupCache) (e : Fault),
      Fails (clauseWeights s scored boost clauses) c e ↔
        Query.firstBindingFault? clauses = some e
  | [], _, _, _, _ => iff_of_false not_fails_pure nofun
  | (_, q) :: clauses, scored, boost, c, _ =>
    fails_cons_iff (fails_weight_iff s q _ boost c) (fails_clauseWeights_iff s clauses scored boost)

end

end Weighing

namespace Query

theorem firstSpanBindingFault?_eq_none_iff {qs : List Query} :
    firstSpanBindingFault? qs = none ↔ ∀ q ∈ qs, q.spanBindingFault? = none := by
  induction qs with
  | nil => simp [firstSpanBindingFault?]
  | cons q qs ih => rw [firstSpanBindingFault?, Option.or_eq_none_iff, ih, List.forall_mem_cons]

theorem firstBindingFault?_eq_none_iff {clauses : List (Occur × Query)} :
    firstBindingFault? clauses = none ↔ ∀ c ∈ clauses, c.2.bindingFault? = none := by
  induction clauses with
  | nil => simp [firstBindingFault?]
  | cons c clauses ih => rw [firstBindingFault?, Option.or_eq_none_iff, ih, List.forall_mem_cons]

/-- Where nothing has to be grounded the places of a span query that could have been built can be
bound. -/
theorem Built.spanBindingFault? {q : Query} (h : q.Built) (hbound : q.hasNode isUnbound = false)
    {field : String} (hfield : q.spanField? = some field) : q.spanBindingFault? = none := by
  induction h generalizing field with
  | @atom q hatom =>
    rw [hasNode_atom hatom] at hbound
    cases q with
    | spanTerm => rfl
    | frequentSpanTerm => rfl
    | spanMultiTerm => cases hbound
    | spanOr => cases hatom
    | spanNear => cases hatom
    | withoutPayload => cases hatom
    | frequentSpan => cases hatom
    | deferred => cases hatom
    | _ => cases hfield
  | boost => cases hfield
  | boolean => cases hfield
  | spanOr _ hfields ih =>
    refine firstSpanBindingFault?_eq_none_iff.2 fun q hq => ?_
    exact ih q hq ((hasNode_spanOr rfl).1 hbound q hq) (hfields q hq)
  | spanNear _ _ _ hfields _ ih =>
    refine firstSpanBindingFault?_eq_none_iff.2 fun q hq => ?_
    exact ih q hq ((hasNode_spanNear rfl).1 hbound q hq) (hfields q hq)
  | withoutPayload _ hinner ih => exact ih hbound hinner
  | frequentSpan _ _ hinner ih => exact ih hbound hinner
  | deferred => cases hbound

/-- Where nothing has to be grounded a query that could have been built can be bound. -/
theorem Built.bindingFault? {q : Query} (h : q.Built) (hbound : q.hasNode isUnbound = false) :
    q.bindingFault? = none := by
  induction h with
  | @atom q hatom =>
    rw [hasNode_atom hatom] at hbound
    cases q with
    | multiTerm => cases hbound
    | spanMultiTerm => cases hbound
    | boost => cases hatom
    | boolean => cases hatom
    | spanOr => cases hatom
    | spanNear => cases hatom
    | withoutPayload => cases hatom
    | frequentSpan => cases hatom
    | deferred => cases hatom
    | _ => rfl
  | boost _ _ ih => exact ih hbound
  | boolean _ ih =>
    refine firstBindingFault?_eq_none_iff.2 fun c hc => ?_
    exact ih c hc ((hasNode_boolean rfl).1 hbound c hc)
  | spanOr h hfields =>
    exact (Built.spanOr h hfields).spanBindingFault? hbound (rfl : _ = some _)
  | spanNear slop inOrder h hfields hsome =>
    exact (Built.spanNear slop inOrder h hfields hsome).spanBindingFault? hbound (rfl : _ = some _)
  | withoutPayload h hfield => exact (Built.withoutPayload h hfield).spanBindingFault? hbound hfield
  | frequentSpan least h hfield =>
    exact (Built.frequentSpan least h hfield).spanBindingFault? hbound hfield
  | deferred => cases hbound

end Query

/-- A query that could have been built is bound once nothing in it has to be grounded. -/
theorem Weighing.exists_yields_weight_of_built {R : Type} [ScoreNumber R] (s : Snapshot) {q : Query}
    (hq : q.Built) (hbound : q.hasNode Query.isUnbound = false) (scored : Bool) (boost : R)
    (c : LookupCache) : ∃ w c', Yields (weight s scored boost q) c w c' := by
  refine exists_yields_of_not_fails fun e h => ?_
  rw [fails_weight_iff, hq.bindingFault? hbound] at h
  cases h

end TextSearch
