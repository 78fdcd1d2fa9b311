import TextSearch.Proofs.Index.Lookup
import TextSearch.Proofs.Outcome
import TextSearch.Search.Weighing

/-!
# Results of weighing

Weighing looks terms up and may fail. `Weighing.Yields` says what it comes to from
a state of the shared lookups when it does not fail, and `Weighing.Fails` how it fails.
Both are taken apart along the steps of a computation.
-/

namespace TextSearch

namespace Weighing

variable {α β : Type} {c c' : LookupCache}

/-- Weighing comes to a result and to new shared lookups. -/
def Yields (m : Weighing α) (c : LookupCache) (a : α) (c' : LookupCache) : Prop :=
  m.run.run c = (.ok a, c')

/-- Weighing fails. -/
def Fails (m : Weighing α) (c : LookupCache) (e : Fault) : Prop :=
  (m.run.run c).1 = .error e

/-- A computation that does not fail comes to a result. -/
theorem exists_yields {m : Weighing α} {c : LookupCache} (h : (m.run.run c).1.isOk = true) :
    ∃ a c', Yields m c a c' := by
  rcases hm : m.run.run c with ⟨a | a, c'⟩
  · rw [hm] at h
    cases h
  · exact ⟨a, c', hm⟩

theorem yields_pure {a b : α} : Yields (pure a) c b c' ↔ b = a ∧ c' = c := by
  simp only [Yields]
  constructor
  · intro h
    cases h
    exact ⟨rfl, rfl⟩
  · rintro ⟨rfl, rfl⟩
    rfl

theorem run_bind (m : Weighing α) (f : α → Weighing β) (c : LookupCache) :
    (m >>= f).run.run c =
      match m.run.run c with
      | (.ok a, c₁) => (f a).run.run c₁
      | (.error e, c₁) => (.error e, c₁) := by
  simp only [bind, ExceptT.bind, ExceptT.mk, ExceptT.run, StateT.run, StateT.bind]
  cases (m c : Except Fault α × LookupCache) with
  | mk outcome c₁ => cases outcome <;> rfl

theorem yields_bind {m : Weighing α} {f : α → Weighing β} {b : β} :
    Yields (m >>= f) c b c' ↔ ∃ a c₁, Yields m c a c₁ ∧ Yields (f a) c₁ b c' := by
  simp only [Yields, run_bind]
  cases hm : m.run.run c with
  | mk outcome c₁ =>
    constructor
    · intro h
      cases outcome with
      | error e => cases h
      | ok a => exact ⟨a, c₁, rfl, h⟩
    · rintro ⟨a, c₂, heq, h⟩
      cases heq
      exact h

theorem yields_lift {x : Except Fault α} {a : α} :
    Yields (x : Weighing α) c a c' ↔ x = .ok a ∧ c' = c := by
  cases x with
  | error e =>
    simp only [Yields, reduceCtorEq, false_and, iff_false]
    intro h
    cases h
  | ok b =>
    simp only [Yields]
    constructor
    · intro h
      cases h
      exact ⟨rfl, rfl⟩
    · rintro ⟨h, rfl⟩
      cases h
      rfl

theorem not_yields_throw {e : Fault} {a : α} : ¬ Yields (throw e : Weighing α) c a c' := by
  intro h
  cases h

/-- A computation that fails in no way comes to a result. -/
theorem exists_yields_of_not_fails {m : Weighing α} {c : LookupCache} (h : ∀ e, ¬ Fails m c e) :
    ∃ a c', Yields m c a c' := by
  rcases hm : m.run.run c with ⟨e | a, c'⟩
  · exact absurd (congrArg Prod.fst hm) (h e)
  · exact ⟨a, c', hm⟩

theorem not_fails_of_yields {m : Weighing α} {c c' : LookupCache} {a : α} {e : Fault}
    (h : Yields m c a c') : ¬ Fails m c e := by
  intro hfails
  rw [Fails, h] at hfails
  cases hfails

theorem fails_bind {m : Weighing α} {f : α → Weighing β} {e : Fault} :
    Fails (m >>= f) c e ↔ Fails m c e ∨ ∃ a c₁, Yields m c a c₁ ∧ Fails (f a) c₁ e := by
  simp only [Fails, Yields, run_bind]
  cases m.run.run c with
  | mk outcome c₁ =>
    constructor
    · intro h
      cases outcome with
      | error =>
        cases h
        exact .inl rfl
      | ok a => exact .inr ⟨a, c₁, rfl, h⟩
    · rintro (h | ⟨a, c₂, heq, h⟩)
      · cases outcome with
        | error =>
          cases h
          rfl
        | ok => cases h
      · cases heq
        exact h

theorem not_fails_pure {a : α} {e : Fault} : ¬ Fails (pure a : Weighing α) c e := by
  intro h
  cases h

theorem fails_throw {e e' : Fault} : Fails (throw e : Weighing α) c e' ↔ e = e' := by
  constructor
  · intro h
    cases h
    rfl
  · rintro rfl
    rfl

theorem fails_lift {x : Except Fault α} {e : Fault} : Fails (x : Weighing α) c e ↔ x = .error e := by
  cases x with
  | error e' =>
    constructor
    · intro h
      cases h
      rfl
    · intro h
      cases h
      rfl
  | ok a =>
    constructor
    · intro h
      cases h
    · intro h
      cases h

/-- Where only the first of two computations can fail, both together fail like it. -/
theorem fails_bind_iff_left {m : Weighing α} {f : α → Weighing β} {e : Fault}
    (hf : ∀ a c₁, ¬ Fails (f a) c₁ e) : Fails (m >>= f) c e ↔ Fails m c e := by
  rw [fails_bind]
  constructor
  · rintro (h | ⟨a, c₁, -, h⟩)
    · exact h
    · exact absurd h (hf a c₁)
  · exact .inl

/-- Resolving a term does not fail. -/
theorem not_fails_resolve {s : Snapshot} {t : Term} {carried : Option TermLookup} {counted : Bool}
    {e : Fault} : ¬ Fails (resolve s t carried counted) c e := by
  intro h
  cases h

/-- A term is resolved to a lookup that serves, and the shared lookups stay sound. -/
theorem yields_resolve {s : Snapshot} {t : Term} {carried : Option TermLookup} {counted : Bool}
    {l : TermLookup} (hc : c.Sound s) (hcarried : TermLookup.Honest s t carried)
    (h : Yields (resolve s t carried counted) c l c') :
    LookupCache.Serves s t counted l ∧ c'.Sound s := by
  have hresolve := LookupCache.sound_resolve hc hcarried counted
  have hl : (c.resolve s t carried counted).1.2 = l ∧ (c.resolve s t carried counted).2 = c' := by
    cases h
    exact ⟨rfl, rfl⟩
  rwa [hl.1, hl.2] at hresolve

end Weighing

end TextSearch
