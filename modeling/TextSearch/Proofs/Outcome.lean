/-!
# Outcomes

A computation that may fail ends with a result or with a fault. What it ends with is
taken apart along its steps.
-/

namespace TextSearch

variable {ε α β : Type}

/-- A computation that may fail comes to a result only if its first step does, and then what
follows. -/
theorem except_bind_eq_ok {x : Except ε α} {f : α → Except ε β} {b : β} :
    (x >>= f) = .ok b ↔ ∃ a, x = .ok a ∧ f a = .ok b := by
  cases x with
  | error e => simp [bind, Except.bind]
  | ok a => simp [bind, Except.bind]

theorem except_map_eq_ok {x : Except ε α} {f : α → β} {b : β} :
    f <$> x = .ok b ↔ ∃ a, x = .ok a ∧ f a = b := by
  cases x with
  | error e => simp [Functor.map, Except.map]
  | ok a => simp [Functor.map, Except.map]

/-- A computation fails where its first step does, or else what follows. -/
theorem except_bind_eq_error {x : Except ε α} {f : α → Except ε β} {e : ε} :
    (x >>= f) = .error e ↔ x = .error e ∨ ∃ a, x = .ok a ∧ f a = .error e := by
  cases x with
  | error e => simp [bind, Except.bind]
  | ok a => simp [bind, Except.bind]

theorem except_map_eq_error {x : Except ε α} {f : α → β} {e : ε} :
    f <$> x = .error e ↔ x = .error e := by
  cases x with
  | error e => simp [Functor.map, Except.map]
  | ok a => simp [Functor.map, Except.map]

/-- What is made of the results of a run over a list may be made of them one by one. -/
theorem except_map_mapM {α β γ : Type} (p : β → γ) (f : α → Except ε β) (xs : List α) :
    List.map p <$> xs.mapM f = xs.mapM fun x => p <$> f x := by
  induction xs with
  | nil => rfl
  | cons x xs ih =>
    rw [List.mapM_cons, List.mapM_cons, ← ih]
    cases f x with
    | error => rfl
    | ok b => cases xs.mapM f <;> rfl

/-- Runs over a list that agree member by member on what is made of their results agree as a whole;
where they fail they do so at the same member. -/
theorem except_mapM_congr {α β γ δ : Type} {f : α → Except ε β} {f' : α → Except ε γ}
    {p : β → δ} {p' : γ → δ} {xs : List α} (h : ∀ x ∈ xs, p <$> f x = p' <$> f' x) :
    List.map p <$> xs.mapM f = List.map p' <$> xs.mapM f' := by
  rw [except_map_mapM, except_map_mapM]
  induction xs with
  | nil => rfl
  | cons x xs ih =>
    obtain ⟨hx, hxs⟩ := List.forall_mem_cons.1 h
    rw [List.mapM_cons, List.mapM_cons, hx, ih hxs]

/-- A run over a list in which no member fails gives the results of its members. -/
theorem except_mapM_eq_ok {f : α → Except ε β} {g : α → β} {xs : List α}
    (h : ∀ x ∈ xs, f x = .ok (g x)) : xs.mapM f = .ok (xs.map g) := by
  induction xs with
  | nil => rfl
  | cons x xs ih =>
    obtain ⟨hx, hxs⟩ := List.forall_mem_cons.1 h
    rw [List.mapM_cons, hx, ih hxs]
    rfl

/-! ### Comparing outcomes -/

/-- Two computations concur: both fail, in whatever way, or both come to results that are
related. -/
inductive Concur (rel : α → β → Prop) : Except ε α → Except ε β → Prop
  | ok {a : α} {b : β} (h : rel a b) : Concur rel (.ok a) (.ok b)
  | error (e e' : ε) : Concur rel (.error e) (.error e')

theorem concur_refl {rel : α → α → Prop} (h : ∀ a, rel a a) (x : Except ε α) : Concur rel x x := by
  cases x with
  | error e => exact .error e e
  | ok a => exact .ok (h a)

/-- Computations concur if one of them comes to a result wherever the other one does. -/
theorem concur_of_ok {rel : α → β → Prop} {x : Except ε α} {y : Except ε β}
    (h : ∀ a, x = .ok a → ∃ b, y = .ok b ∧ rel a b) (h' : ∀ b, y = .ok b → ∃ a, x = .ok a) :
    Concur rel x y := by
  cases x with
  | ok a =>
    obtain ⟨b, rfl, hab⟩ := h a rfl
    exact .ok hab
  | error e =>
    cases y with
    | ok b =>
      obtain ⟨a, ha⟩ := h' b rfl
      cases ha
    | error e' => exact .error e e'

namespace Concur

variable {γ δ : Type} {rel : α → β → Prop} {rel' : γ → δ → Prop} {x : Except ε α} {y : Except ε β}

/-- Computations concur if their first steps do, and then what follows. -/
theorem bind_of_ok (h : Concur rel x y) {f : α → Except ε γ} {g : β → Except ε δ}
    (hf : ∀ a b, x = .ok a → y = .ok b → rel a b → Concur rel' (f a) (g b)) :
    Concur rel' (x >>= f) (y >>= g) := by
  cases h with
  | ok hab => exact hf _ _ rfl rfl hab
  | error e e' => exact .error e e'

theorem bind (h : Concur rel x y) {f : α → Except ε γ} {g : β → Except ε δ}
    (hf : ∀ a b, rel a b → Concur rel' (f a) (g b)) : Concur rel' (x >>= f) (y >>= g) :=
  h.bind_of_ok fun a b _ _ => hf a b

theorem map (h : Concur rel x y) {f : α → γ} {g : β → δ}
    (hf : ∀ a b, rel a b → rel' (f a) (g b)) : Concur rel' (f <$> x) (g <$> y) := by
  cases h with
  | ok hab => exact .ok (hf _ _ hab)
  | error e e' => exact .error e e'

/-- What is known of the first result may be added to the relation. -/
theorem mono_of_ok (h : Concur rel x y) {rel' : α → β → Prop}
    (hrel : ∀ a b, x = .ok a → rel a b → rel' a b) : Concur rel' x y := by
  cases h with
  | ok hab => exact .ok (hrel _ _ rfl hab)
  | error e e' => exact .error e e'

theorem exists_ok (h : Concur rel x y) {a : α} (hx : x = .ok a) : ∃ b, y = .ok b ∧ rel a b := by
  subst hx
  cases h with
  | ok hab => exact ⟨_, rfl, hab⟩

theorem exists_ok' (h : Concur rel x y) {b : β} (hy : y = .ok b) : ∃ a, x = .ok a ∧ rel a b := by
  subst hy
  cases h with
  | ok hab => exact ⟨_, rfl, hab⟩

end Concur

/-- Two computations go in tandem: both fail, with faults that are related, or both come to results
that are related. -/
inductive Tandem (faults : ε → ε → Prop) (rel : α → β → Prop) : Except ε α → Except ε β → Prop
  | ok {a : α} {b : β} (h : rel a b) : Tandem faults rel (.ok a) (.ok b)
  | error {e e' : ε} (h : faults e e') : Tandem faults rel (.error e) (.error e')

theorem tandem_refl {faults : ε → ε → Prop} {rel : α → α → Prop} (hfaults : ∀ e, faults e e)
    (hrel : ∀ a, rel a a) (x : Except ε α) : Tandem faults rel x x := by
  cases x with
  | error e => exact .error (hfaults e)
  | ok a => exact .ok (hrel a)

namespace Tandem

variable {γ δ : Type} {faults : ε → ε → Prop} {rel : α → β → Prop} {rel' : γ → δ → Prop}
  {x : Except ε α} {y : Except ε β}

/-- Computations go in tandem if their first steps do, and then what follows. -/
theorem bind_of_ok (h : Tandem faults rel x y) {f : α → Except ε γ} {g : β → Except ε δ}
    (hf : ∀ a b, x = .ok a → y = .ok b → rel a b → Tandem faults rel' (f a) (g b)) :
    Tandem faults rel' (x >>= f) (y >>= g) := by
  cases h with
  | ok hab => exact hf _ _ rfl rfl hab
  | error he => exact .error he

theorem map (h : Tandem faults rel x y) {f : α → γ} {g : β → δ}
    (hf : ∀ a b, rel a b → rel' (f a) (g b)) : Tandem faults rel' (f <$> x) (g <$> y) := by
  cases h with
  | ok hab => exact .ok (hf _ _ hab)
  | error he => exact .error he

/-- What is known of the results may be added to the relation. -/
theorem mono_of_ok (h : Tandem faults rel x y) {rel' : α → β → Prop}
    (hrel : ∀ a b, x = .ok a → y = .ok b → rel a b → rel' a b) : Tandem faults rel' x y := by
  cases h with
  | ok hab => exact .ok (hrel _ _ rfl rfl hab)
  | error he => exact .error he

theorem ok_or_error (h : Tandem faults rel x y) :
    (∃ a b, x = .ok a ∧ y = .ok b ∧ rel a b) ∨
      ∃ e e', x = .error e ∧ y = .error e' ∧ faults e e' := by
  cases h with
  | ok hab => exact .inl ⟨_, _, rfl, rfl, hab⟩
  | error he => exact .inr ⟨_, _, rfl, rfl, he⟩

theorem exists_ok (h : Tandem faults rel x y) {b : β} (hy : y = .ok b) :
    ∃ a, x = .ok a ∧ rel a b := by
  subst hy
  cases h with
  | ok hab => exact ⟨_, rfl, hab⟩

theorem exists_error (h : Tandem faults rel x y) {e' : ε} (hy : y = .error e') :
    ∃ e, x = .error e ∧ faults e e' := by
  subst hy
  cases h with
  | error he => exact ⟨_, rfl, he⟩

end Tandem

/-- Computations that concur go in tandem as far as the faults that they can come to are related. -/
theorem Concur.tandem {faults : ε → ε → Prop} {rel : α → β → Prop} {x : Except ε α}
    {y : Except ε β} (h : Concur rel x y)
    (hfaults : ∀ e e', x = .error e → y = .error e' → faults e e') : Tandem faults rel x y := by
  cases h with
  | ok hab => exact .ok hab
  | error e e' => exact .error (hfaults e e' rfl rfl)

/-! ### Comparing what need not be there -/

section Options

variable {γ δ : Type} {R : α → β → Prop} {S : γ → δ → Prop}

theorem rel_refl {R : α → α → Prop} (h : ∀ a, R a a) (o : Option α) : Option.Rel R o o := by
  cases o with
  | none => exact .none
  | some a => exact .some (h a)

theorem rel_getD {o : Option α} {o' : Option β} (h : Option.Rel R o o') {a : α} {b : β}
    (hab : R a b) : R (o.getD a) (o'.getD b) := by
  cases h with
  | none => exact hab
  | some h => exact h

theorem rel_map_map {o : Option α} {o' : Option β}
    (h : Option.Rel R o o') {f : α → γ} {g : β → δ} (hf : ∀ a b, R a b → S (f a) (g b)) :
    Option.Rel S (o.map f) (o'.map g) := by
  cases h with
  | none => exact .none
  | some h => exact .some (hf _ _ h)

end Options

end TextSearch
