import Mathlib.Data.List.Forall2
import TextSearch.Posting.Basic
import TextSearch.Total

/-!
# Trails

A trail is what a cursor would show if it were walked from its place to its end:
the documents in ascending order, each with what is found there. A document may
come up more than once in a row. This file says what a skip leaves of a trail,
and how the trails of several cursors are joined by union and by meeting. That
the cursors of an index walk such trails is proved in the files that follow.
-/

namespace TextSearch

/-- A document at which a cursor stops, and what it shows there. -/
structure Visit (β : Type) where
  /-- The document. -/
  doc : Nat
  /-- What is found in it. -/
  shown : β

/-- The visits ahead of a cursor, in the order in which it makes them. -/
abbrev Trail (β : Type) := List (Visit β)

/-- A relation between two lists, element by element, may be weakened for the members of the
first one. -/
theorem forall₂_imp_of_mem {α β : Type} {P Q : α → β → Prop} {as : List α} {bs : List β}
    (h : List.Forall₂ P as bs) (himp : ∀ a ∈ as, ∀ b, P a b → Q a b) : List.Forall₂ Q as bs := by
  induction h with
  | nil => exact .nil
  | cons hab _ ih =>
    obtain ⟨ha, has⟩ := List.forall_mem_cons.1 himp
    exact .cons (ha _ hab) (ih has)

namespace Trail

variable {β γ : Type}

/-- The documents never fall, and none of them is the mark of the end. -/
structure Sound (t : Trail β) : Prop where
  /-- The documents never fall. -/
  ascending : t.Pairwise fun u v => u.doc ≤ v.doc
  /-- Every document is a real one. -/
  bounded : ∀ v ∈ t, v.doc < endOfDocs

/-- The documents of a trail. -/
def docs (t : Trail β) : List Nat := t.map (·.doc)

/-- What a skip to a document leaves of a trail. -/
def since (d : Nat) (t : Trail β) : Trail β := t.dropWhile fun v => decide (v.doc < d)

/-- Whether a trail begins with a document. -/
def begins (d : Nat) (t : Trail β) : Bool := t.head?.any fun v => v.doc == d

/-- The document that a trail begins with, and the mark of the end if there is none. -/
def firstDoc (t : Trail β) : Nat := t.head?.elim endOfDocs (·.doc)

/-- What is shown on the first visit to a document. -/
def at? (d : Nat) (t : Trail β) : Option β := (t.find? fun v => v.doc == d).map (·.shown)

/-- The same visits, showing something else. -/
def showing (f : β → γ) (t : Trail β) : Trail γ := t.map fun v => ⟨v.doc, f v.shown⟩

/-- The visits that show something after a choice, showing what was chosen. -/
def choosing (f : β → List γ) (t : Trail β) : Trail (List γ) :=
  t.filterMap fun v =>
    match f v.shown with
    | [] => none
    | kept => some ⟨v.doc, kept⟩

theorem Sound.nil : Sound ([] : Trail β) := ⟨.nil, by simp⟩

theorem Sound.tail {v : Visit β} {t : Trail β} (h : Sound (v :: t)) : Sound t :=
  ⟨(List.pairwise_cons.1 h.ascending).2, fun u hu => h.bounded u (List.mem_cons_of_mem _ hu)⟩

/-- The first visit of a sound trail is to its least document. -/
theorem Sound.head_le {v u : Visit β} {t : Trail β} (h : Sound (v :: t)) (hu : u ∈ v :: t) :
    v.doc ≤ u.doc := by
  rcases List.mem_cons.1 hu with rfl | hu
  · exact Nat.le_refl _
  · exact (List.pairwise_cons.1 h.ascending).1 u hu

/-- Whatever keeps the order of the visits and adds none keeps a trail sound. -/
theorem Sound.sublist {s t : Trail β} (h : Sound t) (hs : s.Sublist t) : Sound s :=
  ⟨h.ascending.sublist hs, fun v hv => h.bounded v (hs.subset hv)⟩

/-- Soundness is a matter of the documents alone. -/
theorem sound_iff_docs {t : Trail β} :
    t.Sound ↔ t.docs.Pairwise (· ≤ ·) ∧ ∀ d ∈ t.docs, d < endOfDocs := by
  constructor
  · intro h
    exact ⟨List.pairwise_map.2 h.ascending, by simpa [docs] using h.bounded⟩
  · rintro ⟨hasc, hbound⟩
    exact ⟨List.pairwise_map.1 hasc, by simpa [docs] using hbound⟩

@[simp] theorem docs_nil : docs ([] : Trail β) = [] := rfl

@[simp] theorem docs_cons (v : Visit β) (t : Trail β) : docs (v :: t) = v.doc :: docs t := rfl

@[simp] theorem begins_nil (d : Nat) : begins d ([] : Trail β) = false := rfl

@[simp] theorem begins_cons (d : Nat) (v : Visit β) (t : Trail β) :
    begins d (v :: t) = (v.doc == d) := rfl

@[simp] theorem firstDoc_nil : firstDoc ([] : Trail β) = endOfDocs := rfl

@[simp] theorem firstDoc_cons (v : Visit β) (t : Trail β) : firstDoc (v :: t) = v.doc := rfl

theorem mem_docs {d : Nat} {t : Trail β} : d ∈ t.docs ↔ ∃ v ∈ t, v.doc = d := by
  simp [docs]

@[simp] theorem showing_nil (f : β → γ) : showing f ([] : Trail β) = [] := rfl

@[simp] theorem showing_cons (f : β → γ) (v : Visit β) (t : Trail β) :
    showing f (v :: t) = ⟨v.doc, f v.shown⟩ :: showing f t := rfl

@[simp] theorem docs_showing (f : β → γ) (t : Trail β) : (t.showing f).docs = t.docs := by
  simp [docs, showing]

theorem docs_choosing_sublist (f : β → List γ) (t : Trail β) :
    (t.choosing f).docs.Sublist t.docs := by
  induction t with
  | nil => exact .slnil
  | cons v t ih =>
    rw [choosing, List.filterMap_cons]
    split
    · exact ih.cons _
    · next w hw =>
      split at hw
      · cases hw
      · cases hw
        exact ih.cons_cons _

theorem Sound.showing {t : Trail β} (h : t.Sound) (f : β → γ) : (t.showing f).Sound := by
  rw [sound_iff_docs, docs_showing, ← sound_iff_docs]
  exact h

theorem Sound.choosing {t : Trail β} (h : t.Sound) (f : β → List γ) : (t.choosing f).Sound := by
  have hdocs := sound_iff_docs.1 h
  have hsub := docs_choosing_sublist f t
  exact sound_iff_docs.2 ⟨hdocs.1.sublist hsub, fun d hd => hdocs.2 d (hsub.subset hd)⟩

/-! ### Skipping -/

@[simp] theorem since_nil (d : Nat) : since d ([] : Trail β) = [] := rfl

theorem since_cons (d : Nat) (v : Visit β) (t : Trail β) :
    since d (v :: t) = if v.doc < d then since d t else v :: t := by
  rw [since, List.dropWhile_cons]
  simp only [decide_eq_true_eq]
  rfl

theorem since_sublist (d : Nat) (t : Trail β) : (since d t).Sublist t :=
  List.dropWhile_sublist _

theorem Sound.since {t : Trail β} (h : t.Sound) (d : Nat) : (t.since d).Sound :=
  h.sublist (since_sublist d t)

/-- On a sound trail a skip leaves exactly the visits that are not before the target. -/
theorem Sound.since_eq_filter {t : Trail β} (h : t.Sound) (d : Nat) :
    t.since d = t.filter fun v => decide (d ≤ v.doc) := by
  induction t with
  | nil => rfl
  | cons v t ih =>
    rw [since_cons]
    split
    · next hlt =>
      rw [ih h.tail, List.filter_cons_of_neg (by simpa using hlt)]
    · next hge =>
      refine (List.filter_eq_self.2 fun u hu => ?_).symm
      have := h.head_le hu
      simp only [decide_eq_true_eq]
      omega

theorem Sound.mem_since {t : Trail β} (h : t.Sound) {d : Nat} {v : Visit β} :
    v ∈ t.since d ↔ v ∈ t ∧ d ≤ v.doc := by
  rw [h.since_eq_filter]
  simp

/-- A skip to a document that no visit is before leaves the trail as it is. -/
theorem since_eq_self {d : Nat} {t : Trail β} (h : ∀ v ∈ t, d ≤ v.doc) : t.since d = t := by
  cases t with
  | nil => rfl
  | cons v t =>
    rw [since_cons, if_neg]
    have := h v (List.mem_cons_self ..)
    omega

/-- Of two skips in a row to ever later documents only the second one counts. -/
theorem since_since {d e : Nat} (h : d ≤ e) (t : Trail β) : (t.since d).since e = t.since e := by
  induction t with
  | nil => rfl
  | cons v t ih =>
    rw [since_cons d]
    split
    · rw [ih, since_cons e, if_pos (by omega)]
    · rfl

/-- A skip to a document that a sound trail does not begin before leaves it as it is. -/
theorem Sound.since_of_le_firstDoc {t : Trail β} (h : t.Sound) {d : Nat} (hd : d ≤ t.firstDoc) :
    t.since d = t := by
  cases t with
  | nil => rfl
  | cons v t => exact since_eq_self fun u hu => Nat.le_trans hd (h.head_le hu)

/-- A sound trail begins with a document if that is its first one. -/
theorem Sound.beq_firstDoc {t : Trail β} {d : Nat} (hd : d < endOfDocs) :
    (t.firstDoc == d) = t.begins d := by
  cases t with
  | nil => exact beq_eq_false_iff_ne.2 (by rw [firstDoc_nil]; omega)
  | cons v t => rfl

theorem Sound.firstDoc_lt_iff {t : Trail β} (h : t.Sound) :
    t.firstDoc < endOfDocs ↔ t ≠ [] := by
  cases t with
  | nil => simp
  | cons v t => simpa using h.bounded v (List.mem_cons_self ..)

theorem le_of_mem_since {t : Trail β} (h : t.Sound) {d : Nat} {v : Visit β}
    (hv : v ∈ t.since d) : d ≤ v.doc := (h.mem_since.1 hv).2

@[simp] theorem docs_since (d : Nat) (t : Trail β) :
    (t.since d).docs = t.docs.dropWhile fun e => decide (e < d) := by
  rw [docs, docs, List.dropWhile_map]
  rfl

theorem showing_since (f : β → γ) (d : Nat) (t : Trail β) :
    (t.since d).showing f = (t.showing f).since d := by
  rw [showing, showing, since, since, List.dropWhile_map]
  rfl

theorem choosing_cons (f : β → List γ) (v : Visit β) (t : Trail β) :
    choosing f (v :: t) =
      if f v.shown = [] then choosing f t else ⟨v.doc, f v.shown⟩ :: choosing f t := by
  rw [choosing, List.filterMap_cons]
  cases f v.shown <;> rfl

/-- A choice that leaves something of everything only changes what is shown. -/
theorem choosing_eq_showing {f : β → List γ} {t : Trail β} (h : ∀ v ∈ t, f v.shown ≠ []) :
    t.choosing f = t.showing f := by
  induction t with
  | nil => rfl
  | cons v t ih =>
    obtain ⟨hv, ht⟩ := List.forall_mem_cons.1 h
    rw [choosing_cons, if_neg hv, ih ht, showing_cons]

/-- Choosing and skipping may be done in any order. -/
theorem Sound.choosing_since {t : Trail β} (h : t.Sound) (f : β → List γ) (d : Nat) :
    (t.since d).choosing f = (t.choosing f).since d := by
  induction t with
  | nil => rfl
  | cons v t ih =>
    rw [since_cons]
    split
    · next hlt =>
      rw [ih h.tail, choosing_cons]
      split
      · rfl
      · rw [since_cons, if_pos hlt]
    · next hge =>
      refine (since_eq_self fun u hu => ?_).symm
      obtain ⟨w, hw, hdoc⟩ := List.mem_map.1
        ((docs_choosing_sublist f (v :: t)).subset (List.mem_map_of_mem (f := (·.doc)) hu))
      have := h.head_le hw
      omega

/-- What a choice shows was chosen on a visit to the same document. -/
theorem mem_choosing {f : β → List γ} {t : Trail β} {v : Visit (List γ)} :
    v ∈ t.choosing f ↔ ∃ u ∈ t, u.doc = v.doc ∧ f u.shown = v.shown ∧ v.shown ≠ [] := by
  obtain ⟨d, cs⟩ := v
  induction t with
  | nil => simp [choosing]
  | cons u t ih =>
    rw [choosing_cons, List.exists_mem_cons_iff]
    split
    · next hnil =>
      rw [ih, hnil]
      constructor
      · exact .inr
      · rintro (⟨-, hcs, hne⟩ | h)
        · exact absurd hcs.symm hne
        · exact h
    · next hne =>
      rw [List.mem_cons, ih]
      refine or_congr_left ⟨fun heq => ?_, fun ⟨(hd : u.doc = d), (hcs : f u.shown = cs), _⟩ => ?_⟩
      · cases heq
        exact ⟨rfl, rfl, hne⟩
      · rw [hd, hcs]

theorem length_choosing_le (f : β → List γ) (t : Trail β) :
    (t.choosing f).length ≤ t.length :=
  List.length_filterMap_le _ _

/-! ### First visits -/

@[simp] theorem at?_nil (d : Nat) : at? d ([] : Trail β) = none := rfl

theorem at?_cons (d : Nat) (v : Visit β) (t : Trail β) :
    at? d (v :: t) = if v.doc = d then some v.shown else at? d t := by
  rw [at?, List.find?_cons]
  by_cases h : v.doc = d
  · simp [h]
  · simp [h, beq_eq_false_iff_ne.2 h, at?]

theorem at?_eq_none_iff {d : Nat} {t : Trail β} : t.at? d = none ↔ d ∉ t.docs := by
  induction t with
  | nil => simp
  | cons v t ih =>
    rw [at?_cons]
    by_cases h : v.doc = d
    · simp [h]
    · simp [h, ih, Ne.symm h]

theorem isSome_at?_iff {d : Nat} {t : Trail β} : (t.at? d).isSome ↔ d ∈ t.docs := by
  rw [Option.isSome_iff_ne_none, ne_eq, at?_eq_none_iff, not_not]

theorem mem_of_at?_eq_some {d : Nat} {t : Trail β} {b : β} (h : t.at? d = some b) :
    ⟨d, b⟩ ∈ t := by
  induction t with
  | nil => simp at h
  | cons v t ih =>
    rw [at?_cons] at h
    split at h
    · next hd =>
      cases h
      subst hd
      exact List.mem_cons_self ..
    · exact List.mem_cons_of_mem _ (ih h)

/-- A skip does not change the first visit to a document that is not before its target. -/
theorem at?_since {d e : Nat} (h : d ≤ e) (t : Trail β) : (t.since d).at? e = t.at? e := by
  induction t with
  | nil => rfl
  | cons v t ih =>
    rw [since_cons]
    split
    · next hlt => rw [ih, at?_cons, if_neg (by omega)]
    · rfl

theorem Sound.mem_docs_since {t : Trail β} (h : t.Sound) {d e : Nat} :
    e ∈ (t.since d).docs ↔ e ∈ t.docs ∧ d ≤ e := by
  rw [mem_docs, mem_docs]
  constructor
  · rintro ⟨v, hv, rfl⟩
    obtain ⟨hv, hle⟩ := h.mem_since.1 hv
    exact ⟨⟨v, hv, rfl⟩, hle⟩
  · rintro ⟨⟨v, hv, rfl⟩, hle⟩
    exact ⟨v, h.mem_since.2 ⟨hv, hle⟩, rfl⟩

/-- A trail that does not begin before a document visits it only if it begins with it. -/
theorem Sound.mem_docs_iff_firstDoc {t : Trail β} (h : t.Sound) {d : Nat} (hd : d < endOfDocs)
    (hle : d ≤ t.firstDoc) : d ∈ t.docs ↔ t.firstDoc = d := by
  cases t with
  | nil =>
    have hne : endOfDocs ≠ d := by omega
    simp [hne]
  | cons v t =>
    constructor
    · intro hmem
      obtain ⟨u, hu, hud⟩ := mem_docs.1 hmem
      exact Nat.le_antisymm (hud ▸ h.head_le hu) hle
    · intro heq
      exact mem_docs.2 ⟨v, List.mem_cons_self .., heq⟩

theorem Sound.le_firstDoc_since {t : Trail β} (h : t.Sound) {d : Nat} (hd : d ≤ endOfDocs) :
    d ≤ (t.since d).firstDoc := by
  cases hsince : Trail.since d t with
  | nil => exact hd
  | cons v s => exact le_of_mem_since h (hsince ▸ List.mem_cons_self ..)

end Trail

end TextSearch
