import Mathlib.Data.List.Forall2
import Mathlib.Data.List.Perm.Basic
import Mathlib.Tactic.Tauto
import TextSearch.Dictionary

/-!
# Dictionaries as maps

A dictionary is known from the values of its keys: `Dictionary.ext_get?`. A dictionary
that collects a list for every key lacks the keys for which nothing was collected;
`nonEmpty?` is the value of a key there. Where the order in which it was collected makes no
difference to what is made of the list, `map_nonEmpty?_of_perm`, it makes none to the dictionary.
-/

namespace TextSearch

/-- Lists of which each has its members in another order have the same members together. -/
theorem perm_flatten_of_forall₂ {α : Type} {ass bss : List (List α)}
    (h : List.Forall₂ List.Perm ass bss) : ass.flatten.Perm bss.flatten := by
  induction h with
  | nil => exact .nil
  | cons hab _ ih => exact hab.append ih

/-- A list, unless it is empty. -/
def nonEmpty? {α : Type} (l : List α) : Option (List α) := if l.isEmpty then none else some l

@[simp] theorem nonEmpty?_nil {α : Type} : nonEmpty? ([] : List α) = none := rfl

@[simp] theorem nonEmpty?_cons {α : Type} (a : α) (l : List α) :
    nonEmpty? (a :: l) = some (a :: l) := rfl

@[simp] theorem nonEmpty?_concat {α : Type} (l : List α) (a : α) :
    nonEmpty? (l ++ [a]) = some (l ++ [a]) := by cases l <;> rfl

@[simp] theorem getD_nonEmpty? {α : Type} (l : List α) : (nonEmpty? l).getD [] = l := by
  cases l <;> rfl

theorem nonEmpty?_eq_none_iff {α : Type} {l : List α} : nonEmpty? l = none ↔ l = [] := by
  cases l <;> simp

theorem nonEmpty?_eq_some_iff {α : Type} {l m : List α} :
    nonEmpty? l = some m ↔ l = m ∧ l ≠ [] := by
  cases l <;> simp

theorem map_nonEmpty?_of_perm {α β : Type} {f : List α → β}
    (hf : ∀ {l m : List α}, l.Perm m → f l = f m) {l m : List α} (h : l.Perm m) :
    (nonEmpty? l).map f = (nonEmpty? m).map f := by
  cases l with
  | nil => rw [h.nil_eq]
  | cons a l =>
    cases m with
    | nil => cases h.eq_nil
    | cons b m => exact congrArg some (hf h)

theorem nonEmpty?_map {α β : Type} (f : α → β) (l : List α) :
    nonEmpty? (l.map f) = (nonEmpty? l).map (List.map f) := by
  cases l <;> rfl

namespace Dictionary

variable {β : Type}

/-! ### Keys -/

theorem mem_keys_iff (d : Dictionary β) (key : String) : key ∈ d.keys ↔ (d.get? key).isSome := by
  rw [keys, get?]
  generalize d.entries = es
  induction es with
  | nil => simp
  | cons e es ih =>
    obtain ⟨k, b⟩ := e
    rw [List.map_cons, List.mem_cons, ih, List.lookup_cons]
    by_cases hk : key = k
    · simp [hk]
    · simp [hk, beq_eq_false_iff_ne.2 hk]

theorem nodup_keys (d : Dictionary β) : d.keys.Nodup :=
  (pairwise_keys.1 d.ascending).imp fun {a b} (hlt : a < b) (heq : a = b) =>
    String.lt_irrefl b (heq ▸ hlt)

theorem mem_keys_ofList {es : List (String × β)} {key : String} :
    key ∈ (ofList es).keys ↔ key ∈ es.map (·.1) := by
  have hfold : ∀ (es : List (String × β)) (d : Dictionary β),
      key ∈ (es.foldl (fun d e => d.insert e.1 e.2) d).keys ↔
        key ∈ d.keys ∨ key ∈ es.map (·.1) := by
    intro es
    induction es with
    | nil => simp
    | cons e es ih =>
      intro d
      have hinsert : key ∈ (d.insert e.1 e.2).keys ↔ key = e.1 ∨ key ∈ d.keys :=
        mem_keys_alterEntries
      rw [List.foldl_cons, ih, hinsert, List.map_cons, List.mem_cons]
      tauto
  have hempty : key ∉ (empty : Dictionary β).keys := List.not_mem_nil
  rw [ofList, hfold]
  simp [hempty]

/-- A dictionary made of entries has no others. -/
theorem mem_of_get?_ofList {es : List (String × β)} {key : String} {b : β}
    (h : (ofList es).get? key = some b) : (key, b) ∈ es := by
  have hfold : ∀ (es : List (String × β)) (d : Dictionary β),
      (es.foldl (fun d e => d.insert e.1 e.2) d).get? key = some b →
        (key, b) ∈ es ∨ d.get? key = some b := by
    intro es
    induction es with
    | nil => exact fun d h => .inr h
    | cons e es ih =>
      intro d h
      rcases ih _ h with hmem | hd
      · exact .inl (List.mem_cons_of_mem _ hmem)
      · rw [get?_insert] at hd
        split at hd
        · next hkey =>
          cases hd
          exact .inl (hkey ▸ List.mem_cons_self ..)
        · exact .inr hd
  exact (hfold es empty h).resolve_right nofun

/-- The order of the keys is a matter of the keys alone. -/
theorem keys_eq_of_mem_iff {γ : Type} {d : Dictionary β} {d' : Dictionary γ}
    (h : ∀ key, key ∈ d.keys ↔ key ∈ d'.keys) : d.keys = d'.keys := by
  refine List.Perm.eq_of_pairwise (fun a b _ _ hab hba => ?_) (pairwise_keys.1 d.ascending)
    (pairwise_keys.1 d'.ascending) ((List.perm_ext_iff_of_nodup d.nodup_keys d'.nodup_keys).2 h)
  exact (String.lt_irrefl _ (String.lt_trans hab hba)).elim

/-! ### Values -/

/-- Changing the values of several keys, each once, in one dictionary. -/
theorem get?_foldl_alter {γ : Type} (change : γ → Option β → β) (key : String) :
    ∀ (es : List (String × γ)) (d : Dictionary β), (es.Pairwise fun a b => a.1 < b.1) →
      (es.foldl (fun d e => d.alter e.1 (change e.2)) d).get? key =
        ((es.lookup key).elim (d.get? key) fun c => some (change c (d.get? key)))
  | [], _, _ => rfl
  | (k, c) :: es, d, h => by
    obtain ⟨hk, hes⟩ := List.pairwise_cons.1 h
    rw [List.foldl_cons, get?_foldl_alter change key es _ hes, List.lookup_cons]
    by_cases hkey : key = k
    · subst hkey
      have hnone : es.lookup key = none :=
        lookup_eq_none_of_lt fun e he => hk e he
      simp [hnone, get?_alter]
    · simp [beq_eq_false_iff_ne.2 hkey, get?_alter, hkey]

theorem indexOf?_of_get? (d : Dictionary β) {key : String} {b : β}
    (h : d.get? key = some b) : ∃ i, d.indexOf? key = some i ∧ d.entries[i]? = some (key, b) := by
  rw [get?] at h
  rw [indexOf?]
  generalize d.entries = es at h ⊢
  induction es with
  | nil => cases h
  | cons e es ih =>
    obtain ⟨k, v⟩ := e
    by_cases hk : key = k
    · subst hk
      rw [List.lookup_cons_self] at h
      cases h
      exact ⟨0, by rw [List.findIdx?_cons, beq_self_eq_true]; rfl, rfl⟩
    · rw [List.lookup_cons, beq_eq_false_iff_ne.2 hk] at h
      obtain ⟨i, hi, hentry⟩ := ih h
      refine ⟨i + 1, ?_, hentry⟩
      rw [List.findIdx?_cons, beq_eq_false_iff_ne.2 (Ne.symm hk), hi]
      rfl

theorem get?_of_getElem? (d : Dictionary β) {i : Nat} {key : String} {b : β}
    (h : d.entries[i]? = some (key, b)) : d.get? key = some b := by
  have hascending := d.ascending
  rw [get?]
  generalize d.entries = es at h hascending
  induction es generalizing i with
  | nil => simp at h
  | cons e es ih =>
    obtain ⟨hfirst, hrest⟩ := List.pairwise_cons.1 hascending
    cases i with
    | zero =>
      cases h
      exact List.lookup_cons_self
    | succ i =>
      have hmem : (key, b) ∈ es := List.mem_of_getElem? h
      have hne : (key == e.1) = false :=
        beq_eq_false_iff_ne.2 fun heq => String.lt_irrefl e.1 (heq ▸ hfirst _ hmem)
      obtain ⟨k, v⟩ := e
      rw [List.lookup_cons, hne]
      exact ih h hrest

theorem get?_of_mem (d : Dictionary β) {e : String × β} (h : e ∈ d.entries) :
    d.get? e.1 = some e.2 := by
  obtain ⟨i, hi⟩ := List.getElem?_of_mem h
  exact d.get?_of_getElem? hi

theorem mem_of_get? (d : Dictionary β) {key : String} {b : β} (h : d.get? key = some b) :
    (key, b) ∈ d.entries := by
  obtain ⟨i, -, hentry⟩ := d.indexOf?_of_get? h
  exact List.mem_of_getElem? hentry

/-- The entries are the keys with their values. -/
theorem entries_eq (d : Dictionary β) :
    d.entries = d.keys.filterMap fun key => (d.get? key).map (key, ·) := by
  have hentry : ∀ e ∈ d.entries, (d.get? e.1).map (e.1, ·) = some e := fun e he => by
    rw [d.get?_of_mem he]
    rfl
  rw [keys, List.filterMap_map]
  exact (List.filterMap_some.symm.trans (List.filterMap_congr hentry).symm)

/-- A dictionary is known from the values of its keys. -/
theorem ext_get? {d d' : Dictionary β} (h : ∀ key, d.get? key = d'.get? key) : d = d' := by
  have hkeys : d.keys = d'.keys := keys_eq_of_mem_iff fun key => by
    rw [mem_keys_iff, mem_keys_iff, h]
  have hentries : d.entries = d'.entries := by
    rw [entries_eq, entries_eq, hkeys]
    exact List.filterMap_congr fun key _ => by rw [h]
  cases d
  cases d'
  cases hentries
  rfl

/-- There is at most one entry with a key. -/
theorem filterMap_entries (d : Dictionary β) (key : String) :
    (d.entries.filterMap fun e => if e.1 = key then some e.2 else none) =
      (d.get? key).toList := by
  have hascending := d.ascending
  rw [get?]
  generalize d.entries = es at hascending
  induction es with
  | nil => rfl
  | cons e es ih =>
    obtain ⟨hfirst, hrest⟩ := List.pairwise_cons.1 hascending
    obtain ⟨k, v⟩ := e
    rw [List.filterMap_cons, List.lookup_cons, ih hrest]
    by_cases hk : k = key
    · subst hk
      have hnone : es.lookup k = none := lookup_eq_none_of_lt hfirst
      simp [hnone]
    · simp [hk, beq_eq_false_iff_ne.2 (Ne.symm hk)]

end Dictionary

end TextSearch
