/-!
# Dictionaries

A dictionary holds one value per key, in ascending order of the keys by code
point. The order is part of the type: `Dictionary.alter`, the one operation that
changes a dictionary, keeps it, and `get?_alter` says what the change does.
-/

namespace TextSearch

/-- Entries in strictly ascending order of their keys. -/
structure Dictionary (β : Type) where
  /-- The keys and their values. -/
  entries : List (String × β)
  /-- Every key comes before the keys after it. -/
  ascending : entries.Pairwise fun a b => a.1 < b.1

namespace Dictionary

variable {β : Type}

/-- The dictionary without entries. -/
def empty : Dictionary β := ⟨[], .nil⟩

instance : Inhabited (Dictionary β) := ⟨empty⟩

/-- Change the value of a key in a list of entries, or give it one. -/
def alterEntries (key : String) (change : Option β → β) :
    List (String × β) → List (String × β)
  | [] => [(key, change none)]
  | (k, v) :: rest =>
    if key < k then (key, change none) :: (k, v) :: rest
    else if key = k then (k, change (some v)) :: rest
    else (k, v) :: alterEntries key change rest

theorem mem_keys_alterEntries {key : String} {change : Option β → β} {x : String} :
    ∀ {es : List (String × β)},
      x ∈ (alterEntries key change es).map (·.1) ↔ x = key ∨ x ∈ es.map (·.1)
  | [] => by simp [alterEntries]
  | (k, v) :: rest => by
    simp only [alterEntries]
    split
    · simp
    · split
      · next h => subst h; simp
      · have ih : x ∈ (alterEntries key change rest).map (·.1) ↔ x = key ∨ x ∈ rest.map (·.1) :=
          mem_keys_alterEntries
        simp only [List.map_cons, List.mem_cons, ih]
        constructor <;> rintro (h | h | h) <;> simp [h]

theorem pairwise_keys {es : List (String × β)} :
    (es.Pairwise fun a b => a.1 < b.1) ↔ (es.map (·.1)).Pairwise (· < ·) :=
  List.pairwise_map.symm

theorem ascending_alterEntries {key : String} {change : Option β → β} :
    ∀ {es : List (String × β)}, (es.Pairwise fun a b => a.1 < b.1) →
      (alterEntries key change es).Pairwise fun a b => a.1 < b.1
  | [], _ => by simp [alterEntries]
  | (k, v) :: rest, h => by
    have hk := List.pairwise_cons.1 h
    simp only [alterEntries]
    split
    · next hlt =>
      refine List.pairwise_cons.2 ⟨fun b hb => ?_, h⟩
      rcases List.mem_cons.1 hb with rfl | hb
      · exact hlt
      · exact String.lt_trans hlt (hk.1 b hb)
    · next hnlt =>
      split
      · exact List.pairwise_cons.2 hk
      · next hne =>
        refine List.pairwise_cons.2 ⟨fun b hb => ?_, ascending_alterEntries hk.2⟩
        have hmem : b.1 ∈ (alterEntries key change rest).map (·.1) :=
          List.mem_map_of_mem hb
        rcases mem_keys_alterEntries.1 hmem with he | he
        · rw [he]
          exact String.not_le.1 fun hle =>
            hne (String.le_antisymm hle (String.not_lt.1 hnlt))
        · obtain ⟨c, hc, hce⟩ := List.mem_map.1 he
          exact hce ▸ hk.1 c hc

/-- Change the value of a key, or give it one. -/
def alter (d : Dictionary β) (key : String) (change : Option β → β) : Dictionary β :=
  ⟨alterEntries key change d.entries, ascending_alterEntries d.ascending⟩

/-- Give a key a value, in place of any it had. -/
def insert (d : Dictionary β) (key : String) (value : β) : Dictionary β :=
  d.alter key fun _ => value

/-- The entries of a list, the last one counting where a key is repeated. -/
def ofList (es : List (String × β)) : Dictionary β :=
  es.foldl (fun d e => d.insert e.1 e.2) empty

/-- The value of a key. -/
def get? (d : Dictionary β) (key : String) : Option β := d.entries.lookup key

/-- Whether a key has a value. -/
def contains (d : Dictionary β) (key : String) : Bool := (d.get? key).isSome

/-- The keys, in ascending order. -/
def keys (d : Dictionary β) : List String := d.entries.map (·.1)

/-- The number of keys. -/
def size (d : Dictionary β) : Nat := d.entries.length

/-- A dictionary with the same keys and other values. -/
def mapValues {γ : Type} (f : β → γ) (d : Dictionary β) : Dictionary γ :=
  ⟨d.entries.map fun e => (e.1, f e.2), List.pairwise_map.2 d.ascending⟩

/-- The place of a key among the keys. -/
def indexOf? (d : Dictionary β) (key : String) : Option Nat :=
  d.entries.findIdx? fun e => e.1 == key

theorem lookup_eq_none_of_lt {key : String} :
    ∀ {es : List (String × β)}, (∀ e ∈ es, key < e.1) → es.lookup key = none
  | [], _ => rfl
  | (k, v) :: rest, h => by
    have hne : (key == k) = false := by
      have hlt := h (k, v) (List.mem_cons_self ..)
      exact beq_eq_false_iff_ne.2 fun he => String.lt_irrefl k (he ▸ hlt)
    rw [List.lookup_cons, hne]
    exact lookup_eq_none_of_lt fun e he => h e (List.mem_cons_of_mem _ he)

theorem lookup_alterEntries {key : String} {change : Option β → β} {x : String} :
    ∀ {es : List (String × β)}, (es.Pairwise fun a b => a.1 < b.1) →
      (alterEntries key change es).lookup x =
        if x = key then some (change (es.lookup key)) else es.lookup x
  | [], _ => by
    by_cases h : x = key
    · simp [alterEntries, h]
    · simp [alterEntries, h, List.lookup_cons, beq_eq_false_iff_ne.2 h]
  | (k, v) :: rest, h => by
    have hk := List.pairwise_cons.1 h
    simp only [alterEntries]
    split
    · next hlt =>
      have hnone : ((k, v) :: rest).lookup key = none := by
        refine lookup_eq_none_of_lt fun e he => ?_
        rcases List.mem_cons.1 he with rfl | he
        · exact hlt
        · exact String.lt_trans hlt (hk.1 e he)
      by_cases hx : x = key
      · simp only [hx, hnone, if_true]
        simp
      · rw [List.lookup_cons, beq_eq_false_iff_ne.2 hx]
        simp [hx]
    · split
      · next he =>
        subst he
        by_cases hx : x = key
        · simp [hx]
        · simp [hx, List.lookup_cons, beq_eq_false_iff_ne.2 hx]
      · next hne =>
        have hkey : ((k, v) :: rest).lookup key = rest.lookup key := by
          rw [List.lookup_cons, beq_eq_false_iff_ne.2 hne]
        rw [hkey, List.lookup_cons, lookup_alterEntries hk.2]
        by_cases hxk : x = k
        · subst hxk
          have hne' : x ≠ key := fun he => hne he.symm
          simp [hne']
        · rw [beq_eq_false_iff_ne.2 hxk]
          by_cases hx : x = key
          · simp [hx]
          · simp [hx, List.lookup_cons, beq_eq_false_iff_ne.2 hxk]

theorem get?_alter (d : Dictionary β) (key x : String) (change : Option β → β) :
    (d.alter key change).get? x = if x = key then some (change (d.get? key)) else d.get? x :=
  lookup_alterEntries d.ascending

theorem get?_insert (d : Dictionary β) (key x : String) (value : β) :
    (d.insert key value).get? x = if x = key then some value else d.get? x :=
  get?_alter d key x fun _ => value

@[simp] theorem get?_empty (x : String) : (empty : Dictionary β).get? x = none := rfl

end Dictionary

end TextSearch
