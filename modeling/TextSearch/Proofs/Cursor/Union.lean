import TextSearch.Proofs.Cursor.Trail

/-!
# Unions of trails

The union of trails visits every document of any of them, showing what those
trails show that stand on it. It goes well with skips: `union_map_since` says
that the union of what skips have left is what a skip leaves of the union.
-/

namespace TextSearch.Trail

variable {β : Type}

/-- The least document that a trail begins with. -/
def leastDoc? (ts : List (Trail β)) : Option Nat := (ts.filterMap fun t => t.head?.map (·.doc)).min?

/-- A trail without its first visit if that is to a document. -/
def leaving (d : Nat) (t : Trail β) : Trail β := if t.begins d then t.tail else t

/-- What the trails show that begin with a document. -/
def heads (d : Nat) (ts : List (Trail β)) : List β :=
  ts.filterMap fun t => (t.head?.filter fun v => v.doc == d).map (·.shown)

/-- The number of visits of trails. -/
def visits (ts : List (Trail β)) : Nat := total (ts.map List.length)

theorem heads_cons_cons (d : Nat) (v : Visit β) (t : Trail β) (ts : List (Trail β)) :
    heads d ((v :: t) :: ts) = if v.doc = d then v.shown :: heads d ts else heads d ts := by
  have hhead : (((v :: t).head?.filter fun u => u.doc == d).map (·.shown)) =
      if v.doc = d then some v.shown else none := by
    by_cases h : v.doc = d <;> simp [h]
  rw [heads, List.filterMap_cons, hhead]
  by_cases h : v.doc = d
  · rw [if_pos h, if_pos h]
    rfl
  · rw [if_neg h, if_neg h]
    rfl

theorem length_leaving_le (d : Nat) (t : Trail β) : (t.leaving d).length ≤ t.length := by
  rw [leaving]
  split
  · rw [List.length_tail]
    omega
  · exact Nat.le_refl _

theorem leastDoc?_eq_none_iff {ts : List (Trail β)} :
    leastDoc? ts = none ↔ ∀ t ∈ ts, t = [] := by
  rw [leastDoc?, List.min?_eq_none_iff, List.filterMap_eq_nil_iff]
  simp

theorem leastDoc?_eq_some_iff {ts : List (Trail β)} {d : Nat} :
    leastDoc? ts = some d ↔
      (∃ t ∈ ts, t.begins d) ∧ ∀ v t, v :: t ∈ ts → d ≤ v.doc := by
  rw [leastDoc?, List.min?_eq_some_iff]
  have hmem (e : Nat) :
      e ∈ ts.filterMap (fun t => t.head?.map (·.doc)) ↔ ∃ v t, v :: t ∈ ts ∧ v.doc = e := by
    rw [List.mem_filterMap]
    constructor
    · rintro ⟨t, ht, he⟩
      cases t with
      | nil => simp at he
      | cons v t => exact ⟨v, t, ht, by simpa using he⟩
    · rintro ⟨v, t, ht, he⟩
      exact ⟨v :: t, ht, by simpa using he⟩
  constructor
  · rintro ⟨hd, hle⟩
    obtain ⟨v, t, ht, he⟩ := (hmem d).1 hd
    exact ⟨⟨v :: t, ht, by simpa using he⟩,
      fun u s hs => hle _ ((hmem _).2 ⟨u, s, hs, rfl⟩)⟩
  · rintro ⟨⟨t, ht, hd⟩, hle⟩
    refine ⟨?_, fun e he => ?_⟩
    · cases t with
      | nil => simp at hd
      | cons v t => exact (hmem d).2 ⟨v, t, ht, by simpa using hd⟩
    · obtain ⟨u, s, hs, rfl⟩ := (hmem e).1 he
      exact hle u s hs

theorem visits_leaving_lt {ts : List (Trail β)} {d : Nat} (h : ∃ t ∈ ts, t.begins d) :
    visits (ts.map (leaving d)) < visits ts := by
  obtain ⟨t, ht, hd⟩ := h
  induction ts with
  | nil => simp at ht
  | cons s ts ih =>
    have hrest : visits (ts.map (leaving d)) ≤ visits ts := by
      clear ih ht
      induction ts with
      | nil => exact Nat.le_refl _
      | cons r ts ih =>
        have := length_leaving_le d r
        simp only [visits, List.map_cons, total_cons] at ih ⊢
        omega
    have hs := length_leaving_le d s
    simp only [visits, List.map_cons, total_cons] at ih hrest ⊢
    rcases List.mem_cons.1 ht with rfl | ht
    · have hlt : (leaving d t).length < t.length := by
        rw [leaving, if_pos hd]
        cases t with
        | nil => simp at hd
        | cons v t => simp
      omega
    · have := ih ht
      omega

/-- The visits to the documents of any of several trails. Each shows the list of what those
trails show that have come to the document, once for every trail. -/
def union (ts : List (Trail β)) : Trail (List β) :=
  match _h : leastDoc? ts with
  | none => []
  | some d => ⟨d, heads d ts⟩ :: union (ts.map (leaving d))
  termination_by visits ts
  decreasing_by simpa using visits_leaving_lt (leastDoc?_eq_some_iff.1 _h).1

theorem union_of_none {ts : List (Trail β)} (h : leastDoc? ts = none) : union ts = [] := by
  rw [union]
  split
  · rfl
  · next hd => rw [h] at hd; cases hd

theorem union_of_some {ts : List (Trail β)} {d : Nat} (h : leastDoc? ts = some d) :
    union ts = ⟨d, heads d ts⟩ :: union (ts.map (leaving d)) := by
  rw [union]
  split
  · next hd => rw [h] at hd; cases hd
  · next e he => rw [h] at he; cases he; rfl

/-- An induction over the visits of a union: it holds where nothing is left, and of trails if
it holds once they have left their least document. -/
theorem union_induction {motive : List (Trail β) → Prop}
    (nil : ∀ ts, leastDoc? ts = none → motive ts)
    (step : ∀ ts d, leastDoc? ts = some d → motive (ts.map (leaving d)) → motive ts)
    (ts : List (Trail β)) : motive ts := by
  induction hn : visits ts using Nat.strongRecOn generalizing ts with
  | _ n ih =>
    cases h : leastDoc? ts with
    | none => exact nil ts h
    | some d =>
      have hlt := visits_leaving_lt (leastDoc?_eq_some_iff.1 h).1
      exact step ts d h (ih _ (hn ▸ hlt) _ rfl)

theorem Sound.leaving {t : Trail β} (h : t.Sound) (d : Nat) : (t.leaving d).Sound := by
  rw [Trail.leaving]
  split
  · exact h.sublist (List.tail_sublist t)
  · exact h

theorem sound_map_leaving {ts : List (Trail β)} (h : ∀ t ∈ ts, t.Sound) (d : Nat) :
    ∀ t ∈ ts.map (leaving d), t.Sound := by
  intro t ht
  obtain ⟨s, hs, rfl⟩ := List.mem_map.1 ht
  exact (h s hs).leaving d

/-- Leaving a trail's first document loses no other document. -/
theorem mem_docs_leaving {t : Trail β} {d e : Nat} (hne : e ≠ d) :
    e ∈ (t.leaving d).docs ↔ e ∈ t.docs := by
  rw [leaving]
  cases t with
  | nil => simp
  | cons v t =>
    by_cases hv : v.doc = d
    · have he : e ≠ v.doc := by rw [hv]; exact hne
      simp [hv, hne]
    · simp [beq_eq_false_iff_ne.2 hv]

theorem docs_leaving_subset {t : Trail β} {d e : Nat} (h : e ∈ (t.leaving d).docs) :
    e ∈ t.docs := by
  rw [leaving] at h
  split at h
  · exact (List.tail_sublist t).map _ |>.subset h
  · exact h

theorem leaving_sublist (d : Nat) (t : Trail β) : (t.leaving d).Sublist t := by
  rw [leaving]
  split
  · exact List.tail_sublist t
  · exact .refl t

/-- A visit is the one that is left out, or it is still there. -/
theorem mem_or_mem_leaving (d : Nat) {t : Trail β} {v : Visit β} (hv : v ∈ t) :
    (v.doc = d ∧ ∃ rest, t = v :: rest) ∨ v ∈ t.leaving d := by
  cases t with
  | nil => cases hv
  | cons u t =>
    rw [leaving]
    rcases List.mem_cons.1 hv with rfl | hv
    · split
      · next hbegins => exact .inl ⟨beq_iff_eq.1 hbegins, t, rfl⟩
      · exact .inr (List.mem_cons_self ..)
    · split
      · exact .inr hv
      · exact .inr (List.mem_cons_of_mem _ hv)

theorem mem_heads {d : Nat} {ts : List (Trail β)} {b : β} :
    b ∈ heads d ts ↔ ∃ t ∈ ts, ∃ rest, t = ⟨d, b⟩ :: rest := by
  induction ts with
  | nil => simp [heads]
  | cons t ts ih =>
    rw [List.exists_mem_cons_iff, ← ih]
    cases t with
    | nil => simp [heads]
    | cons v t =>
      obtain ⟨e, c⟩ := v
      rw [heads_cons_cons]
      split
      · next hd =>
        cases hd
        rw [List.mem_cons]
        refine or_congr_left ⟨?_, ?_⟩
        · rintro rfl
          exact ⟨t, rfl⟩
        · rintro ⟨rest, heq⟩
          cases heq
          rfl
      · next hne =>
        refine ⟨.inr, ?_⟩
        rintro (⟨rest, heq⟩ | hb)
        · cases heq
          exact absurd rfl hne
        · exact hb

/-- A union visits the documents that its trails visit. -/
theorem mem_docs_union {ts : List (Trail β)} {e : Nat} :
    e ∈ (union ts).docs ↔ ∃ t ∈ ts, e ∈ t.docs := by
  induction ts using union_induction with
  | nil ts h =>
    rw [union_of_none h]
    have hnil := leastDoc?_eq_none_iff.1 h
    constructor
    · intro he
      simp at he
    · rintro ⟨t, ht, he⟩
      rw [hnil t ht] at he
      simp at he
  | step ts d h ih =>
    rw [union_of_some h, docs_cons, List.mem_cons, ih]
    obtain ⟨⟨s, hs, hd⟩, -⟩ := leastDoc?_eq_some_iff.1 h
    constructor
    · rintro (rfl | ⟨t, ht, he⟩)
      · refine ⟨s, hs, ?_⟩
        cases s with
        | nil => simp at hd
        | cons v s => exact List.mem_cons.2 (.inl (beq_iff_eq.1 hd).symm)
      · obtain ⟨r, hr, rfl⟩ := List.mem_map.1 ht
        exact ⟨r, hr, docs_leaving_subset he⟩
    · rintro ⟨t, ht, he⟩
      by_cases hne : e = d
      · exact .inl hne
      · exact .inr ⟨_, List.mem_map_of_mem ht, (mem_docs_leaving hne).2 he⟩

/-- A union shows in a document what its trails show in it. -/
theorem exists_visit_union {ts : List (Trail β)} {e : Nat} {b : β} :
    (∃ v ∈ union ts, v.doc = e ∧ b ∈ v.shown) ↔ ∃ t ∈ ts, ⟨e, b⟩ ∈ t := by
  induction ts using union_induction with
  | nil ts h =>
    have hnil := leastDoc?_eq_none_iff.1 h
    rw [union_of_none h]
    constructor
    · rintro ⟨v, hv, -⟩
      cases hv
    · rintro ⟨t, ht, hb⟩
      rw [hnil t ht] at hb
      cases hb
  | step ts d h ih =>
    rw [union_of_some h, List.exists_mem_cons_iff, ih, mem_heads]
    constructor
    · rintro (⟨rfl, t, ht, rest, rfl⟩ | ⟨_, hmem, hb⟩)
      · exact ⟨_, ht, List.mem_cons_self ..⟩
      · obtain ⟨t, ht, rfl⟩ := List.mem_map.1 hmem
        exact ⟨t, ht, (leaving_sublist d t).subset hb⟩
    · rintro ⟨t, ht, hb⟩
      rcases mem_or_mem_leaving d hb with ⟨hd, rest, rfl⟩ | hb
      · exact .inl ⟨hd.symm, _, ht, rest, by rw [← hd]⟩
      · exact .inr ⟨_, List.mem_map_of_mem ht, hb⟩

/-- A union shows something on every visit: what a trail shows that has come to the document. -/
theorem shown_ne_nil_of_mem_union {ts : List (Trail β)} : ∀ v ∈ union ts, v.shown ≠ [] := by
  induction ts using union_induction with
  | nil ts hleast =>
    rw [union_of_none hleast]
    exact List.forall_mem_nil _
  | step ts d hleast ih =>
    rw [union_of_some hleast, List.forall_mem_cons]
    refine ⟨?_, ih⟩
    obtain ⟨t, ht, hbegins⟩ := (leastDoc?_eq_some_iff.1 hleast).1
    cases t with
    | nil => cases hbegins
    | cons v t =>
      have hdoc : v.doc = d := beq_iff_eq.1 hbegins
      subst hdoc
      exact List.ne_nil_of_mem (mem_heads.2 ⟨v :: t, ht, t, rfl⟩)

/-- The first visit of sound trails is to a document that no other visit is before. -/
theorem le_of_leastDoc? {ts : List (Trail β)} (hts : ∀ t ∈ ts, t.Sound) {d : Nat}
    (h : leastDoc? ts = some d) {t : Trail β} (ht : t ∈ ts) {v : Visit β} (hv : v ∈ t) :
    d ≤ v.doc := by
  obtain ⟨-, hle⟩ := leastDoc?_eq_some_iff.1 h
  cases t with
  | nil => simp at hv
  | cons u t => exact Nat.le_trans (hle u t ht) ((hts _ ht).head_le hv)

theorem sound_union {ts : List (Trail β)} (hts : ∀ t ∈ ts, t.Sound) : (union ts).Sound := by
  induction ts using union_induction with
  | nil ts h => rw [union_of_none h]; exact .nil
  | step ts d h ih =>
    have hrest := ih (sound_map_leaving hts d)
    rw [union_of_some h]
    refine ⟨List.pairwise_cons.2 ⟨fun v hv => ?_, hrest.ascending⟩, fun v hv => ?_⟩
    · obtain ⟨t, ht, hd⟩ := mem_docs_union.1 (List.mem_map_of_mem (f := (·.doc)) hv)
      obtain ⟨s, hs, rfl⟩ := List.mem_map.1 ht
      obtain ⟨u, hu, hud⟩ := mem_docs.1 (docs_leaving_subset hd)
      have := le_of_leastDoc? hts h hs hu
      simp only
      omega
    · rcases List.mem_cons.1 hv with rfl | hv
      · obtain ⟨⟨t, ht, hd⟩, -⟩ := leastDoc?_eq_some_iff.1 h
        cases t with
        | nil => simp at hd
        | cons u t =>
          have := (hts _ ht).bounded u (List.mem_cons_self ..)
          have hu : u.doc = d := by simpa using hd
          simp only
          omega
      · exact hrest.bounded v hv

theorem length_union_le (ts : List (Trail β)) : (union ts).length ≤ visits ts := by
  induction ts using union_induction with
  | nil ts h => rw [union_of_none h]; exact Nat.zero_le _
  | step ts d h ih =>
    have := visits_leaving_lt (leastDoc?_eq_some_iff.1 h).1
    rw [union_of_some h, List.length_cons]
    omega

/-- Skipping in all trails of a union skips in the union. -/
theorem union_map_since {ts : List (Trail β)} (hts : ∀ t ∈ ts, t.Sound) (d : Nat) :
    union (ts.map (since d)) = (union ts).since d := by
  induction ts using union_induction with
  | nil ts h =>
    have hsame : ts.map (since d) = ts := by
      conv_rhs => rw [← List.map_id ts]
      refine List.map_congr_left fun t ht => ?_
      rw [leastDoc?_eq_none_iff.1 h t ht]
      rfl
    rw [hsame, union_of_none h]
    rfl
  | step ts e h ih =>
    by_cases hlt : e < d
    · have hleave : (ts.map (leaving e)).map (since d) = ts.map (since d) := by
        rw [List.map_map]
        refine List.map_congr_left fun t _ => ?_
        cases t with
        | nil => rfl
        | cons v t =>
          by_cases hv : v.doc = e
          · simp [leaving, hv, since_cons, hlt]
          · simp [leaving, beq_eq_false_iff_ne.2 hv]
      rw [union_of_some h, since_cons, if_pos hlt, ← ih (sound_map_leaving hts e), hleave]
    · have hsame : ts.map (since d) = ts := by
        conv_rhs => rw [← List.map_id ts]
        refine List.map_congr_left fun t ht => since_eq_self fun v hv => ?_
        have := le_of_leastDoc? hts h ht hv
        omega
      rw [hsame, union_of_some h, since_cons, if_neg hlt]

/-! ### What a union leaves out -/

theorem filterMap_filter_ne_nil {γ : Type} {f : Trail β → Option γ} (hf : f [] = none)
    (ts : List (Trail β)) : (ts.filter fun t => !t.isEmpty).filterMap f = ts.filterMap f := by
  induction ts with
  | nil => rfl
  | cons t ts ih =>
    cases t with
    | nil => simpa [hf] using ih
    | cons v t => simp [List.filterMap_cons, ih]

/-- Trails without visits add nothing to a union. -/
theorem union_filter_ne_nil (ts : List (Trail β)) :
    union (ts.filter fun t => !t.isEmpty) = union ts := by
  induction hn : visits ts using Nat.strongRecOn generalizing ts with
  | _ n ih =>
    have hleast : leastDoc? (ts.filter fun t => !t.isEmpty) = leastDoc? ts := by
      rw [leastDoc?, filterMap_filter_ne_nil rfl, leastDoc?]
    cases h : leastDoc? ts with
    | none => rw [union_of_none h, union_of_none (hleast.trans h)]
    | some d =>
      have hvisits : visits (ts.filter fun t => !t.isEmpty) = visits ts := by
        clear ih h hleast hn
        induction ts with
        | nil => rfl
        | cons t ts ih =>
          cases t <;> simp_all [visits]
      have hone := ih _ (hn ▸ visits_leaving_lt (leastDoc?_eq_some_iff.1 h).1) _ rfl
      have htwo := ih _ (hn ▸ hvisits ▸
        visits_leaving_lt (leastDoc?_eq_some_iff.1 (hleast.trans h)).1) _ rfl
      have hsame : ((ts.filter fun t => !t.isEmpty).map (leaving d)).filter (fun t => !t.isEmpty) =
          (ts.map (leaving d)).filter fun t => !t.isEmpty := by
        clear ih h hleast hn hone htwo hvisits
        induction ts with
        | nil => rfl
        | cons t ts ih =>
          cases t with
          | nil => simpa [leaving] using ih
          | cons v t => simp only [List.filter_cons, List.map_cons, ih, List.isEmpty_cons,
              Bool.not_false, if_true]
      rw [union_of_some h, union_of_some (hleast.trans h), heads, filterMap_filter_ne_nil rfl,
        ← htwo, hsame, hone]
      rfl

/-- What stands first in the least document is what the trails show in it. -/
theorem heads_eq_filterMap_at? {ts : List (Trail β)} (hts : ∀ t ∈ ts, t.Sound) {e : Nat}
    (h : leastDoc? ts = some e) : heads e ts = ts.filterMap (at? e) := by
  refine List.filterMap_congr fun t ht => ?_
  cases t with
  | nil => rfl
  | cons v t =>
    by_cases hv : v.doc = e
    · simp [at?_cons, hv]
    · have hnone : at? e (v :: t) = none := by
        rw [at?_eq_none_iff]
        intro hmem
        obtain ⟨u, hu, hue⟩ := mem_docs.1 hmem
        have := (hts _ ht).head_le hu
        have := le_of_leastDoc? hts h ht (List.mem_cons_self ..)
        omega
      rw [hnone]
      simp [hv]

theorem filterMap_at?_ne_nil {ts : List (Trail β)} {e : Nat} (h : leastDoc? ts = some e) :
    ts.filterMap (at? e) ≠ [] := by
  obtain ⟨⟨t, ht, hd⟩, -⟩ := leastDoc?_eq_some_iff.1 h
  cases t with
  | nil => simp at hd
  | cons v t =>
    have hv : v.doc = e := by simpa using hd
    refine List.ne_nil_of_mem (a := v.shown) (List.mem_filterMap.2 ⟨_, ht, ?_⟩)
    rw [at?_cons, if_pos hv]

/-- Leaving a document changes nothing in another. -/
theorem at?_leaving {d e : Nat} (he : e ≠ d) (t : Trail β) : at? d (leaving e t) = at? d t := by
  cases t with
  | nil => rfl
  | cons v t =>
    by_cases hv : v.doc = e
    · simp [leaving, hv, at?_cons, he]
    · simp [leaving, hv]

/-- On its first visit to a document a union shows what its trails show on theirs. -/
theorem at?_union {ts : List (Trail β)} (hts : ∀ t ∈ ts, t.Sound) (d : Nat) :
    (union ts).at? d =
      if ts.filterMap (at? d) = [] then none else some (ts.filterMap (at? d)) := by
  induction ts using union_induction with
  | nil ts h =>
    have hnil : ts.filterMap (at? d) = [] := by
      rw [List.filterMap_eq_nil_iff]
      intro t ht
      rw [leastDoc?_eq_none_iff.1 h t ht]
      rfl
    rw [union_of_none h, if_pos hnil]
    rfl
  | step ts e h ih =>
    rw [union_of_some h, at?_cons]
    by_cases he : e = d
    · subst he
      rw [if_pos rfl, if_neg (filterMap_at?_ne_nil h), heads_eq_filterMap_at? hts h]
    · have hsame : (ts.map (leaving e)).filterMap (at? d) = ts.filterMap (at? d) := by
        rw [List.filterMap_map]
        exact List.filterMap_congr fun t _ => at?_leaving he t
      rw [if_neg he, ih (sound_map_leaving hts e), hsame]

end TextSearch.Trail
