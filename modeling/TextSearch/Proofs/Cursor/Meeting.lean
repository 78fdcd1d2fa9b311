import TextSearch.Proofs.Cursor.Union

/-!
# Meetings of trails

The meeting of trails follows the first one and visits the documents that all
others visit too, showing what each of them shows on its first visit. A trail
without others visits the documents that none of them visits. Like unions, both
go well with skips.
-/

namespace TextSearch.Trail

variable {β γ : Type}

/-- What all trails show on their first visits to a document, if all of them visit it. -/
def allAt? (d : Nat) : List (Trail β) → Option (List β)
  | [] => some []
  | t :: ts =>
    match t.at? d, allAt? d ts with
    | some b, some bs => some (b :: bs)
    | _, _ => none

/-- The visits of the first trail to documents that all others visit too. -/
def meet : List (Trail β) → Trail (List β)
  | [] => []
  | lead :: others =>
    lead.filterMap fun v => (allAt? v.doc others).map fun us => ⟨v.doc, v.shown :: us⟩

/-- The visits of a trail to documents that none of several others visits. -/
def without (ns : List (Trail γ)) (t : Trail β) : Trail β :=
  t.filter fun v => ns.all fun n => (n.at? v.doc).isNone

theorem allAt?_eq_some_iff {d : Nat} {ts : List (Trail β)} {bs : List β} :
    allAt? d ts = some bs ↔ List.Forall₂ (fun t b => t.at? d = some b) ts bs := by
  induction ts generalizing bs with
  | nil => simp [allAt?, eq_comm]
  | cons t ts ih =>
    rw [allAt?]
    constructor
    · intro h
      split at h
      · next b bs' hb hbs =>
        cases h
        exact .cons hb (ih.1 hbs)
      · cases h
    · intro h
      obtain _ | ⟨hb, hbs⟩ := h
      rw [hb, ih.2 hbs]

theorem isSome_allAt?_iff {d : Nat} {ts : List (Trail β)} :
    (allAt? d ts).isSome ↔ ∀ t ∈ ts, d ∈ t.docs := by
  induction ts with
  | nil => simp [allAt?]
  | cons t ts ih =>
    rw [allAt?, List.forall_mem_cons, ← ih, ← isSome_at?_iff]
    cases t.at? d <;> cases allAt? d ts <;> simp

theorem allAt?_map_since {d e : Nat} (h : d ≤ e) (ts : List (Trail β)) :
    allAt? e (ts.map (since d)) = allAt? e ts := by
  induction ts with
  | nil => rfl
  | cons t ts ih => rw [List.map_cons, allAt?, at?_since h, ih, allAt?]

theorem meet_nil_cons (ts : List (Trail β)) : meet ([] :: ts) = [] := rfl

theorem meet_cons_cons (v : Visit β) (t : Trail β) (ts : List (Trail β)) :
    meet ((v :: t) :: ts) =
      match allAt? v.doc ts with
      | some us => ⟨v.doc, v.shown :: us⟩ :: meet (t :: ts)
      | none => meet (t :: ts) := by
  rw [meet, List.filterMap_cons]
  cases allAt? v.doc ts <;> rfl

/-- A meeting visits the documents that all of its trails visit. -/
theorem mem_docs_meet {ts : List (Trail β)} {e : Nat} :
    e ∈ (meet ts).docs ↔ ts ≠ [] ∧ ∀ t ∈ ts, e ∈ t.docs := by
  cases ts with
  | nil => simp [meet]
  | cons t ts =>
    induction t with
    | nil => simp [meet_nil_cons]
    | cons v t ih =>
      simp only [ne_eq, reduceCtorEq, not_false_eq_true, true_and, List.forall_mem_cons,
        ← isSome_allAt?_iff] at ih ⊢
      rw [meet_cons_cons, docs_cons, List.mem_cons]
      cases h : allAt? v.doc ts with
      | none =>
        simp only [ih]
        constructor
        · rintro ⟨he, hall⟩
          exact ⟨.inr he, hall⟩
        · rintro ⟨rfl | he, hall⟩
          · rw [h] at hall; cases hall
          · exact ⟨he, hall⟩
      | some us =>
        simp only [docs_cons, List.mem_cons, ih]
        constructor
        · rintro (rfl | ⟨he, hall⟩)
          · exact ⟨.inl rfl, by rw [h]; rfl⟩
          · exact ⟨.inr he, hall⟩
        · rintro ⟨rfl | he, hall⟩
          · exact .inl rfl
          · exact .inr ⟨he, hall⟩

theorem docs_meet_sublist (lead : Trail β) (others : List (Trail β)) :
    (meet (lead :: others)).docs.Sublist lead.docs := by
  induction lead with
  | nil => exact .slnil
  | cons v t ih =>
    rw [meet_cons_cons]
    cases allAt? v.doc others with
    | none => exact ih.cons _
    | some us => exact ih.cons_cons _

theorem length_meet_le (lead : Trail β) (others : List (Trail β)) :
    (meet (lead :: others)).length ≤ lead.length := by
  simpa [docs] using (docs_meet_sublist lead others).length_le

theorem sound_meet {ts : List (Trail β)} (hts : ∀ t ∈ ts, t.Sound) : (meet ts).Sound := by
  cases ts with
  | nil => exact .nil
  | cons lead others =>
    have hlead := sound_iff_docs.1 (hts lead (List.mem_cons_self ..))
    have hsub := docs_meet_sublist lead others
    exact sound_iff_docs.2 ⟨hlead.1.sublist hsub, fun d hd => hlead.2 d (hsub.subset hd)⟩

/-- The others may be skipped as far as the first trail has come. -/
theorem meet_cons_map_since {lead : Trail β} {d : Nat} (h : ∀ v ∈ lead, d ≤ v.doc)
    (others : List (Trail β)) : meet (lead :: others.map (since d)) = meet (lead :: others) := by
  rw [meet, meet]
  refine List.filterMap_congr fun v hv => ?_
  rw [allAt?_map_since (h v hv)]

theorem meet_since_cons {lead : Trail β} (hlead : lead.Sound) (d : Nat)
    (others : List (Trail β)) :
    meet (lead.since d :: others) = (meet (lead :: others)).since d := by
  induction lead with
  | nil => rfl
  | cons v t ih =>
    rw [since_cons]
    split
    · next hlt =>
      rw [ih hlead.tail, meet_cons_cons]
      cases allAt? v.doc others with
      | none => rfl
      | some us => rw [since_cons, if_pos hlt]
    · next hge =>
      refine (since_eq_self fun u hu => ?_).symm
      obtain ⟨w, hw, hdoc⟩ := List.mem_map.1
        ((docs_meet_sublist (v :: t) others).subset (List.mem_map_of_mem (f := (·.doc)) hu))
      have := hlead.head_le hw
      omega

/-- Skipping in all trails of a meeting skips in the meeting. -/
theorem meet_map_since {ts : List (Trail β)} (hts : ∀ t ∈ ts, t.Sound) (d : Nat) :
    meet (ts.map (since d)) = (meet ts).since d := by
  cases ts with
  | nil => rfl
  | cons lead others =>
    have hlead := hts lead (List.mem_cons_self ..)
    rw [List.map_cons, meet_cons_map_since fun v hv => le_of_mem_since hlead hv,
      meet_since_cons hlead]

/-- Nothing meets a trail without visits. -/
theorem meet_eq_nil_of_mem {ts : List (Trail β)} (h : [] ∈ ts) : meet ts = [] := by
  have hdocs : (meet ts).docs = [] := by
    refine List.eq_nil_iff_forall_not_mem.2 fun e he => ?_
    have := (mem_docs_meet.1 he).2 [] h
    simp at this
  simpa [docs] using hdocs

/-- Trails that all begin with a document show there what they begin with. -/
theorem allAt?_of_begins {d : Nat} {ts : List (Trail β)} (h : ∀ t ∈ ts, t.begins d = true) :
    allAt? d ts = some (heads d ts) := by
  induction ts with
  | nil => rfl
  | cons t ts ih =>
    obtain ⟨ht, hts⟩ := List.forall_mem_cons.1 h
    cases t with
    | nil => simp at ht
    | cons v t =>
      have hv : v.doc = d := by simpa using ht
      rw [allAt?, ih hts, at?_cons, if_pos hv, heads_cons_cons, if_pos hv]

/-- Trails that all begin with a document meet there first. -/
theorem meet_of_begins {d : Nat} {v : Visit β} {t : Trail β} {ts : List (Trail β)}
    (h : ∀ s ∈ (v :: t) :: ts, begins d s = true) :
    meet ((v :: t) :: ts) = ⟨d, heads d ((v :: t) :: ts)⟩ :: meet (t :: ts) := by
  obtain ⟨hv, hts⟩ := List.forall_mem_cons.1 h
  have hv : v.doc = d := by simpa using hv
  rw [meet_cons_cons, hv, allAt?_of_begins hts, heads_cons_cons, if_pos hv]

/-- The documents that trails meet in are not before any that one of them begins with. -/
theorem firstDoc_le_of_mem_meet {ts : List (Trail β)} (hts : ∀ t ∈ ts, t.Sound) {t : Trail β}
    (ht : t ∈ ts) {e : Nat} (he : e ∈ (meet ts).docs) : t.firstDoc ≤ e := by
  obtain ⟨v, hv, rfl⟩ := mem_docs.1 ((mem_docs_meet.1 he).2 t ht)
  cases t with
  | nil => cases hv
  | cons u t => exact (hts _ ht).head_le hv

/-- On its first visit to a document a meeting shows what its trails show on theirs. -/
theorem at?_meet (d : Nat) (lead : Trail β) (others : List (Trail β)) :
    (meet (lead :: others)).at? d = allAt? d (lead :: others) := by
  induction lead with
  | nil => rfl
  | cons v t ih =>
    rw [meet_cons_cons, allAt?, at?_cons]
    rw [allAt?] at ih
    by_cases hv : v.doc = d
    · subst hv
      rw [if_pos rfl]
      cases h : allAt? v.doc others with
      | none =>
        simp only [h] at ih ⊢
        rw [ih]
        cases at? v.doc t <;> rfl
      | some us => simp only [at?_cons, if_true]
    · rw [if_neg hv, ← ih]
      cases allAt? v.doc others with
      | none => rfl
      | some us => simp only [at?_cons, if_neg hv]

/-! ### Trails without others -/

theorem mem_without {ns : List (Trail γ)} {t : Trail β} {v : Visit β} :
    v ∈ t.without ns ↔ v ∈ t ∧ ∀ n ∈ ns, v.doc ∉ n.docs := by
  simp [without, at?_eq_none_iff]

theorem mem_docs_without {ns : List (Trail γ)} {t : Trail β} {e : Nat} :
    e ∈ (t.without ns).docs ↔ e ∈ t.docs ∧ ∀ n ∈ ns, e ∉ n.docs := by
  rw [mem_docs, mem_docs]
  constructor
  · rintro ⟨v, hv, rfl⟩
    obtain ⟨hv, hns⟩ := mem_without.1 hv
    exact ⟨⟨v, hv, rfl⟩, hns⟩
  · rintro ⟨⟨v, hv, rfl⟩, hns⟩
    exact ⟨v, mem_without.2 ⟨hv, hns⟩, rfl⟩

theorem Sound.without {t : Trail β} (h : t.Sound) (ns : List (Trail γ)) :
    (t.without ns).Sound := h.sublist List.filter_sublist

/-- Skipping in a trail skips in what is left of it without others. -/
theorem Sound.without_since {t : Trail β} (h : t.Sound) (ns : List (Trail γ)) (d : Nat) :
    (t.since d).without ns = (t.without ns).since d := by
  rw [(h.without ns).since_eq_filter, h.since_eq_filter, Trail.without, Trail.without,
    List.filter_filter, List.filter_filter]
  exact List.filter_congr fun v _ => Bool.and_comm ..

/-- Only the documents of the other trails count for what is left without them. -/
theorem without_congr {ms ns : List (Trail γ)} {t : Trail β}
    (h : ∀ v ∈ t, (∃ m ∈ ms, v.doc ∈ m.docs) ↔ ∃ n ∈ ns, v.doc ∈ n.docs) :
    t.without ms = t.without ns := by
  refine List.filter_congr fun v hv => ?_
  have hiff := h v hv
  rw [Bool.eq_iff_iff, List.all_eq_true, List.all_eq_true]
  simp only [Option.isNone_iff_eq_none, at?_eq_none_iff]
  constructor
  · intro hms n hn hmem
    obtain ⟨m, hm, hmem⟩ := hiff.2 ⟨n, hn, hmem⟩
    exact hms m hm hmem
  · intro hns m hm hmem
    obtain ⟨n, hn, hmem⟩ := hiff.1 ⟨m, hm, hmem⟩
    exact hns n hn hmem

theorem without_cons_of_mem {ns : List (Trail γ)} {v : Visit β} {t : Trail β}
    (h : ∃ n ∈ ns, v.doc ∈ n.docs) : without ns (v :: t) = without ns t := by
  obtain ⟨n, hn, hmem⟩ := h
  refine List.filter_cons_of_neg ?_
  rw [List.all_eq_true]
  intro hall
  exact at?_eq_none_iff.1 (Option.isNone_iff_eq_none.1 (hall n hn)) hmem

theorem without_cons_of_not_mem {ns : List (Trail γ)} {v : Visit β} {t : Trail β}
    (h : ¬ ∃ n ∈ ns, v.doc ∈ n.docs) : without ns (v :: t) = v :: without ns t := by
  refine List.filter_cons_of_pos (List.all_eq_true.2 fun n hn => ?_)
  exact Option.isNone_iff_eq_none.2 (at?_eq_none_iff.2 fun hmem => h ⟨n, hn, hmem⟩)

end TextSearch.Trail
