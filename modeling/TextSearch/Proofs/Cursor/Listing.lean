import Mathlib.Data.Finset.Sort
import TextSearch.Proofs.Cursor.Posting
import TextSearch.Proofs.Cursor.Proximity
import TextSearch.Proofs.Cursor.SpanUnion
import TextSearch.Proofs.Span.Combinations

/-!
# What trails list in one document

A trail is tidy if it visits no document twice and none for nothing. The trails of
span cursors over documents that name no field twice are tidy, and what a union or
a proximity of such trails lists in a document depends on what its operands list
there: `SpanUnion.listed_merged` and `SpanProximity.listed_matched`.
-/

namespace TextSearch

namespace Trail

variable {β γ : Type}

/-- What is listed on the first visit to a document; nothing if there is none. -/
def listed (d : Nat) (t : Trail (List β)) : List β := (t.at? d).getD []

/-- The documents ascend, and none is visited twice. -/
structure Simple (t : Trail β) : Prop where
  /-- The documents do not fall. -/
  sound : t.Sound
  /-- No document is visited twice. -/
  once : t.docs.Nodup

/-- A simple trail with something listed on every visit. -/
structure Tidy (t : Trail (List β)) : Prop extends Simple t where
  /-- Something is listed on every visit. -/
  filled : ∀ v ∈ t, v.shown ≠ []

theorem Simple.showing {t : Trail β} (h : t.Simple) (f : β → γ) : (t.showing f).Simple :=
  ⟨h.sound.showing f, by rw [docs_showing]; exact h.once⟩

/-- Whatever keeps the order of the visits and adds none keeps a trail simple. -/
theorem Simple.sublist {s t : Trail β} (h : t.Simple) (hs : s.Sublist t) : s.Simple :=
  ⟨h.sound.sublist hs, h.once.sublist (hs.map _)⟩

theorem Simple.pairwise_docs {t : Trail β} (h : t.Simple) : t.docs.Pairwise (· < ·) := by
  refine (List.pairwise_and_iff.2 ⟨(sound_iff_docs.1 h.sound).1, h.once⟩).imp ?_
  exact fun ⟨hle, hne⟩ => Nat.lt_of_le_of_ne hle hne

/-- The documents of a simple trail are known from which they are. -/
theorem Simple.docs_eq_sort {t : Trail β} (h : t.Simple) {ds : Finset Nat}
    (hmem : ∀ d, d ∈ t.docs ↔ d ∈ ds) : t.docs = ds.sort := by
  have hset : t.docs.toFinset = ds := by
    ext d
    rw [List.mem_toFinset, hmem]
  rw [← hset]
  exact ((List.toFinset_sort (· ≤ ·) h.once).2 (sound_iff_docs.1 h.sound).1).symm

/-- A tidy trail visits the documents for which it lists something. -/
theorem Tidy.mem_docs_iff {t : Trail (List β)} (h : t.Tidy) {d : Nat} :
    d ∈ t.docs ↔ t.listed d ≠ [] := by
  rw [← isSome_at?_iff, listed]
  cases hat : t.at? d with
  | none => simp
  | some b => simpa using h.filled _ (mem_of_at?_eq_some hat)

theorem at?_of_mem {t : Trail β} (honce : t.docs.Nodup) {v : Visit β} (hv : v ∈ t) :
    t.at? v.doc = some v.shown := by
  induction t with
  | nil => cases hv
  | cons u t ih =>
    obtain ⟨hu, ht⟩ := List.nodup_cons.1 honce
    rw [at?_cons]
    rcases List.mem_cons.1 hv with rfl | hv
    · rw [if_pos rfl]
    · have hne : u.doc ≠ v.doc := fun heq => hu (mem_docs.2 ⟨v, hv, heq.symm⟩)
      rw [if_neg hne, ih ht hv]

theorem at?_showing (f : β → γ) (d : Nat) (t : Trail β) :
    (t.showing f).at? d = (t.at? d).map f := by
  induction t with
  | nil => rfl
  | cons v t ih =>
    rw [showing_cons, at?_cons, at?_cons, ih]
    split <;> rfl

/-- Where no document is visited twice, a choice is made from what is shown in a document. -/
theorem listed_choosing {t : Trail β} (honce : t.docs.Nodup) (f : β → List γ) (d : Nat) :
    (t.choosing f).listed d = ((t.at? d).map f).getD [] := by
  induction t with
  | nil => rfl
  | cons v t ih =>
    obtain ⟨hv, ht⟩ := List.nodup_cons.1 honce
    rw [choosing_cons, at?_cons]
    by_cases hd : v.doc = d
    · subst hd
      rw [if_pos rfl]
      split
      · next hnil =>
        have hnone : at? v.doc t = none := at?_eq_none_iff.2 hv
        rw [ih ht, hnone, Option.map_some, hnil]
        rfl
      · rw [listed, at?_cons, if_pos rfl]
        rfl
    · rw [if_neg hd, ← ih ht]
      split
      · rfl
      · rw [listed, at?_cons, if_neg hd, listed]

/-- What a filter keeps of a trail is listed where the trail lists it. -/
theorem listed_choosing_keep {t : Trail (List Span)} (honce : t.docs.Nodup) (filter : SpanFilter)
    (d : Nat) : (t.choosing filter.keep).listed d = filter.keep (t.listed d) := by
  rw [listed_choosing honce, listed]
  cases t.at? d with
  | none => cases filter <;> simp [SpanFilter.keep]
  | some ss => rfl

theorem filled_choosing (f : β → List γ) (t : Trail β) : ∀ v ∈ t.choosing f, v.shown ≠ [] := by
  induction t with
  | nil => simp [choosing]
  | cons v t ih =>
    rw [choosing_cons]
    split
    · exact ih
    · next hne => exact List.forall_mem_cons.2 ⟨hne, ih⟩

/-- A choice makes a trail tidy that visits no document twice. -/
theorem tidy_choosing {t : Trail β} (hsound : t.Sound) (honce : t.docs.Nodup) (f : β → List γ) :
    (t.choosing f).Tidy :=
  ⟨⟨hsound.choosing f, honce.sublist (docs_choosing_sublist f t)⟩, filled_choosing f t⟩

/-! ### Postings -/

theorem nodup_docs_gatedVisits {ps : List Posting} (h : ps.Pairwise fun p q => p.doc < q.doc)
    (gates : List Threshold) : (gatedVisits gates ps).docs.Nodup := by
  rw [gatedVisits, Posting.trail, Trail.docs, List.map_map]
  refine List.pairwise_map.2 ((h.filter _).imp fun {p q} hlt heq => ?_)
  have heq : p.doc = q.doc := heq
  omega

theorem find?_eq_none_of_lt {ps : List Posting} {d : Nat} (h : ∀ p ∈ ps, d < p.doc) :
    ps.find? (fun p => p.doc == d) = none := by
  rw [List.find?_eq_none]
  intro p hp
  have hlt := h p hp
  simp only [beq_iff_eq]
  omega

theorem at?_gatedVisits {ps : List Posting} (h : ps.Pairwise fun p q => p.doc < q.doc)
    (gates : List Threshold) (d : Nat) :
    (gatedVisits gates ps).at? d = (ps.find? fun p => p.doc == d).filter (passes gates) := by
  induction ps with
  | nil => rfl
  | cons p ps ih =>
    obtain ⟨hp, hps⟩ := List.pairwise_cons.1 h
    have hrest := ih hps
    rw [gatedVisits] at hrest ⊢
    rw [List.find?_cons]
    by_cases hd : p.doc = d
    · have hnone := find?_eq_none_of_lt fun q hq => hd ▸ hp q hq
      rw [hnone] at hrest
      have hfirst : (p.doc == d) = true := beq_iff_eq.2 hd
      simp only [hfirst, Option.filter_some, List.filter_cons]
      by_cases hpass : passes gates p = true
      · rw [if_pos hpass, if_pos hpass, Posting.trail_cons, at?_cons]
        exact if_pos hd
      · rw [if_neg hpass, if_neg hpass, hrest]
        rfl
    · rw [beq_eq_false_iff_ne.2 hd, ← hrest, List.filter_cons]
      split
      · rw [Posting.trail_cons, at?_cons]
        exact if_neg hd
      · rfl

/-! ### Unions -/

/-- A union shows something from a list on every visit if its trails show no empty lists. -/
theorem filled_union {ts : List (Trail (List β))} (h : ∀ t ∈ ts, ∀ v ∈ t, v.shown ≠ []) :
    ∀ v ∈ union ts, v.shown.flatten ≠ [] := by
  intro v hv hnil
  obtain ⟨bs, hbs⟩ := List.exists_mem_of_ne_nil _ (shown_ne_nil_of_mem_union v hv)
  obtain ⟨t, ht, hvisit⟩ := exists_visit_union.1 ⟨v, hv, rfl, hbs⟩
  exact h t ht _ hvisit (List.flatten_eq_nil_iff.1 hnil bs hbs)

/-- A union visits no document twice if none of its trails does. -/
theorem nodup_docs_union {ts : List (Trail β)} (hsound : ∀ t ∈ ts, t.Sound)
    (honce : ∀ t ∈ ts, t.docs.Nodup) : (union ts).docs.Nodup := by
  induction ts using union_induction with
  | nil ts h =>
    rw [union_of_none h]
    exact .nil
  | step ts d h ih =>
    have hleft : ∀ t ∈ ts.map (leaving d), t.docs.Nodup := by
      intro t ht
      obtain ⟨u, hu, rfl⟩ := List.mem_map.1 ht
      rw [leaving]
      split
      · exact (honce u hu).sublist ((List.tail_sublist u).map _)
      · exact honce u hu
    rw [union_of_some h, docs_cons]
    refine List.nodup_cons.2 ⟨fun hmem => ?_, ih (sound_map_leaving hsound d) hleft⟩
    -- a trail that begins with the document has left it and does not come back
    obtain ⟨t, ht, hd⟩ := mem_docs_union.1 hmem
    obtain ⟨u, hu, rfl⟩ := List.mem_map.1 ht
    cases u with
    | nil => simp [leaving] at hd
    | cons v u =>
      by_cases hv : v.doc = d
      · have htail : leaving d (v :: u) = u := by simp [leaving, hv]
        rw [htail, ← hv] at hd
        exact (List.nodup_cons.1 (honce _ hu)).1 hd
      · have hself : leaving d (v :: u) = v :: u := by simp [leaving, hv]
        rw [hself] at hd
        obtain ⟨w, hw, hwd⟩ := mem_docs.1 hd
        have hwd : w.doc = d := hwd
        have := (hsound _ hu).head_le hw
        have := le_of_leastDoc? hsound h hu (List.mem_cons_self ..)
        omega

theorem simple_union {ts : List (Trail β)} (h : ∀ t ∈ ts, t.Simple) : (union ts).Simple :=
  ⟨sound_union fun t ht => (h t ht).sound,
    nodup_docs_union (fun t ht => (h t ht).sound) fun t ht => (h t ht).once⟩

theorem simple_meet {ts : List (Trail β)} (h : ∀ t ∈ ts, t.Simple) : (meet ts).Simple := by
  refine ⟨sound_meet fun t ht => (h t ht).sound, ?_⟩
  cases ts with
  | nil => exact .nil
  | cons lead others =>
    exact (h lead (List.mem_cons_self ..)).once.sublist (docs_meet_sublist lead others)

theorem flatten_filterMap_at? (ts : List (Trail (List β))) (d : Nat) :
    (ts.filterMap (at? d)).flatten = ts.flatMap (listed d) := by
  induction ts with
  | nil => rfl
  | cons t ts ih =>
    rw [List.filterMap_cons, List.flatMap_cons, listed]
    cases t.at? d with
    | none => exact ih
    | some bs => rw [List.flatten_cons, ih, Option.getD_some]

end Trail

open Trail

namespace SpanUnion

/-- A union lists in a document what its operands list there, in order. -/
theorem listed_merged {ts : List (Trail (List Span))} (hsound : ∀ t ∈ ts, t.Sound) (d : Nat) :
    (merged ts).listed d = Span.sorted (ts.flatMap (listed d)) := by
  rw [merged, listed, at?_showing, at?_union hsound, ← flatten_filterMap_at?]
  split
  · next hnil =>
    rw [hnil, List.flatten_nil, Span.sorted_nil]
    rfl
  · rfl

theorem sorted_ne_nil {ss : List Span} (h : ss ≠ []) : Span.sorted ss ≠ [] := by
  intro hnil
  have hperm := Span.sorted_perm ss
  rw [hnil] at hperm
  exact h hperm.nil_eq.symm

/-- Something is listed on every visit of a union if that is so for its operands. -/
theorem filled_merged {ts : List (Trail (List Span))} (h : ∀ t ∈ ts, ∀ v ∈ t, v.shown ≠ []) :
    ∀ v ∈ merged ts, v.shown ≠ [] := by
  intro v hv
  obtain ⟨u, hu, rfl⟩ := List.mem_map.1 hv
  exact sorted_ne_nil (filled_union h u hu)

/-- A union of tidy trails is tidy. -/
theorem tidy_merged {ts : List (Trail (List Span))} (htidy : ∀ t ∈ ts, t.Tidy) :
    (merged ts).Tidy := by
  have hsimple := simple_union fun t ht => (htidy t ht).toSimple
  exact ⟨hsimple.showing _, filled_merged fun t ht => (htidy t ht).filled⟩

end SpanUnion

namespace SpanProximity

/-- A proximity of trails that visit no document twice is tidy. -/
theorem tidy_matched {ts : List (Trail (List Span))} (hsimple : ∀ t ∈ ts, t.Simple)
    (slop : UInt32) (inOrder : Bool) : (matched slop inOrder ts).Tidy := by
  have hmeet := simple_meet hsimple
  exact tidy_choosing hmeet.sound hmeet.once _

theorem near_of_nil_mem {slop : UInt32} {inOrder : Bool} {clauses : List (List Span)}
    (h : [] ∈ clauses) : Span.near slop inOrder clauses = [] := by
  refine List.eq_nil_iff_forall_not_mem.2 fun s hs => ?_
  obtain ⟨pick, hpick, -, -⟩ := Span.mem_near.1 hs
  clear hs
  induction hpick with
  | nil => cases h
  | cons hs _ ih =>
    rcases List.mem_cons.1 h with rfl | h
    · cases hs
    · exact ih h

theorem allAt?_cases (ts : List (Trail (List Span))) (d : Nat) :
    (allAt? d ts = none ∧ [] ∈ ts.map (listed d)) ∨ allAt? d ts = some (ts.map (listed d)) := by
  induction ts with
  | nil => exact .inr rfl
  | cons t ts ih =>
    rw [allAt?, List.map_cons, listed]
    cases t.at? d with
    | none => exact .inl ⟨rfl, List.mem_cons_self ..⟩
    | some ss =>
      rcases ih with ⟨hnone, hmem⟩ | hall
      · exact .inl ⟨by rw [hnone], List.mem_cons_of_mem _ hmem⟩
      · exact .inr (by rw [hall]; rfl)

/-- A proximity lists in a document the matches of what its operands list there. -/
theorem listed_matched {ts : List (Trail (List Span))} (hsimple : ∀ t ∈ ts, t.Simple)
    (slop : UInt32) (inOrder : Bool) (d : Nat) :
    (matched slop inOrder ts).listed d = Span.near slop inOrder (ts.map (listed d)) := by
  cases ts with
  | nil =>
    rw [List.map_nil, Span.near_nil]
    rfl
  | cons lead others =>
    have hmeet := simple_meet hsimple
    rw [matched, listed_choosing hmeet.once, at?_meet]
    rcases allAt?_cases (lead :: others) d with ⟨hnone, hmem⟩ | hall
    · rw [hnone, near_of_nil_mem hmem]
      rfl
    · rw [hall]
      rfl

end SpanProximity

end TextSearch
