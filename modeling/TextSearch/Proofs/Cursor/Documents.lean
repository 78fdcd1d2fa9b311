import TextSearch.Proofs.Cursor.Meeting

/-!
# Documents of joined trails

Which documents the union of trails visits, their meeting, or what others leave of a
trail, depends on the documents of these trails alone. What is shown on the way does
not matter: neither what it is nor of which type.
-/

namespace TextSearch.Trail

variable {β γ : Type}

/-- Trails that make the same visits, whatever they show. -/
def SameDocs (t : Trail β) (u : Trail γ) : Prop := t.docs = u.docs

namespace SameDocs

variable {t : Trail β} {u : Trail γ}

theorem head? (h : SameDocs t u) : t.head?.map (·.doc) = u.head?.map (·.doc) := by
  have hdocs := congrArg List.head? h
  rwa [docs, docs, List.head?_map, List.head?_map] at hdocs

theorem begins (h : SameDocs t u) (d : Nat) : t.begins d = u.begins d := by
  have hhead := h.head?
  cases t with
  | nil =>
    cases u with
    | nil => rfl
    | cons => cases hhead
  | cons v t =>
    cases u with
    | nil => cases hhead
    | cons w u =>
      have hdoc : v.doc = w.doc := Option.some.inj hhead
      rw [begins_cons, begins_cons, hdoc]

theorem leaving (h : SameDocs t u) (d : Nat) : SameDocs (t.leaving d) (u.leaving d) := by
  rw [Trail.leaving, Trail.leaving, h.begins d]
  split
  · have htail := congrArg List.tail h
    rwa [docs, docs, ← List.map_tail, ← List.map_tail] at htail
  · exact h

theorem isSome_at? (h : SameDocs t u) (d : Nat) : (t.at? d).isSome = (u.at? d).isSome := by
  rw [Bool.eq_iff_iff, isSome_at?_iff, isSome_at?_iff, h]

end SameDocs

theorem leastDoc?_congr {ts : List (Trail β)} {us : List (Trail γ)}
    (h : List.Forall₂ SameDocs ts us) : leastDoc? ts = leastDoc? us := by
  have hheads : ts.filterMap (fun t => t.head?.map (·.doc)) =
      us.filterMap fun u => u.head?.map (·.doc) := by
    induction h with
    | nil => rfl
    | cons htu _ ih => rw [List.filterMap_cons, List.filterMap_cons, htu.head?, ih]
  rw [leastDoc?, leastDoc?, hheads]

/-- Unions of trails with the same documents visit the same documents. -/
theorem SameDocs.union {ts : List (Trail β)} {us : List (Trail γ)}
    (h : List.Forall₂ SameDocs ts us) : SameDocs (union ts) (union us) := by
  induction ts using union_induction generalizing us with
  | nil ts hnone =>
    rw [SameDocs, union_of_none hnone, union_of_none ((leastDoc?_congr h).symm.trans hnone)]
    rfl
  | step ts d hsome ih =>
    have hleaving : List.Forall₂ SameDocs (ts.map (Trail.leaving d)) (us.map (Trail.leaving d)) := by
      rw [List.forall₂_map_left_iff, List.forall₂_map_right_iff]
      exact h.imp fun _ _ htu => htu.leaving d
    have hrest := ih hleaving
    rw [SameDocs] at hrest
    rw [SameDocs, union_of_some hsome, union_of_some ((leastDoc?_congr h).symm.trans hsome),
      docs_cons, docs_cons, hrest]

theorem isSome_allAt?_congr {d : Nat} {ts : List (Trail β)} {us : List (Trail γ)}
    (h : List.Forall₂ SameDocs ts us) : (allAt? d ts).isSome = (allAt? d us).isSome := by
  induction h with
  | nil => rfl
  | @cons t u ts us htu _ ih =>
    have hfirst := htu.isSome_at? d
    rw [allAt?, allAt?]
    cases ht : t.at? d <;> cases hu : u.at? d <;> cases hts : allAt? d ts <;>
      cases hus : allAt? d us <;> simp [ht, hu, hts, hus] at hfirst ih ⊢

/-- The documents of a meeting are those of the first trail that all others visit. -/
theorem docs_meet_cons (lead : Trail β) (others : List (Trail β)) :
    (meet (lead :: others)).docs = lead.docs.filter fun d => (allAt? d others).isSome := by
  induction lead with
  | nil => rfl
  | cons v lead ih =>
    rw [meet_cons_cons, docs_cons, List.filter_cons, ← ih]
    cases allAt? v.doc others <;> rfl

/-- Meetings of trails with the same documents visit the same documents. -/
theorem SameDocs.meet {ts : List (Trail β)} {us : List (Trail γ)}
    (h : List.Forall₂ SameDocs ts us) : SameDocs (meet ts) (meet us) := by
  cases h with
  | nil => rfl
  | cons htu hrest =>
    rw [SameDocs, docs_meet_cons, docs_meet_cons, htu]
    exact List.filter_congr fun d _ => isSome_allAt?_congr hrest

theorem docs_without (ns : List (Trail γ)) (t : Trail β) :
    (t.without ns).docs = t.docs.filter fun d => ns.all fun n => (n.at? d).isNone := by
  rw [without, docs, docs, List.filter_map]
  rfl

/-- What trails with the same documents leave of trails with the same documents. -/
theorem SameDocs.without {δ ε : Type} {t : Trail β} {u : Trail γ} (h : SameDocs t u)
    {ns : List (Trail δ)} {ms : List (Trail ε)} (hns : List.Forall₂ SameDocs ns ms) :
    SameDocs (t.without ns) (u.without ms) := by
  rw [SameDocs, docs_without, docs_without, h]
  refine List.filter_congr fun d _ => ?_
  induction hns with
  | nil => rfl
  | cons hnm _ ih =>
    rw [List.all_cons, List.all_cons, ih, ← Option.not_isSome, ← Option.not_isSome,
      hnm.isSome_at? d]

end TextSearch.Trail
