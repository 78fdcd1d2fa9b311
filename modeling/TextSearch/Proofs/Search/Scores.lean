import TextSearch.Proofs.Score.Exact
import TextSearch.Proofs.Search.Matching

/-!
# Scores of single documents

A matcher is made in one of many ways from those of the clauses of a combination, but
where scores are exact it makes no difference which: a document scores what the
clauses that have to match score there together with those that may.
Main statement: `TrailParts.scoreAt?_combine`.
-/

namespace TextSearch

open Trail

variable {R : Type}

namespace Trail

/-- The score on the first visit to a document. -/
def scoreAt? (d : Nat) (t : Trail (Merit R)) : Option R := (t.at? d).map (·.score)

/-- The scores on the first visits of several trails to a document. -/
def scoresAt (d : Nat) (ts : List (Trail (Merit R))) : List R := ts.filterMap (scoreAt? d)

theorem isSome_scoreAt?_iff {d : Nat} {t : Trail (Merit R)} :
    (t.scoreAt? d).isSome ↔ d ∈ t.docs := by
  rw [scoreAt?, Option.isSome_map, isSome_at?_iff]

theorem scoresAt_eq_map (d : Nat) (ts : List (Trail (Merit R))) :
    scoresAt d ts = (ts.filterMap (at? d)).map (·.score) := by
  rw [scoresAt, List.map_filterMap]
  rfl

theorem scoresAt_cons_of_eq {d : Nat} {t : Trail (Merit R)} {x : R} (h : t.scoreAt? d = some x)
    (ts : List (Trail (Merit R))) : scoresAt d (t :: ts) = x :: scoresAt d ts := by
  rw [scoresAt, List.filterMap_cons, h]
  rfl

theorem scoresAt_cons_of_not_mem {d : Nat} {t : Trail (Merit R)} (h : d ∉ t.docs)
    (ts : List (Trail (Merit R))) : scoresAt d (t :: ts) = scoresAt d ts := by
  have hnone : t.scoreAt? d = none := by
    rw [scoreAt?, at?_eq_none_iff.2 h]
    rfl
  rw [scoresAt, List.filterMap_cons, hnone]
  rfl

/-- Where all trails visit a document, all of them show something there. -/
theorem allAt?_eq_some {d : Nat} {ts : List (Trail (Merit R))} (h : ∀ t ∈ ts, d ∈ t.docs) :
    allAt? d ts = some (ts.filterMap (at? d)) := by
  induction ts with
  | nil => rfl
  | cons t ts ih =>
    obtain ⟨ht, hts⟩ := List.forall_mem_cons.1 h
    obtain ⟨m, hm⟩ := Option.isSome_iff_exists.1 (isSome_at?_iff.2 ht)
    rw [allAt?, List.filterMap_cons, hm, ih hts]

/-- What others leave of a trail shows what the trail does. -/
theorem scoreAt?_without {d : Nat} {t : Trail (Merit R)} {ns : List (Trail (Merit R))}
    (h : ∀ n ∈ ns, d ∉ n.docs) : (t.without ns).scoreAt? d = t.scoreAt? d := by
  induction t with
  | nil => rfl
  | cons v t ih =>
    rw [scoreAt?, scoreAt?] at *
    by_cases hv : v.doc = d
    · have hfree : ¬ ∃ n ∈ ns, v.doc ∈ n.docs := by
        rintro ⟨n, hn, hmem⟩
        exact h n hn (hv ▸ hmem)
      rw [without_cons_of_not_mem hfree, at?_cons, at?_cons, if_pos hv, if_pos hv]
    · rw [at?_cons d v t, if_neg hv, ← ih]
      by_cases hmem : ∃ n ∈ ns, v.doc ∈ n.docs
      · rw [without_cons_of_mem hmem]
      · rw [without_cons_of_not_mem hmem, at?_cons, if_neg hv]

end Trail

namespace TrailParts

variable [ScoreNumber R] {d : Nat}

/-- What a document scores for the clauses that have to match and for those that may. -/
def scoreAt (d : Nat) (p : TrailParts R) : R :=
  ScoreNumber.sum (scoresAt d p.required) + ScoreNumber.sum (scoresAt d p.optional)

variable [ExactScore R]

/-- Any of several trails scores what those that visit a document score there together. -/
theorem scoreAt?_anyOf {ts : List (Trail (Merit R))} (hsound : ∀ t ∈ ts, t.Sound)
    {t : Trail (Merit R)} (ht : anyOf ts = some t) :
    t.scoreAt? d = if scoresAt d ts = [] then none else some (ScoreNumber.sum (scoresAt d ts)) := by
  match ts, hsound, ht with
  | [one], _, ht =>
    cases ht
    cases hone : t.scoreAt? d with
    | none => simp [scoresAt, hone]
    | some x =>
      rw [scoresAt_cons_of_eq hone, scoresAt, List.filterMap_nil, ScoreNumber.sum_singleton]
      rfl
  | t₁ :: t₂ :: ts, hsound, ht =>
    cases ht
    rw [scoreAt?, at?_showing, at?_union hsound, scoresAt_eq_map]
    by_cases hnil : (t₁ :: t₂ :: ts).filterMap (at? d) = []
    · rw [hnil]
      rfl
    · have hmap : ((t₁ :: t₂ :: ts).filterMap (at? d)).map (·.score) ≠ [] :=
        fun h => hnil (List.map_eq_nil_iff.1 h)
      rw [if_neg hnil, if_neg hmap]
      rfl

/-- All of several trails score what they score in a document together, if all of them visit it. -/
theorem scoreAt?_allOf {ts : List (Trail (Merit R))} (hmem : ∀ t ∈ ts, d ∈ t.docs)
    {t : Trail (Merit R)} (ht : allOf ts = some t) :
    t.scoreAt? d = some (ScoreNumber.sum (scoresAt d ts)) := by
  match ts, hmem, ht with
  | [one], hmem, ht =>
    cases ht
    have hvisits := hmem t (List.mem_singleton_self t)
    obtain ⟨x, hx⟩ := Option.isSome_iff_exists.1 (isSome_scoreAt?_iff.2 hvisits)
    rw [scoresAt_cons_of_eq hx, scoresAt, List.filterMap_nil, ScoreNumber.sum_singleton, hx]
  | t₁ :: t₂ :: ts, hmem, ht =>
    cases ht
    rw [scoreAt?, at?_showing, at?_meet, allAt?_eq_some hmem, scoresAt_eq_map]
    rfl

omit [ExactScore R] in
theorem at?_accompanied (d : Nat) (optional required : Trail (Merit R)) :
    (MatchPreference.accompanied Merit.prefer optional required).at? d =
      (required.at? d).map fun m => m.prefer (optional.at? d) := by
  induction required with
  | nil => rfl
  | cons v t ih =>
    rw [MatchPreference.accompanied_cons, at?_cons, at?_cons, ih]
    by_cases hv : v.doc = d
    · rw [if_pos hv, if_pos hv, hv]
      rfl
    · rw [if_neg hv, if_neg hv]

/-- What has to match and what may match score together. -/
theorem scoreAt?_positive {p : TrailParts R} (hsound : ∀ t ∈ p.optional, t.Sound)
    (hrequired : ∀ t ∈ p.required, d ∈ t.docs) (hbacks : Backs d p) {t : Trail (Merit R)}
    (ht : p.positive true = some t) : t.scoreAt? d = some (p.scoreAt d) := by
  have hempty : ∀ x : R, x + ScoreNumber.emptySum = x := fun x => by
    rw [ScoreNumber.emptySum_eq_zero, ExactScore.add_zero]
  rw [positive] at ht
  rw [scoreAt]
  cases hall : allOf p.required with
  | none =>
    rw [hall] at ht
    have hnil := allOf_eq_none_iff.1 hall
    rw [scoreAt?_anyOf hsound ht, hnil]
    have hne : scoresAt d p.optional ≠ [] := by
      rcases hbacks with hsome | ⟨u, hu, hd⟩
      · exact absurd hnil hsome
      · obtain ⟨x, hx⟩ := Option.isSome_iff_exists.1 (isSome_scoreAt?_iff.2 hd)
        exact List.ne_nil_of_mem (List.mem_filterMap.2 ⟨u, hu, hx⟩)
    rw [if_neg hne]
    exact congrArg some (ExactScore.emptySum_add _).symm
  | some required =>
    have hscore := scoreAt?_allOf hrequired hall
    rw [hall] at ht
    cases hany : anyOf p.optional with
    | none =>
      rw [hany] at ht
      cases ht
      have hnil := anyOf_eq_none_iff.1 hany
      rw [hscore, hnil]
      exact congrArg some (hempty _).symm
    | some optional =>
      rw [hany] at ht
      cases ht
      have hoptional := scoreAt?_anyOf (d := d) hsound hany
      obtain ⟨m, hm, hms⟩ := Option.map_eq_some_iff.1 hscore
      rw [scoreAt?, if_pos rfl, at?_accompanied, hm, Option.map_some, Option.map_some, Merit.prefer,
        hms]
      rw [scoreAt?] at hoptional
      by_cases hnil : scoresAt d p.optional = []
      · rw [if_pos hnil, Option.map_eq_none_iff] at hoptional
        rw [hoptional, hnil, Option.elim_none, ExactScore.add_zero]
        exact congrArg some (hempty _).symm
      · rw [if_neg hnil] at hoptional
        obtain ⟨o, ho, hos⟩ := Option.map_eq_some_iff.1 hoptional
        rw [ho, Option.elim_some, hos]

/-- A combination that matches a document scores there what its clauses do, however it was
made. -/
theorem scoreAt?_combine {p : TrailParts R} (hsound : ∀ t ∈ p.optional, t.Sound)
    (hallows : Allows d p) (hbacks : Backs d p) {t : Trail (Merit R)}
    (ht : p.combine true = some t) : t.scoreAt? d = some (p.scoreAt d) := by
  obtain ⟨u, hu, rfl⟩ := Option.map_eq_some_iff.1 ht
  have hscore := scoreAt?_positive hsound hallows.1 hbacks hu
  split
  · exact hscore
  · rw [scoreAt?_without hallows.2, hscore]

end TrailParts

namespace TrailParts

variable [ScoreNumber R] {d : Nat}

/-- A clause that does not visit a document adds nothing to what is scored there, and neither does
one that must not match. -/
theorem scoreAt_add_of_not_mem {o : Occur} {t : Trail (Merit R)} (h : o = .mustNot ∨ d ∉ t.docs)
    (p : TrailParts R) : (p.add o t).scoreAt d = p.scoreAt d := by
  cases o with
  | mustNot => rfl
  | must =>
    have hnot : d ∉ t.docs := h.resolve_left (by decide)
    rw [scoreAt, add, scoresAt_cons_of_not_mem hnot, scoreAt]
  | should =>
    have hnot : d ∉ t.docs := h.resolve_left (by decide)
    rw [scoreAt, add, scoresAt_cons_of_not_mem hnot, scoreAt]

variable [ExactSum R]

/-- Any other clause adds what it scores in a document. -/
theorem scoreAt_add {o : Occur} (ho : o ≠ .mustNot) {t : Trail (Merit R)} {x : R}
    (h : t.scoreAt? d = some x) (p : TrailParts R) : (p.add o t).scoreAt d = x + p.scoreAt d := by
  cases o with
  | mustNot => exact absurd rfl ho
  | must =>
    rw [scoreAt, add, scoresAt_cons_of_eq h, ScoreNumber.sum_cons, scoreAt, ExactSum.add_assoc]
  | should =>
    rw [scoreAt, add, scoresAt_cons_of_eq h, ScoreNumber.sum_cons, scoreAt, ← ExactSum.add_assoc,
      ExactSum.add_comm _ x, ExactSum.add_assoc]

end TrailParts

end TextSearch
