import Mathlib.Logic.Function.Basic
import TextSearch.Proofs.Search.Collecting

/-!
# Runs of collectors

Several collectors see hits, forget them and are merged into each other. Hits get lost on the
way, as a collector keeps no more of them than its size. Those that are lost are never among
the best of a collector that is no larger, so that in the end a collector has what it would have
if it had seen by itself every hit that reached it (`CollectorRun.eq_ofHits`), in whatever order
and over whichever collectors the hits have come: `CollectorRun.topDocs_of_run`.
-/

namespace TextSearch

/-! ### The best of some hits -/

section Best

variable {R : Type} [ScoreNumber R] [Std.TransCmp (ScoreNumber.order (R := R))]
  [Std.LawfulEqCmp (ScoreNumber.order (R := R))]

namespace Hit

/-- Hits that are no worse than each other are the same. -/
theorem eq_of_noWorse {a b : Hit R} (hab : a.noWorse b = true) (hba : b.noWorse a = true) :
    a = b := by
  have hrank : a.rank b = .eq := Std.OrientedCmp.isLE_antisymm hab hba
  rw [rank, Ordering.then_eq_eq] at hrank
  obtain ⟨hscore, hdoc⟩ := hrank
  cases a
  cases b
  rw [mk.injEq]
  exact ⟨Nat.compare_eq_eq.1 hdoc, (Std.LawfulEqCmp.eq_of_compare hscore).symm⟩

/-- Hits are in order in one way only. -/
theorem Sorted.unique {l m : List (Hit R)} (hl : Sorted l) (hm : Sorted m) (h : l.Perm m) :
    l = m :=
  h.eq_of_pairwise (fun _ _ _ _ => eq_of_noWorse) hl hm

omit [Std.TransCmp (ScoreNumber.order (R := R))] [Std.LawfulEqCmp (ScoreNumber.order (R := R))] in
theorem insert_eq_cons {a : Hit R} {l : List (Hit R)} (h : ∀ b ∈ l, a.noWorse b = true) :
    a.insert l = a :: l := by
  cases l with
  | nil => rfl
  | cons b l => rw [insert, if_pos (h b (List.mem_cons_self ..))]

/-- A hit that as many others are no worse than as are kept changes nothing of what is kept: if
it comes before the last of these, it is the same as them. -/
theorem Sorted.take_insert_of_le {l : List (Hit R)} (h : Sorted l) {a : Hit R} {k : Nat}
    (hk : k ≤ l.countP fun b => b.noWorse a) : (a.insert l).take k = l.take k := by
  induction l generalizing k with
  | nil =>
    have hzero : k = 0 := Nat.le_zero.1 hk
    rw [hzero, List.take_zero, List.take_zero]
  | cons b l ih =>
    obtain ⟨hb, hl⟩ := List.pairwise_cons.1 h
    cases k with
    | zero => rw [List.take_zero, List.take_zero]
    | succ k =>
      have hrest : k ≤ l.countP fun b => b.noWorse a := by
        rw [List.countP_cons] at hk
        split at hk <;> omega
      rw [Hit.insert]
      split
      · next hab =>
        -- some hit that is no worse than `a` stands at or behind `b`, which is no worse than it
        have hba : b.noWorse a = true := by
          obtain ⟨c, hc, hca⟩ := List.countP_pos_iff.1 (Nat.lt_of_lt_of_le (Nat.succ_pos k) hk)
          rcases List.mem_cons.1 hc with rfl | hc
          · exact hca
          · exact noWorse_trans (hb c hc) hca
        obtain rfl := eq_of_noWorse hab hba
        rw [List.take_succ_cons, List.take_succ_cons, ← ih hl hrest, insert_eq_cons hb]
      · rw [List.take_succ_cons, List.take_succ_cons, ih hl hrest]

theorem Sorted.take_insertAll_of_le {l : List (Hit R)} (h : Sorted l) {hs : List (Hit R)} {k : Nat}
    (hk : ∀ a ∈ hs, k ≤ l.countP fun b => b.noWorse a) :
    (Hit.insertAll hs l).take k = l.take k := by
  induction hs generalizing l with
  | nil => rfl
  | cons a hs ih =>
    obtain ⟨ha, hhs⟩ := List.forall_mem_cons.1 hk
    rw [← h.take_insert_of_le ha]
    refine ih (h.insert a) fun b hb => Nat.le_trans (hhs b hb) ?_
    rw [(insert_perm a l).countP_eq]
    exact (List.sublist_cons_self a l).countP_le

/-- Hits in their order. -/
def ordered (hs : List (Hit R)) : List (Hit R) := insertAll hs []

omit [Std.LawfulEqCmp (ScoreNumber.order (R := R))] in
theorem sorted_ordered (hs : List (Hit R)) : Sorted (ordered hs) := Sorted.insertAll .nil hs

omit [Std.TransCmp (ScoreNumber.order (R := R))] [Std.LawfulEqCmp (ScoreNumber.order (R := R))] in
theorem ordered_perm (hs : List (Hit R)) : (ordered hs).Perm hs := by
  rw [ordered]
  simpa using insertAll_perm hs []

theorem ordered_congr {hs hs' : List (Hit R)} (h : hs.Perm hs') : ordered hs = ordered hs' :=
  (sorted_ordered hs).unique (sorted_ordered hs')
    ((ordered_perm hs).trans (h.trans (ordered_perm hs').symm))

theorem insertAll_ordered (hs hs' : List (Hit R)) :
    insertAll hs (ordered hs') = ordered (hs ++ hs') :=
  ((sorted_ordered hs').insertAll hs).unique (sorted_ordered _)
    ((insertAll_perm hs _).trans
      (((ordered_perm hs').append_left hs).trans (ordered_perm _).symm))

/-- For the best hits of all, no more are needed of some of them than their best ones. -/
theorem take_ordered_append {k m : Nat} (hkm : k ≤ m) (hs hs' : List (Hit R)) :
    (ordered ((ordered hs).take m ++ hs')).take k = (ordered (hs ++ hs')).take k := by
  have hsplit : ordered (hs ++ hs') =
      insertAll ((ordered hs).drop m) (ordered ((ordered hs).take m ++ hs')) := by
    rw [insertAll_ordered]
    refine ordered_congr ?_
    rw [← List.append_assoc]
    refine List.Perm.append_right hs' ((ordered_perm hs).symm.trans ?_)
    conv_lhs => rw [← List.take_append_drop m (ordered hs)]
    exact List.perm_append_comm
  rw [hsplit]
  refine ((sorted_ordered ((ordered hs).take m ++ hs')).take_insertAll_of_le fun a ha => ?_).symm
  have hlength : ((ordered hs).take m).length = m := by
    have hdropped := List.length_pos_of_mem ha
    rw [List.length_drop] at hdropped
    rw [List.length_take, Nat.min_eq_left (by omega)]
  have hbetter : ∀ b ∈ (ordered hs).take m, b.noWorse a = true := by
    have hsorted := sorted_ordered hs
    rw [Sorted, ← List.take_append_drop m (ordered hs)] at hsorted
    exact fun b hb => (List.pairwise_append.1 hsorted).2.2 b hb a ha
  calc k ≤ m := hkm
    _ = ((ordered hs).take m).countP fun b => b.noWorse a := by
        rw [List.countP_eq_length.2 hbetter, hlength]
    _ ≤ ((ordered hs).take m ++ hs').countP fun b => b.noWorse a :=
        (List.sublist_append_left _ _).countP_le
    _ = _ := ((ordered_perm _).countP_eq _).symm

end Hit

namespace TopHits

omit [Std.TransCmp (ScoreNumber.order (R := R))] [Std.LawfulEqCmp (ScoreNumber.order (R := R))] in
theorem ofHits_eq_ordered (size : Nat) (hs : List (Hit R)) :
    ofHits size hs = ⟨size, (Hit.ordered hs).take size, hs.length⟩ := ofHits_eq size hs

/-- The order in which hits are seen does not matter. -/
theorem ofHits_congr (size : Nat) {hs hs' : List (Hit R)} (h : hs.Perm hs') :
    ofHits size hs = ofHits size hs' := by
  rw [ofHits_eq_ordered, ofHits_eq_ordered, Hit.ordered_congr h, h.length_eq]

theorem collect_ofHits (size : Nat) (hs : List (Hit R)) (h : Hit R) :
    (ofHits size hs).collect h = ofHits size (h :: hs) := by
  have hlast : (ofHits size hs).collect h = ofHits size (hs ++ [h]) := by
    rw [ofHits, ofHits, List.foldl_append, List.foldl_cons, List.foldl_nil]
  rw [hlast]
  exact ofHits_congr size List.perm_append_comm

/-- A collector that another one is merged into, which is no smaller, has seen what both have
seen, in whatever order it is offered the hits that the other one has kept. -/
theorem merge_ofHits_of_le {size size' : Nat} (hsize : size ≤ size') {hs hs' kept : List (Hit R)}
    (hkept : kept.Perm (ofHits size' hs').kept) :
    (ofHits size hs).merge { ofHits size' hs' with kept } = ofHits size (hs' ++ hs) := by
  rw [ofHits_eq_ordered] at hkept
  have hoffered : Hit.insertAll kept (Hit.ordered hs) =
      Hit.ordered ((Hit.ordered hs').take size' ++ hs) := by
    rw [Hit.insertAll_ordered]
    exact Hit.ordered_congr (hkept.append_right hs)
  rw [ofHits_eq_ordered, ofHits_eq_ordered, ofHits_eq_ordered, merge]
  simp only
  rw [foldl_offer, hoffered, Hit.take_ordered_append hsize, List.length_append, Nat.add_comm]

end TopHits

end Best

/-! ### Scores of 32 bits -/

instance : Std.TransCmp (ScoreNumber.order : Single → Single → Ordering) :=
  inferInstanceAs (Std.TransCmp (compareOn Single.rank))

instance : Std.LawfulEqCmp (ScoreNumber.order : Single → Single → Ordering) where
  eq_of_compare h := Single.rank_inj.1 (Nat.compare_eq_eq.1 h)

/-- A hit is listed before another one, unless they are the same: it has the higher score in the
total order of all that can be stored, or the same score and no higher document id. -/
def Hit.Precedes (a b : Hit Single) : Prop :=
  b.score.rank < a.score.rank ∨ a.score = b.score ∧ a.doc ≤ b.doc

theorem Hit.precedes_iff {a b : Hit Single} : a.Precedes b ↔ a.noWorse b = true := by
  have hrank : a.rank b = (compare b.score.rank a.score.rank).then (compare a.doc b.doc) := rfl
  rw [noWorse, hrank, Precedes, ← Single.rank_inj, Ordering.isLE_then_iff_and]
  rw [Nat.isLE_compare, Nat.isLE_compare, Nat.compare_eq_lt]
  omega

/-! ### Runs -/

/-- A step of a run over collectors. -/
inductive CollectorStep (ι R : Type) where
  /-- A collector sees a hit. -/
  | collect (i : ι) (h : Hit R)
  /-- A collector forgets every hit. -/
  | reset (i : ι)
  /-- A collector sees what another one has seen, which is used up by that. -/
  | merge (i j : ι)

namespace CollectorStep

variable {ι R : Type} [DecidableEq ι]

/-- The hits that have reached each collector after a step. -/
def reach (reached : ι → List (Hit R)) : CollectorStep ι R → ι → List (Hit R)
  | collect i h => Function.update reached i (h :: reached i)
  | reset i => Function.update reached i []
  | merge i j => Function.update reached i (reached j ++ reached i)

/-- The hits that have reached each collector since its last reset, directly or with a collector
that was merged into it. -/
def reached (steps : List (CollectorStep ι R)) : ι → List (Hit R) := steps.foldl reach fun _ => []

theorem reached_concat (steps : List (CollectorStep ι R)) (step : CollectorStep ι R) :
    reached (steps ++ [step]) = step.reach (reached steps) := List.foldl_append ..

variable [ScoreNumber R]

/-- What a step makes of the collectors; those that are used up are missing. The hits that a
merged collector has kept are offered in any order. -/
inductive Leads : CollectorStep ι R → (ι → Option (TopHits R)) → (ι → Option (TopHits R)) → Prop
  | collect {cs : ι → Option (TopHits R)} {i : ι} {c : TopHits R} (hc : cs i = some c)
    (h : Hit R) : Leads (collect i h) cs (Function.update cs i (some (c.collect h)))
  | reset {cs : ι → Option (TopHits R)} {i : ι} {c : TopHits R} (hc : cs i = some c) :
    Leads (reset i) cs (Function.update cs i (some c.reset))
  | merge {cs : ι → Option (TopHits R)} {i j : ι} {c d : TopHits R} {kept : List (Hit R)}
    (hij : i ≠ j) (hc : cs i = some c) (hd : cs j = some d) (hkept : kept.Perm d.kept) :
    Leads (merge i j) cs
      (Function.update (Function.update cs j none) i (some (c.merge { d with kept })))

end CollectorStep

open CollectorStep

/-- The collectors, new ones of certain sizes at first, after some steps. -/
inductive CollectorRun {ι R : Type} [DecidableEq ι] [ScoreNumber R] (sizes : ι → Nat) :
    List (CollectorStep ι R) → (ι → Option (TopHits R)) → Prop
  | start : CollectorRun sizes [] fun i => some (.empty (sizes i))
  | step {steps : List (CollectorStep ι R)} {cs cs' : ι → Option (TopHits R)}
    {next : CollectorStep ι R} (h : CollectorRun sizes steps cs) (hnext : next.Leads cs cs') :
    CollectorRun sizes (steps ++ [next]) cs'

/-- Collectors are merged only into ones that are no larger. -/
def MergesFit {ι R : Type} (sizes : ι → Nat) (steps : List (CollectorStep ι R)) : Prop :=
  ∀ i j, .merge i j ∈ steps → sizes i ≤ sizes j

namespace CollectorRun

section Any

variable {ι R : Type} [DecidableEq ι] [ScoreNumber R] [Std.TransCmp (ScoreNumber.order (R := R))]
  [Std.LawfulEqCmp (ScoreNumber.order (R := R))] {sizes : ι → Nat}

/-- Every collector has what it would have if it had seen by itself all hits that have reached
it. -/
def AsIfSeen (sizes : ι → Nat) (reached : ι → List (Hit R)) (cs : ι → Option (TopHits R)) : Prop :=
  ∀ i c, cs i = some c → c = .ofHits (sizes i) (reached i)

omit [Std.TransCmp (ScoreNumber.order (R := R))] [Std.LawfulEqCmp (ScoreNumber.order (R := R))] in
theorem AsIfSeen.update {reached : ι → List (Hit R)} {cs : ι → Option (TopHits R)}
    (h : AsIfSeen sizes reached cs) {i : ι} {c : TopHits R} {hs : List (Hit R)}
    (hc : c = .ofHits (sizes i) hs) :
    AsIfSeen sizes (Function.update reached i hs) (Function.update cs i (some c)) := by
  intro j d hd
  by_cases hj : j = i
  · subst hj
    rw [Function.update_self] at hd ⊢
    cases hd
    exact hc
  · rw [Function.update_of_ne hj] at hd ⊢
    exact h j d hd

theorem AsIfSeen.step {reached : ι → List (Hit R)} {cs cs' : ι → Option (TopHits R)}
    {next : CollectorStep ι R} (h : AsIfSeen sizes reached cs)
    (hfits : MergesFit sizes [next]) (hnext : next.Leads cs cs') :
    AsIfSeen sizes (next.reach reached) cs' := by
  cases hnext with
  | @collect _ i c hc hit =>
    refine h.update ?_
    rw [h i c hc, TopHits.collect_ofHits]
  | @reset _ i c hc =>
    refine h.update ?_
    rw [h i c hc, TopHits.reset, TopHits.ofHits_eq]
    rfl
  | @merge _ i j c d kept hij hc hd hkept =>
    have hleft : AsIfSeen sizes reached (Function.update cs j none) := by
      intro k e he
      by_cases hk : k = j
      · rw [hk, Function.update_self] at he
        cases he
      · rw [Function.update_of_ne hk] at he
        exact h k e he
    refine hleft.update ?_
    have hd' := h j d hd
    rw [hd'] at hkept
    rw [h i c hc, hd']
    exact TopHits.merge_ofHits_of_le (hfits i j (List.mem_singleton_self _)) hkept

theorem asIfSeen {steps : List (CollectorStep ι R)} {cs : ι → Option (TopHits R)}
    (hrun : CollectorRun sizes steps cs) (hfits : MergesFit sizes steps) :
    AsIfSeen sizes (reached steps) cs := by
  induction hrun with
  | start =>
    intro i c hc
    cases hc
    rfl
  | step _ hnext ih =>
    rw [reached_concat]
    refine (ih fun i j hij => hfits i j (List.mem_append_left _ hij)).step (fun i j hij => ?_) hnext
    exact hfits i j (List.mem_append_right _ hij)

end Any

/-- Whatever steps some collectors have gone through, if none of them was merged into a larger
one: a collector of a size lists that many of the first ones of all the hits that have reached
it, by falling score in the total order of what can be stored and then by rising document, counts
all of them, and reports the score of the first one. So it makes no difference in which order the
steps were taken, nor how the hits were spread over collectors. -/
theorem topDocs_of_run {ι : Type} [DecidableEq ι] {sizes : ι → Nat}
    {steps : List (CollectorStep ι Single)} {cs : ι → Option (TopHits Single)}
    (hfits : MergesFit sizes steps) (hrun : CollectorRun sizes steps cs) {i : ι}
    {c : TopHits Single} (hc : cs i = some c) :
    (∃ ranking : List (Hit Single), ranking.Perm (reached steps i) ∧
      ranking.Pairwise Hit.Precedes ∧
      c.topDocs =
        { totalHits := (reached steps i).length
          maxScore := (ranking.take (sizes i)).head?.map (·.score)
          hits := ranking.take (sizes i) }) ∧
    ∀ {sizes' : ι → Nat} {steps' : List (CollectorStep ι Single)}
      {cs' : ι → Option (TopHits Single)} {i' : ι} {c' : TopHits Single},
      MergesFit sizes' steps' → CollectorRun sizes' steps' cs' → cs' i' = some c' →
        sizes' i' = sizes i → (reached steps' i').Perm (reached steps i) →
          c'.topDocs = c.topDocs := by
  have hseen := hrun.asIfSeen hfits i c hc
  constructor
  · refine ⟨Hit.ordered (reached steps i), Hit.ordered_perm _, ?_, ?_⟩
    · exact (Hit.sorted_ordered _).imp Hit.precedes_iff.2
    · rw [hseen, TopHits.ofHits_eq_ordered]
      rfl
  · intro sizes' steps' cs' i' c' hfits' hrun' hc' hsize hperm
    rw [hseen, hrun'.asIfSeen hfits' i' c' hc', hsize, TopHits.ofHits_congr _ hperm]

/-- A collector of two hits that a larger one is merged into, which has lost a hit with a score
below all others. Its scores include one that is no number, and zeros of both signs. -/
theorem topDocs_of_run_unequal :
    let undefined : Single := ⟨0x7fc00000⟩
    let zero : Single := ⟨0⟩
    let negativeZero : Single := ⟨0x80000000⟩
    let negativeInfinity : Single := ⟨0xff800000⟩
    let sizes : Bool → Nat := fun larger => if larger then 3 else 2
    let steps : List (CollectorStep Bool Single) :=
      [.collect false ⟨8, undefined⟩, .reset false, .collect false ⟨1, negativeZero⟩,
        .collect true ⟨6, negativeInfinity⟩, .collect true ⟨4, zero⟩, .collect true ⟨3, undefined⟩,
        .collect true ⟨2, zero⟩, .merge false true]
    ∃ cs, MergesFit sizes steps ∧ CollectorRun sizes steps cs ∧
      ∃ c, cs false = some c ∧ (∃ ranking : List (Hit Single),
        ranking.Perm (reached steps false) ∧ ranking.Pairwise Hit.Precedes ∧
          c.topDocs.hits = ranking.take 2) ∧
        c.topDocs.totalHits = 5 ∧ c.topDocs.maxScore = some undefined ∧
        c.topDocs.hits = [⟨3, undefined⟩, ⟨2, zero⟩] := by
  intro undefined zero negativeZero negativeInfinity sizes steps
  have hfits : MergesFit sizes steps := by
    intro i j hij
    simp only [steps, List.mem_cons, reduceCtorEq, false_or, List.not_mem_nil, or_false,
      CollectorStep.merge.injEq] at hij
    rw [hij.1, hij.2]
    decide
  have hstart : CollectorRun (R := Single) sizes [] fun i => some (.empty (sizes i)) := .start
  have hrun := hstart.step (.collect (i := false) rfl ⟨8, undefined⟩)
    |>.step (.reset (i := false) rfl)
    |>.step (.collect (i := false) rfl ⟨1, negativeZero⟩)
    |>.step (.collect (i := true) rfl ⟨6, negativeInfinity⟩)
    |>.step (.collect (i := true) rfl ⟨4, zero⟩)
    |>.step (.collect (i := true) rfl ⟨3, undefined⟩)
    |>.step (.collect (i := true) rfl ⟨2, zero⟩)
    |>.step (.merge (i := false) (j := true) (by decide) rfl rfl (List.reverse_perm _))
  obtain ⟨⟨ranking, hperm, hranked, htop⟩, -⟩ := topDocs_of_run (i := false) hfits hrun rfl
  exact ⟨_, hfits, hrun, _, rfl, ⟨ranking, hperm, hranked, congrArg TopDocs.hits htop⟩,
    by decide +kernel, by decide +kernel, by decide +kernel⟩

end CollectorRun

end TextSearch
