import Mathlib.Data.List.Nodup
import Mathlib.Data.List.Perm.Basic
import TextSearch.TopHits

/-!
# Collecting hits

What a collector keeps is the beginning of the list that inserting every hit
comes to. If it is large enough it keeps all hits, however scores are ordered. If
the order of scores is an order, collectors of several lists of hits merge into
one that keeps the best of all of them, so that it does not matter how the hits
were distributed.
-/

namespace TextSearch

variable {R : Type} [ScoreNumber R]

namespace Hit

/-- Insert hits one after the other. -/
def insertAll (hs acc : List (Hit R)) : List (Hit R) := hs.foldl (fun acc h => h.insert acc) acc

theorem insert_eq (h : Hit R) (l : List (Hit R)) :
    h.insert l = l.takeWhile (fun b => !h.noWorse b) ++ h :: l.dropWhile (fun b => !h.noWorse b) := by
  induction l with
  | nil => rfl
  | cons b l ih =>
    rw [insert, List.takeWhile_cons, List.dropWhile_cons]
    cases hb : h.noWorse b with
    | true => rfl
    | false =>
      simp only [Bool.false_eq_true, if_false, Bool.not_false, if_true, List.cons_append]
      rw [ih]

theorem insert_perm (h : Hit R) (l : List (Hit R)) : (h.insert l).Perm (h :: l) := by
  rw [insert_eq]
  conv_rhs => rw [← List.takeWhile_append_dropWhile (p := fun b => !h.noWorse b) (l := l)]
  exact List.perm_middle

theorem insertAll_perm (hs acc : List (Hit R)) : (insertAll hs acc).Perm (hs ++ acc) := by
  induction hs generalizing acc with
  | nil => exact .refl _
  | cons h hs ih =>
    refine (ih (h.insert acc)).trans ?_
    refine ((insert_perm h acc).append_left hs).trans ?_
    exact List.perm_middle

theorem length_insertAll (hs acc : List (Hit R)) :
    (insertAll hs acc).length = hs.length + acc.length := by
  rw [(insertAll_perm hs acc).length_eq, List.length_append]

/-- Of a list only as many hits as are kept in the end matter for an insertion. -/
theorem take_insert_take (k : Nat) (h : Hit R) (l : List (Hit R)) :
    (h.insert (l.take k)).take k = (h.insert l).take k := by
  induction l generalizing k with
  | nil => rw [List.take_nil]
  | cons b l ih =>
    cases k with
    | zero => simp
    | succ k =>
      rw [List.take_succ_cons, insert, insert]
      cases hb : h.noWorse b with
      | true =>
        simp only [if_true, List.take_succ_cons]
        cases k with
        | zero => simp
        | succ k => simp [List.take_take]
      | false =>
        simp only [Bool.false_eq_true, if_false, List.take_succ_cons]
        rw [ih k]

end Hit

namespace TopHits

/-- What a collector keeps of hits that it is offered. -/
theorem foldl_offer (size : Nat) (l hs : List (Hit R)) (seen : Nat) :
    hs.foldl offer ⟨size, l.take size, seen⟩ =
      ⟨size, (Hit.insertAll hs l).take size, seen⟩ := by
  induction hs generalizing l with
  | nil => rfl
  | cons h hs ih =>
    rw [List.foldl_cons, offer, Hit.take_insert_take, ih]
    rfl

theorem foldl_collect (size : Nat) (l hs : List (Hit R)) (seen : Nat) :
    hs.foldl collect ⟨size, l.take size, seen⟩ =
      ⟨size, (Hit.insertAll hs l).take size, seen + hs.length⟩ := by
  induction hs generalizing l seen with
  | nil => rfl
  | cons h hs ih =>
    have hstep : collect ⟨size, l.take size, seen⟩ h =
        ⟨size, (h.insert l).take size, seen + 1⟩ := by
      rw [collect, offer, Hit.take_insert_take]
    rw [List.foldl_cons, hstep, ih, List.length_cons]
    congr 1
    omega

/-- The collector of a list of hits. -/
def ofHits (size : Nat) (hs : List (Hit R)) : TopHits R := hs.foldl collect (.empty size)

theorem ofHits_eq (size : Nat) (hs : List (Hit R)) :
    ofHits size hs = ⟨size, (Hit.insertAll hs []).take size, hs.length⟩ := by
  have h := foldl_collect size [] hs 0
  rw [List.take_nil, Nat.zero_add] at h
  exact h

/-- The collectors of several lists of hits, merged into one. -/
def ofParts (size : Nat) (hss : List (List (Hit R))) : TopHits R :=
  (hss.map (ofHits size)).foldl merge (.empty size)

theorem merge_ofHits (size : Nat) (l hs : List (Hit R)) (seen : Nat) :
    merge ⟨size, l.take size, seen⟩ (ofHits size hs) =
      ⟨size, (Hit.insertAll ((Hit.insertAll hs []).take size) l).take size, seen + hs.length⟩ := by
  rw [ofHits_eq, merge, foldl_offer]

/-- All hits are counted. -/
theorem seen_ofParts (size : Nat) (hss : List (List (Hit R))) :
    (ofParts size hss).seen = hss.flatten.length := by
  have hseen : ∀ c : TopHits R,
      ((hss.map (ofHits size)).foldl merge c).seen = c.seen + hss.flatten.length := by
    induction hss with
    | nil => exact fun c => rfl
    | cons hs hss ih =>
      intro c
      have hmerge : (merge c (ofHits size hs)).seen = c.seen + hs.length := by
        rw [merge, ofHits_eq]
      rw [List.map_cons, List.foldl_cons, ih, hmerge, List.flatten_cons, List.length_append,
        Nat.add_assoc]
  rw [ofParts, hseen]
  exact Nat.zero_add _

/-- A collector keeps no hit more often than it has seen it. -/
theorem kept_ofParts_subperm (size : Nat) (hss : List (List (Hit R))) :
    (ofParts size hss).kept.Subperm hss.flatten := by
  have hkept : ∀ (hss : List (List (Hit R))) (l : List (Hit R)) (seen : Nat),
      ((hss.map (ofHits size)).foldl merge ⟨size, l.take size, seen⟩).kept.Subperm
        (l ++ hss.flatten) := by
    intro hss
    induction hss with
    | nil =>
      intro l seen
      rw [List.flatten_nil, List.append_nil]
      exact (List.take_sublist size l).subperm
    | cons hs hss ih =>
      intro l seen
      have hall := Hit.insertAll_perm hs []
      rw [List.append_nil] at hall
      have htaken : ((Hit.insertAll hs []).take size ++ l).Subperm (Hit.insertAll hs [] ++ l) :=
        ((List.take_sublist size _).append_right l).subperm
      have hinserted : (Hit.insertAll ((Hit.insertAll hs []).take size) l).Subperm (l ++ hs) :=
        ((Hit.insertAll_perm _ l).subperm.trans htaken).trans
          ((hall.append_right l).trans List.perm_append_comm).subperm
      rw [List.map_cons, List.foldl_cons, merge_ofHits, List.flatten_cons, ← List.append_assoc]
      exact (ih _ _).trans ((List.subperm_append_right _).2 hinserted)
  have hempty := hkept hss [] 0
  rwa [List.take_nil] at hempty

/-- A collector keeps no hits but those that it has seen. -/
theorem mem_of_mem_kept {size : Nat} {hss : List (List (Hit R))} {h : Hit R}
    (hmem : h ∈ (ofParts size hss).kept) : h ∈ hss.flatten :=
  (kept_ofParts_subperm size hss).subset hmem

/-- A collector that is large enough keeps every hit. -/
theorem kept_ofParts_perm {size : Nat} {hss : List (List (Hit R))}
    (h : hss.flatten.length ≤ size) : (ofParts size hss).kept.Perm hss.flatten := by
  have hkept : ∀ (hss : List (List (Hit R))) (l : List (Hit R)) (seen : Nat),
      l.length + hss.flatten.length ≤ size →
      ((hss.map (ofHits size)).foldl merge ⟨size, l.take size, seen⟩).kept.Perm
        (l ++ hss.flatten) := by
    intro hss
    induction hss with
    | nil =>
      intro l seen hle
      rw [List.flatten_nil, List.append_nil]
      rw [List.flatten_nil, List.length_nil] at hle
      simp only [List.map_nil, List.foldl_nil]
      rw [List.take_of_length_le (by omega)]
    | cons hs hss ih =>
      intro l seen hle
      rw [List.flatten_cons, List.length_append] at hle
      have hlength := Hit.length_insertAll hs []
      rw [List.length_nil, Nat.add_zero] at hlength
      have hall : (Hit.insertAll hs []).take size = Hit.insertAll hs [] :=
        List.take_of_length_le (by omega)
      have hperm : (Hit.insertAll (Hit.insertAll hs []) l).Perm (hs ++ l) := by
        refine (Hit.insertAll_perm _ l).trans (List.Perm.append_right l ?_)
        simpa using Hit.insertAll_perm hs []
      rw [List.map_cons, List.foldl_cons, merge_ofHits, hall]
      refine (ih _ _ ?_).trans ?_
      · rw [hperm.length_eq, List.length_append]
        omega
      · rw [List.flatten_cons, ← List.append_assoc]
        exact (hperm.trans List.perm_append_comm).append_right _
  have hempty := hkept hss [] 0 (by simpa using h)
  rwa [List.take_nil] at hempty

end TopHits

/-! ### Collecting under an order of scores -/

namespace Hit

variable [Std.TransCmp (ScoreNumber.order (R := R))]

/-- The order of scores, from the greatest on. -/
instance : Std.TransCmp fun a b : Hit R => ScoreNumber.order b.score a.score where
  eq_swap {a b} := Std.OrientedCmp.eq_swap (a := b.score) (b := a.score)
  isLE_trans {a b c} hab hbc := by
    have hswapped : (ScoreNumber.order c.score a.score).isLE = true :=
      Std.TransCmp.isLE_trans hbc hab
    exact hswapped

instance : Std.TransCmp (rank (R := R)) :=
  inferInstanceAs (Std.TransCmp (compareLex
    (fun a b : Hit R => ScoreNumber.order b.score a.score) (compareOn (·.doc))))

/-- Every hit is no worse than those after it. -/
def Sorted (l : List (Hit R)) : Prop := l.Pairwise fun a b => a.noWorse b = true

theorem noWorse_trans {a b c : Hit R} (hab : a.noWorse b = true) (hbc : b.noWorse c = true) :
    a.noWorse c = true := Std.TransCmp.isLE_trans hab hbc

theorem noWorse_of_not {a b : Hit R} (h : ¬ a.noWorse b = true) : b.noWorse a = true := by
  have hswap : b.rank a = (a.rank b).swap := Std.OrientedCmp.eq_swap
  rw [noWorse, hswap]
  rw [noWorse] at h
  cases hrank : a.rank b <;> simp [hrank] at h ⊢

/-- Of two hits that are no worse than each other the documents are equal. -/
theorem doc_eq_of_noWorse {a b : Hit R} (hab : a.noWorse b = true) (hba : b.noWorse a = true) :
    a.doc = b.doc := by
  have hrank : a.rank b = .eq := Std.OrientedCmp.isLE_antisymm hab hba
  rw [rank, Ordering.then_eq_eq] at hrank
  exact Nat.compare_eq_eq.1 hrank.2

theorem Sorted.insert {l : List (Hit R)} (h : Sorted l) (a : Hit R) : Sorted (a.insert l) := by
  induction l with
  | nil => exact List.pairwise_singleton ..
  | cons b l ih =>
    obtain ⟨hb, hl⟩ := List.pairwise_cons.1 h
    rw [Hit.insert]
    split
    · next hab =>
      refine List.pairwise_cons.2 ⟨fun c hc => ?_, h⟩
      rcases List.mem_cons.1 hc with rfl | hc
      · exact hab
      · exact noWorse_trans hab (hb c hc)
    · next hab =>
      refine List.pairwise_cons.2 ⟨fun c hc => ?_, ih hl⟩
      rcases List.mem_cons.1 ((insert_perm a l).mem_iff.1 hc) with rfl | hc
      · exact noWorse_of_not hab
      · exact hb c hc

theorem Sorted.insertAll {l : List (Hit R)} (h : Sorted l) (hs : List (Hit R)) :
    Sorted (insertAll hs l) := by
  induction hs generalizing l with
  | nil => exact h
  | cons a hs ih => exact ih (h.insert a)

/-- Hits of different documents are in order in one way only. -/
theorem Sorted.eq_of_perm {l m : List (Hit R)} (hl : Sorted l) (hm : Sorted m) (hperm : l.Perm m)
    (hdocs : (l.map (·.doc)).Nodup) : l = m := by
  refine hperm.eq_of_pairwise (fun a b ha hb hab hba => ?_) hl hm
  exact List.inj_on_of_nodup_map hdocs ha (hperm.mem_iff.2 hb) (doc_eq_of_noWorse hab hba)

/-- In a list in order the hits that are better than another one come first. -/
theorem Sorted.countP_le {l : List (Hit R)} (h : Sorted l) (a : Hit R) :
    l.countP (fun b => !a.noWorse b) ≤ (l.takeWhile fun b => !a.noWorse b).length := by
  induction l with
  | nil => exact Nat.le_refl _
  | cons b l ih =>
    obtain ⟨hb, hl⟩ := List.pairwise_cons.1 h
    rw [List.takeWhile_cons]
    cases hab : a.noWorse b with
    | true =>
      have hnone : (b :: l).countP (fun b => !a.noWorse b) = 0 := by
        rw [List.countP_eq_zero]
        intro c hc
        rcases List.mem_cons.1 hc with rfl | hc
        · simp [hab]
        · simp [noWorse_trans hab (hb c hc)]
      rw [hnone]
      exact Nat.zero_le _
    | false =>
      rw [List.countP_cons_of_pos (by simp [hab])]
      simp only [Bool.not_false, if_true, List.length_cons]
      exact Nat.succ_le_succ (ih hl)

/-- A hit that comes after as many better ones as are kept is not kept. -/
theorem Sorted.take_insert {l : List (Hit R)} (h : Sorted l) {a : Hit R} {k : Nat}
    (hk : k ≤ l.countP fun b => !a.noWorse b) : (a.insert l).take k = l.take k := by
  have hle := Nat.le_trans hk (h.countP_le a)
  rw [insert_eq, List.take_append_of_le_length hle]
  conv_rhs => rw [← List.takeWhile_append_dropWhile (p := fun b => !a.noWorse b) (l := l)]
  rw [List.take_append_of_le_length hle]

theorem Sorted.take_insertAll {l : List (Hit R)} (h : Sorted l) {hs : List (Hit R)} {k : Nat}
    (hk : ∀ a ∈ hs, k ≤ l.countP fun b => !a.noWorse b) :
    (Hit.insertAll hs l).take k = l.take k := by
  induction hs generalizing l with
  | nil => rfl
  | cons a hs ih =>
    obtain ⟨ha, hhs⟩ := List.forall_mem_cons.1 hk
    rw [← h.take_insert ha]
    refine ih (h.insert a) fun b hb => Nat.le_trans (hhs b hb) ?_
    rw [(insert_perm a l).countP_eq]
    exact (List.sublist_cons_self a l).countP_le

omit [Std.TransCmp (ScoreNumber.order (R := R))] in
theorem insertAll_append (hs hs' l : List (Hit R)) :
    insertAll (hs ++ hs') l = insertAll hs' (insertAll hs l) := List.foldl_append ..

/-- The best of some hits are all that matters of them for the best of more hits. -/
theorem take_insertAll_take {l hs : List (Hit R)} (hl : Sorted l) (k : Nat)
    (hdocs : ((hs ++ l).map (·.doc)).Nodup) :
    (insertAll ((insertAll hs []).take k) l).take k = (insertAll hs l).take k := by
  have hsorted : Sorted (insertAll hs []) := Sorted.insertAll .nil hs
  have hperm : (insertAll hs []).Perm hs := by simpa using insertAll_perm hs []
  have hwhole : insertAll hs l = insertAll (insertAll hs []) l := by
    refine (hl.insertAll hs).eq_of_perm (hl.insertAll _) ?_ ?_
    · exact (insertAll_perm hs l).trans
        ((hperm.symm.append_right l).trans (insertAll_perm _ l).symm)
    · exact ((insertAll_perm hs l).map _).nodup_iff.2 hdocs
  have hbest := hl.insertAll ((insertAll hs []).take k)
  rw [hwhole]
  conv_rhs => rw [← List.take_append_drop k (insertAll hs []), insertAll_append]
  refine (hbest.take_insertAll fun a ha => ?_).symm
  -- all hits among the first `k` are better than one that was left out
  have hlength : ((insertAll hs []).take k).length = k := by
    rw [List.length_take, Nat.min_eq_left]
    have := List.length_pos_of_mem ha
    rw [List.length_drop] at this
    omega
  have hbetter : ∀ b ∈ (insertAll hs []).take k, (!a.noWorse b) = true := by
    intro b hb
    have hsplit := hsorted
    rw [Sorted, ← List.take_append_drop k (insertAll hs [])] at hsplit
    have hba := (List.pairwise_append.1 hsplit).2.2 b hb a ha
    rw [Bool.not_eq_true']
    refine Bool.eq_false_iff.2 fun hab => ?_
    have hnodup : ((insertAll hs []).map (·.doc)).Nodup := by
      rw [List.map_append] at hdocs
      exact (hperm.map _).nodup_iff.2 (List.nodup_append.1 hdocs).1
    rw [← List.take_append_drop k (insertAll hs []), List.map_append] at hnodup
    exact (List.nodup_append.1 hnodup).2.2 _ (List.mem_map_of_mem hb) _ (List.mem_map_of_mem ha)
      (doc_eq_of_noWorse hba hab)
  calc k = ((insertAll hs []).take k).countP fun b => !a.noWorse b := by
        rw [List.countP_eq_length.2 hbetter, hlength]
    _ ≤ ((insertAll hs []).take k ++ l).countP fun b => !a.noWorse b :=
        (List.sublist_append_left _ _).countP_le
    _ = _ := ((insertAll_perm _ l).countP_eq _).symm

end Hit

namespace TopHits

variable [Std.TransCmp (ScoreNumber.order (R := R))]

/-- Merged collectors keep the best of all hits, however these were distributed. -/
theorem kept_ofParts (size : Nat) {hss : List (List (Hit R))}
    (hdocs : (hss.flatten.map (·.doc)).Nodup) :
    (ofParts size hss).kept = (Hit.insertAll hss.flatten []).take size := by
  have hkept : ∀ (hss : List (List (Hit R))) (l : List (Hit R)) (seen : Nat), Hit.Sorted l →
      ((hss.flatten ++ l).map (·.doc)).Nodup →
      ((hss.map (ofHits size)).foldl merge ⟨size, l.take size, seen⟩).kept =
        (Hit.insertAll hss.flatten l).take size := by
    intro hss
    induction hss with
    | nil => exact fun l seen _ _ => rfl
    | cons hs hss ih =>
      intro l seen hl hdocs
      have hfirst : ((hs ++ l).map (·.doc)).Nodup := by
        refine hdocs.sublist (List.Sublist.map _ ?_)
        rw [List.flatten_cons]
        exact (List.sublist_append_left hs hss.flatten).append_right l
      have hrest : ((hss.flatten ++ Hit.insertAll hs l).map (·.doc)).Nodup := by
        refine (List.Perm.map _ ?_).nodup_iff.1 hdocs
        rw [List.flatten_cons]
        refine (List.perm_append_comm.append_right l).trans ?_
        rw [List.append_assoc]
        exact (Hit.insertAll_perm hs l).symm.append_left _
      rw [List.map_cons, List.foldl_cons, merge_ofHits, Hit.take_insertAll_take hl size hfirst,
        ih _ _ (hl.insertAll hs) hrest, List.flatten_cons, Hit.insertAll_append]
  have hempty := hkept hss [] 0 .nil (by simpa using hdocs)
  rwa [List.take_nil] at hempty

end TopHits

end TextSearch
