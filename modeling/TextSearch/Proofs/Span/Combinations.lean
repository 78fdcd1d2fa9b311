import Mathlib.Data.List.Dedup
import Mathlib.Data.List.Sections
import TextSearch.Span.Near

/-!
# Combinations of spans

Spans are in a linear order, so that a list of spans in order is known from its
members. The proximity matches of clauses are the combinations of one span from
each clause that stand as they should and keep within the slop:
`Span.mem_near` says so for a single match, and `Span.near_perm` for all of them.
-/

namespace TextSearch.Span

/-! ### The order of spans -/

instance : Std.TransCmp rank :=
  inferInstanceAs (Std.TransCmp
    (compareLex (compareOn start) (compareLex (compareOn stop) (compareOn payloads))))

theorem le_trans {r s t : Span} (hrs : r.le s = true) (hst : s.le t = true) : r.le t = true :=
  Std.TransCmp.isLE_trans hrs hst

theorem le_total (s t : Span) : (s.le t || t.le s) = true := by
  have hswap : s.rank t = (t.rank s).swap := Std.OrientedCmp.eq_swap
  rw [le, le, hswap]
  cases t.rank s <;> rfl

/-- Spans that come no later than each other are the same. -/
theorem eq_of_le_of_le {s t : Span} (hst : s.le t = true) (hts : t.le s = true) : s = t := by
  have heq : s.rank t = .eq := Std.OrientedCmp.isLE_antisymm hst hts
  rw [rank, Ordering.then_eq_eq, Ordering.then_eq_eq] at heq
  obtain ⟨hstart, hstop, hpayloads⟩ := heq
  obtain ⟨start, stop, payloads⟩ := s
  obtain ⟨start', stop', payloads'⟩ := t
  cases Std.LawfulEqCmp.eq_of_compare hstart
  cases Std.LawfulEqCmp.eq_of_compare hstop
  cases Std.LawfulEqCmp.eq_of_compare hpayloads
  rfl

/-- Spans are listed in their order. -/
abbrev InOrder (ss : List Span) : Prop := ss.Pairwise fun s t => s.le t = true

theorem inOrder_sorted (ss : List Span) : InOrder (sorted ss) := by
  refine List.pairwise_mergeSort ?trans ?total ss
  case trans => exact fun _ _ _ => le_trans
  case total => exact le_total

@[simp] theorem sorted_nil : sorted [] = [] := by simp [sorted]

theorem sorted_perm (ss : List Span) : (sorted ss).Perm ss := List.mergeSort_perm ss le

/-- Spans in their order are known from how often each of them is listed. -/
theorem InOrder.eq_of_perm {ss ts : List Span} (hs : InOrder ss) (ht : InOrder ts)
    (h : ss.Perm ts) : ss = ts :=
  List.Perm.eq_of_pairwise (fun _ _ _ _ => eq_of_le_of_le) hs ht h

/-- Spans without those that are the same as the next one. -/
def collapsed (ss : List Span) : List Span :=
  ss.foldr (fun s rest => if rest.head? = some s then rest else s :: rest) []

theorem distinct_eq (ss : List Span) : distinct ss = collapsed (sorted ss) := rfl

theorem collapsed_cons (s : Span) (ss : List Span) :
    collapsed (s :: ss) =
      if (collapsed ss).head? = some s then collapsed ss else s :: collapsed ss := rfl

theorem collapsed_sublist (ss : List Span) : (collapsed ss).Sublist ss := by
  induction ss with
  | nil => exact .slnil
  | cons s ss ih =>
    rw [collapsed_cons]
    split
    · exact ih.cons s
    · exact ih.cons_cons s

theorem mem_collapsed {s : Span} {ss : List Span} : s ∈ collapsed ss ↔ s ∈ ss := by
  induction ss with
  | nil => rfl
  | cons t ss ih =>
    rw [collapsed_cons, List.mem_cons, ← ih]
    split
    · next hhead =>
      constructor
      · exact .inr
      · rintro (rfl | h)
        · exact List.mem_of_head? hhead
        · exact h
    · rw [List.mem_cons]

theorem nodup_collapsed {ss : List Span} (h : InOrder ss) : (collapsed ss).Nodup := by
  induction ss with
  | nil => exact .nil
  | cons s ss ih =>
    obtain ⟨hs, hss⟩ := List.pairwise_cons.1 h
    rw [collapsed_cons]
    split
    · exact ih hss
    · next hhead =>
      refine List.nodup_cons.2 ⟨fun hmem => hhead ?_, ih hss⟩
      have hsub := collapsed_sublist ss
      have hrest := hss.sublist hsub
      generalize collapsed ss = rest at hmem hsub hrest
      cases rest with
      | nil => cases hmem
      | cons t rest =>
        rcases List.mem_cons.1 hmem with rfl | hmem
        · rfl
        · -- a span that comes back after another one is the same as it
          have hst := hs t (hsub.subset (List.mem_cons_self ..))
          have hts := (List.pairwise_cons.1 hrest).1 s hmem
          rw [List.head?_cons, eq_of_le_of_le hst hts]

theorem inOrder_distinct (ss : List Span) : InOrder (distinct ss) :=
  (inOrder_sorted ss).sublist (collapsed_sublist _)

theorem mem_distinct {s : Span} {ss : List Span} : s ∈ distinct ss ↔ s ∈ ss := by
  rw [distinct_eq, mem_collapsed, (sorted_perm ss).mem_iff]

theorem nodup_distinct (ss : List Span) : (distinct ss).Nodup :=
  nodup_collapsed (inOrder_sorted ss)

/-! ### Picks -/

/-- Whether picked spans stand as they should: each after the one before it, or, when they may
come in any order, without sharing positions. -/
def legal (inOrder : Bool) (pick : List Span) : Bool :=
  if inOrder then decide (pick.IsChain fun s t => s.stop ≤ t.start)
  else decide (pick.Pairwise fun s t => s.overlaps t = false)

/-- Whether spans may be picked one after the other, after those picked so far. -/
def mayFollowAll (inOrder : Bool) : List Span → List Span → Prop
  | _, [] => True
  | picked, s :: pick => mayFollow inOrder picked s = true ∧ mayFollowAll inOrder (s :: picked) pick

theorem mem_picks {slop : UInt32} {inOrder : Bool} {s : Span} {picked : List Span}
    {clauses : List (List Span)} : s ∈ picks slop inOrder picked clauses ↔
      ∃ pick, List.Forall₂ (· ∈ ·) pick clauses ∧ mayFollowAll inOrder picked pick ∧
        combine slop (picked.reverse ++ pick) = some s := by
  induction clauses generalizing picked with
  | nil => simp [picks, mayFollowAll, eq_comm]
  | cons clause clauses ih =>
    rw [picks, List.mem_flatMap]
    constructor
    · rintro ⟨first, hfirst, hs⟩
      split at hs
      · next hfollow =>
        obtain ⟨pick, hpick, hall, hcombine⟩ := ih.1 hs
        refine ⟨first :: pick, .cons hfirst hpick, ⟨hfollow, hall⟩, ?_⟩
        simpa using hcombine
      · cases hs
    · rintro ⟨pick, hpick, hall, hcombine⟩
      cases hpick with
      | @cons first _ pick _ hfirst hpick =>
        refine ⟨first, hfirst, ?_⟩
        rw [if_pos hall.1]
        exact ih.2 ⟨pick, hpick, hall.2, by simpa using hcombine⟩

theorem mayFollowAll_inOrder {picked pick : List Span} :
    mayFollowAll true picked pick ↔
      (picked.head?.toList ++ pick).IsChain fun s t => s.stop ≤ t.start := by
  induction pick generalizing picked with
  | nil => cases picked <;> simp [mayFollowAll]
  | cons s pick ih =>
    rw [mayFollowAll, ih]
    cases picked with
    | nil => simp [mayFollow]
    | cons p picked => simp [mayFollow]

theorem mayFollowAll_anyOrder {picked pick : List Span} :
    mayFollowAll false picked pick ↔
      (∀ p ∈ picked, ∀ s ∈ pick, p.overlaps s = false) ∧
        pick.Pairwise fun s t => s.overlaps t = false := by
  induction pick generalizing picked with
  | nil => simp [mayFollowAll]
  | cons s pick ih =>
    rw [mayFollowAll, ih, List.pairwise_cons]
    simp only [mayFollow, Bool.false_eq_true, if_false, List.all_eq_true, Bool.not_eq_true',
      List.forall_mem_cons]
    constructor
    · rintro ⟨hs, ⟨hlater, hpicked⟩, hpick⟩
      exact ⟨fun p hp => ⟨hs p hp, hpicked p hp⟩, hlater, hpick⟩
    · rintro ⟨hpicked, hlater, hpick⟩
      exact ⟨fun p hp => (hpicked p hp).1, ⟨hlater, fun p hp => (hpicked p hp).2⟩, hpick⟩

theorem mayFollowAll_iff_legal {inOrder : Bool} {pick : List Span} :
    mayFollowAll inOrder [] pick ↔ legal inOrder pick = true := by
  cases inOrder with
  | true => rw [mayFollowAll_inOrder]; simp [legal]
  | false => rw [mayFollowAll_anyOrder]; simp [legal]

/-- A proximity match is made up of one span from every clause; these stand as they should and
keep within the slop. -/
theorem mem_near {slop : UInt32} {inOrder : Bool} {s : Span} {clauses : List (List Span)} :
    s ∈ near slop inOrder clauses ↔
      ∃ pick, List.Forall₂ (· ∈ ·) pick clauses ∧ legal inOrder pick = true ∧
        combine slop pick = some s := by
  rw [near, mem_distinct, mem_picks]
  simp only [mayFollowAll_iff_legal, List.reverse_nil, List.nil_append]

/-- A proximity without clauses has no matches. -/
@[simp] theorem near_nil (slop : UInt32) (inOrder : Bool) : near slop inOrder [] = [] := by
  simp [near, picks, combine, distinct]

/-- The spans made up by one span from every clause each, as far as these stand as they should
and keep within the slop. Each is listed once. -/
def combinations (slop : UInt32) (inOrder : Bool) (clauses : List (List Span)) : List Span :=
  ((clauses.sections.filter (legal inOrder)).filterMap (combine slop)).dedup

theorem mem_combinations {slop : UInt32} {inOrder : Bool} {s : Span}
    {clauses : List (List Span)} : s ∈ combinations slop inOrder clauses ↔
      ∃ pick, List.Forall₂ (· ∈ ·) pick clauses ∧ legal inOrder pick = true ∧
        combine slop pick = some s := by
  simp only [combinations, List.mem_dedup, List.mem_filterMap, List.mem_filter,
    List.mem_sections, and_assoc]

/-- The proximity matches are the combinations, whatever the order in which the spans of the
clauses are listed. -/
theorem near_perm {slop : UInt32} {inOrder : Bool} {clauses clauses' : List (List Span)}
    (h : List.Forall₂ List.Perm clauses clauses') :
    (near slop inOrder clauses).Perm (combinations slop inOrder clauses') := by
  refine (List.perm_ext_iff_of_nodup (nodup_distinct _) (List.nodup_dedup _)).2 fun s => ?_
  have hmem : ∀ pick, List.Forall₂ (· ∈ ·) pick clauses ↔ List.Forall₂ (· ∈ ·) pick clauses' := by
    induction h with
    | nil => exact fun _ => Iff.rfl
    | cons hclause _ ih =>
      intro pick
      cases pick with
      | nil => simp
      | cons s pick => rw [List.forall₂_cons, List.forall₂_cons, hclause.mem_iff, ih pick]
  have hnear : s ∈ near slop inOrder clauses ↔ _ := mem_near
  simp only [hmem] at hnear
  exact hnear.trans mem_combinations.symm

end TextSearch.Span
