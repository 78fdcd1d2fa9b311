import TextSearch.Proofs.Span.Coverage

/-!
# The arithmetic of gaps

The gap of a pick is computed in 32-bit words: the lengths of the picked spans are added up, and
their sum is taken from the width of the whole. Whatever picks the search for proximity matches
completes, no sum on the way wraps around, and none exceeds the width. So the gap is the number
of positions that no picked span covers: `Span.gap_exact`.
-/

namespace TextSearch.Span

variable {inOrder : Bool} {picked pick : List Span} {clauses : List (List Span)}

/-- The picks that are completed from the spans picked so far, the latest first: those whose gaps
are computed. -/
def completed (inOrder : Bool) : List Span → List (List Span) → List (List Span)
  | picked, [] => [picked.reverse]
  | picked, clause :: clauses =>
    clause.flatMap fun s =>
      if mayFollow inOrder picked s then completed inOrder (s :: picked) clauses else []

/-- The search combines each pick that it completes. -/
theorem picks_eq_filterMap (slop : UInt32) (inOrder : Bool) (picked : List Span)
    (clauses : List (List Span)) :
    picks slop inOrder picked clauses =
      (completed inOrder picked clauses).filterMap (combine slop) := by
  induction clauses generalizing picked with
  | nil =>
    rw [picks, completed]
    cases h : combine slop picked.reverse <;> simp [h]
  | cons clause clauses ih =>
    rw [picks, completed, List.filterMap_flatMap]
    refine List.flatMap_congr fun s _ => ?_
    split
    · exact ih _
    · rfl

/-- A completed pick adds one span of every clause left to those picked before. Each of them could
follow the ones before it. -/
theorem mem_completed : pick ∈ completed inOrder picked clauses ↔
    ∃ later, List.Forall₂ (· ∈ ·) later clauses ∧ mayFollowAll inOrder picked later ∧
      picked.reverse ++ later = pick := by
  induction clauses generalizing picked with
  | nil => simp [completed, mayFollowAll, eq_comm]
  | cons clause clauses ih =>
    rw [completed, List.mem_flatMap]
    constructor
    · rintro ⟨first, hfirst, hpick⟩
      split at hpick
      · next hfollow =>
        obtain ⟨later, hlater, hall, rfl⟩ := ih.1 hpick
        exact ⟨first :: later, .cons hfirst hlater, ⟨hfollow, hall⟩, by simp⟩
      · cases hpick
    · rintro ⟨later, hlater, hall, rfl⟩
      cases hlater with
      | @cons first _ later _ hfirst hlater =>
        refine ⟨first, hfirst, ?_⟩
        rw [if_pos hall.1]
        exact ih.2 ⟨later, hlater, hall.2, by simp⟩

/-- In order or not, the spans of a completed pick have positions and share none. -/
theorem placed_of_mem_completed (hproper : ∀ clause ∈ clauses, ∀ s ∈ clause, s.Proper)
    (h : pick ∈ completed inOrder [] clauses) :
    (∀ s ∈ pick, s.Proper) ∧ Placed inOrder pick := by
  obtain ⟨later, hlater, hall, rfl⟩ := mem_completed.1 h
  have hpick : ∀ s ∈ later, s.Proper := forall_proper_of_pick hproper hlater
  exact ⟨hpick, (legal_iff_placed hpick).1 (mayFollowAll_iff_legal.1 hall)⟩

/-- Picked spans without common positions cover no more of them than any span that covers them
all has, so the sum of their lengths is exact. -/
theorem toNat_covered_of_subset {whole : Span}
    (hdisjoint : pick.Pairwise fun s t => Disjoint s.positions t.positions)
    (hsubset : coverage pick ⊆ whole.positions) :
    (covered pick).toNat = (pick.map fun s => s.stop.toNat - s.start.toNat).sum := by
  have hfits := Nat.lt_of_le_of_lt (Finset.card_le_card hsubset) (card_positions_lt whole)
  rw [toNat_covered hdisjoint hfits, card_coverage hdisjoint]
  refine congrArg List.sum (List.map_congr_left fun s _ => ?_)
  rw [toNat_length, positions, Nat.card_Ico]

theorem coverage_subset_of_subset {part : List Span} (h : part ⊆ pick) :
    coverage part ⊆ coverage pick := by
  intro n hn
  obtain ⟨s, hs, hns⟩ := mem_coverage.1 hn
  exact mem_coverage.2 ⟨s, h hs, hns⟩

/-- A difference of words that is not negative is not cut off. -/
theorem excess_eq_sub {width taken : UInt32} (h : taken ≤ width) :
    excess width taken = width - taken := by
  unfold excess
  split
  · rfl
  · next hnot =>
    rw [UInt32.le_antisymm h (UInt32.not_lt.1 hnot)]
    exact (UInt32.sub_self _).symm

/-- How the gap of a completed pick is computed. The lengths of the picked spans add up to what
they add up to as numbers, on the way to their sum as well. The sum is no more than the width of
the whole, so that it can be taken from it, and what is left is the number of positions between
the start and the end that no picked span covers. -/
theorem gap_exact (hproper : ∀ clause ∈ clauses, ∀ s ∈ clause, s.start < s.stop)
    (inOrder : Bool) :
    (∀ slop, picks slop inOrder [] clauses =
      (completed inOrder [] clauses).filterMap (combine slop)) ∧
    ∀ first others, first :: others ∈ completed inOrder [] clauses →
      let pick := first :: others
      let start := leastStart first others
      let stop := greatestStop first others
      (∀ part, part <+: pick →
        (covered part).toNat = (part.map fun s => s.stop.toNat - s.start.toNat).sum) ∧
      start ≤ stop ∧ covered pick ≤ stop - start ∧
      excess (stop - start) (covered pick) = stop - start - covered pick ∧
      (stop - start - covered pick).toNat =
        ((Finset.Ico start.toNat stop.toNat).filter fun n =>
          ∀ s ∈ pick, ¬ (s.start.toNat ≤ n ∧ n < s.stop.toNat)).card := by
  refine ⟨fun slop => picks_eq_filterMap slop inOrder [] clauses, fun first others hmem => ?_⟩
  intro pick start stop
  obtain ⟨hpick, hplaced⟩ := placed_of_mem_completed hproper hmem
  have hjoins : Joins pick (hull first others) := joins_hull first others
  have hdisjoint := hplaced.pairwise_disjoint hpick
  obtain ⟨-, hle, hgap⟩ := excess_covered hpick hplaced hjoins
  have hexcess : excess (stop - start) (covered pick) = stop - start - covered pick :=
    excess_eq_sub hle
  refine ⟨fun part hpart => ?_, hjoins.start_le_stop hpick, hle, hexcess, ?_⟩
  · have hsubset := coverage_subset_of_subset hpart.subset
    exact toNat_covered_of_subset (hdisjoint.sublist hpart.sublist)
      (hsubset.trans hjoins.coverage_subset)
  · rw [← hexcess]
    refine Eq.trans hgap ?_
    simp only [uncovered, positions, Finset.mem_Ico]
    rfl

/-- Three spans at both ends of the positions, in any order. -/
theorem gap_exact_far_apart :
    let clauses : List (List Span) :=
      [[⟨4294967290, 4294967295, []⟩], [⟨0, 3, []⟩, ⟨4, 9, []⟩], [⟨3, 4, []⟩]]
    let pick : List Span := [⟨4294967290, 4294967295, []⟩, ⟨4, 9, []⟩, ⟨3, 4, []⟩]
    (∀ clause ∈ clauses, ∀ s ∈ clause, s.start < s.stop) ∧
      pick ∈ completed false [] clauses ∧ (covered pick).toNat = 11 ∧
      ((Finset.Ico 3 4294967295).filter fun n =>
        ∀ s ∈ pick, ¬ (s.start.toNat ≤ n ∧ n < s.stop.toNat)).card = 4294967281 := by
  intro clauses pick
  have hproper : ∀ clause ∈ clauses, ∀ s ∈ clause, s.start < s.stop := by decide
  have hmem : pick ∈ completed false [] clauses := by decide
  obtain ⟨hsums, -, -, -, hgap⟩ := (gap_exact hproper false).2 _ _ hmem
  exact ⟨hproper, hmem, hsums pick (List.prefix_refl _), hgap.symm⟩

end TextSearch.Span
