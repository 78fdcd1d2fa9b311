import Mathlib
import TextSearch.Proofs.Span.Combinations

/-!
# What picked spans cover

Proximity measures the gap of a pick with sums and differences of 32-bit words. Spans that
stand as they should share no positions, so the sum of their lengths is the number of
positions they cover, and that is no more than there are between the first and the last:
nothing wraps around, and the difference is the number of positions left over
(`Span.excess_covered`). So `Span.near` lists what proximity means, said without any
arithmetic of words: `Span.near_enumerates`.
-/

namespace TextSearch.Span

/-- Whether a span has a position. -/
def Proper (s : Span) : Prop := s.start < s.stop

instance (s : Span) : Decidable s.Proper := inferInstanceAs (Decidable (s.start < s.stop))

/-- The positions of a span. -/
def positions (s : Span) : Finset Nat := Finset.Ico s.start.toNat s.stop.toNat

/-- Picked spans stand one behind the other, or, when they may come in any order, no two of
them share a position. -/
def Placed : Bool → List Span → Prop
  | true, pick => pick.IsChain fun s t => s.stop ≤ t.start
  | false, pick => pick.Pairwise fun s t => Disjoint s.positions t.positions

/-- A span reaches from the least start to the greatest end of picked spans, and has their
payloads in the order in which they are picked. -/
structure Joins (pick : List Span) (whole : Span) : Prop where
  start_mem : ∃ s ∈ pick, s.start = whole.start
  start_le : ∀ s ∈ pick, whole.start ≤ s.start
  stop_mem : ∃ s ∈ pick, s.stop = whole.stop
  le_stop : ∀ s ∈ pick, s.stop ≤ whole.stop
  payloads_eq : whole.payloads = pick.flatMap (·.payloads)

/-- The positions of a span that no picked span covers. -/
def uncovered (pick : List Span) (whole : Span) : Finset Nat :=
  whole.positions.filter fun n => ∀ s ∈ pick, n ∉ s.positions

/-! ### Spans that share no positions -/

variable {s t whole : Span} {first : Span} {others pick : List Span}

theorem Proper.toNat_lt (h : s.Proper) : s.start.toNat < s.stop.toNat := UInt32.lt_iff_toNat_lt.1 h

/-- Spans with positions overlap exactly if they share one. -/
theorem disjoint_positions_iff (hs : s.Proper) (ht : t.Proper) :
    Disjoint s.positions t.positions ↔ s.overlaps t = false := by
  have hs := hs.toNat_lt
  have ht := ht.toNat_lt
  unfold overlaps
  rw [Bool.and_eq_false_iff, decide_eq_false_iff_not, decide_eq_false_iff_not,
    UInt32.lt_iff_toNat_lt, UInt32.lt_iff_toNat_lt, Finset.disjoint_left]
  constructor
  · intro h
    by_contra hboth
    -- the later one of the two starts is a position of both
    refine h (a := max s.start.toNat t.start.toNat) ?_ ?_ <;>
      (unfold positions; rw [Finset.mem_Ico]; omega)
  · intro h n hn hn'
    have hn := Finset.mem_Ico.1 hn
    have hn' := Finset.mem_Ico.1 hn'
    omega

theorem disjoint_positions_of_le (h : s.stop ≤ t.start) : Disjoint s.positions t.positions := by
  have hle := UInt32.le_iff_toNat_le.1 h
  refine Finset.disjoint_left.2 fun n hn hn' => ?_
  have hn := Finset.mem_Ico.1 hn
  have hn' := Finset.mem_Ico.1 hn'
  omega

/-- Picked spans with positions stand as they should if they are placed so. -/
theorem legal_iff_placed {inOrder : Bool} (hproper : ∀ s ∈ pick, s.Proper) :
    legal inOrder pick = true ↔ Placed inOrder pick := by
  cases inOrder with
  | true => simp only [legal, Placed, if_true, decide_eq_true_eq]
  | false =>
    simp only [legal, Placed, Bool.false_eq_true, if_false, decide_eq_true_eq]
    refine List.Pairwise.iff_of_mem fun {s t} hs ht => ?_
    exact (disjoint_positions_iff (hproper s hs) (hproper t ht)).symm

/-- In order or not, no two of the picked spans share a position. -/
theorem Placed.pairwise_disjoint {inOrder : Bool} (h : Placed inOrder pick)
    (hproper : ∀ s ∈ pick, s.Proper) :
    pick.Pairwise fun s t => Disjoint s.positions t.positions := by
  cases inOrder with
  | false => exact h
  | true =>
    -- each span ends before it would reach the next one, and so before all later ones
    have hchain : pick.Pairwise fun s t => s.stop ≤ t.start := by
      induction pick with
      | nil => exact .nil
      | cons s pick ih =>
        have hlater :=
          ih (fun t ht => hproper t (List.mem_cons_of_mem _ ht)) (List.IsChain.of_cons h)
        refine List.pairwise_cons.2 ⟨fun t ht => ?_, hlater⟩
        cases pick with
        | nil => cases ht
        | cons next pick =>
          have hnext : s.stop ≤ next.start := (List.isChain_cons_cons.1 h).1
          rcases List.mem_cons.1 ht with rfl | ht
          · exact hnext
          · have hproperNext := (hproper next (by simp)).toNat_lt
            have hrest := UInt32.le_iff_toNat_le.1 ((List.pairwise_cons.1 hlater).1 t ht)
            have hnext := UInt32.le_iff_toNat_le.1 hnext
            exact UInt32.le_iff_toNat_le.2 (by omega)
    exact hchain.imp disjoint_positions_of_le

/-! ### How many positions are covered -/

/-- The positions that picked spans cover. -/
def coverage (pick : List Span) : Finset Nat := pick.foldr (fun s taken => s.positions ∪ taken) ∅

theorem mem_coverage {n : Nat} : n ∈ coverage pick ↔ ∃ s ∈ pick, n ∈ s.positions := by
  induction pick with
  | nil => simp [coverage]
  | cons s pick ih =>
    have hcons : coverage (s :: pick) = s.positions ∪ coverage pick := rfl
    rw [hcons, Finset.mem_union, ih, List.exists_mem_cons_iff]

theorem toNat_length (s : Span) : s.length.toNat = s.positions.card := by
  unfold length positions
  rw [Nat.card_Ico]
  by_cases h : s.start < s.stop
  · rw [if_pos h, UInt32.toNat_sub_of_le _ _ (UInt32.le_of_lt h)]
  · have hle := UInt32.le_iff_toNat_le.1 (UInt32.not_lt.1 h)
    rw [if_neg h, Nat.sub_eq_zero_of_le hle]
    rfl

theorem card_coverage_cons (hs : ∀ t ∈ pick, Disjoint s.positions t.positions) :
    (coverage (s :: pick)).card = s.length.toNat + (coverage pick).card := by
  have happart : Disjoint s.positions (coverage pick) := by
    refine Finset.disjoint_left.2 fun n hn hcovered => ?_
    obtain ⟨t, ht, hnt⟩ := mem_coverage.1 hcovered
    exact Finset.disjoint_left.1 (hs t ht) hn hnt
  rw [toNat_length]
  exact Finset.card_union_of_disjoint happart

/-- Spans that share no positions cover as many as their lengths add up to. -/
theorem card_coverage
    (hdisjoint : pick.Pairwise fun s t => Disjoint s.positions t.positions) :
    (coverage pick).card = (pick.map fun s => s.length.toNat).sum := by
  induction pick with
  | nil => rfl
  | cons s pick ih =>
    obtain ⟨hs, hpick⟩ := List.pairwise_cons.1 hdisjoint
    rw [card_coverage_cons hs, ih hpick, List.map_cons, List.sum_cons]

/-- As long as the positions covered can be counted in a word, the sum of the lengths is their
number. -/
theorem toNat_covered (hdisjoint : pick.Pairwise fun s t => Disjoint s.positions t.positions)
    (hfits : (coverage pick).card < 2 ^ 32) : (covered pick).toNat = (coverage pick).card := by
  have hsum : ∀ (start : UInt32), start.toNat + (coverage pick).card < 2 ^ 32 →
      ((pick.map length).foldl (· + ·) start).toNat = start.toNat + (coverage pick).card := by
    clear hfits
    induction pick with
    | nil => exact fun _ _ => rfl
    | cons s pick ih =>
      intro start hfits
      obtain ⟨hs, hpick⟩ := List.pairwise_cons.1 hdisjoint
      have hcard := card_coverage_cons hs
      have hadd : (start + s.length).toNat = start.toNat + s.length.toNat := by
        rw [UInt32.toNat_add]
        exact Nat.mod_eq_of_lt (by omega)
      rw [List.map_cons, List.foldl_cons, ih hpick _ (by omega), hadd]
      omega
  have hzero := hsum 0 (by simpa using hfits)
  simpa [covered] using hzero

theorem toNat_excess (width taken : UInt32) :
    (excess width taken).toNat = width.toNat - taken.toNat := by
  unfold excess
  by_cases h : taken < width
  · rw [if_pos h, UInt32.toNat_sub_of_le _ _ (UInt32.le_of_lt h)]
  · have hle := UInt32.le_iff_toNat_le.1 (UInt32.not_lt.1 h)
    rw [if_neg h, Nat.sub_eq_zero_of_le hle]
    rfl

/-! ### The span that a pick makes up -/

/-- Picked spans make up one span only. -/
theorem Joins.unique {whole' : Span} (h : Joins pick whole) (h' : Joins pick whole') :
    whole = whole' := by
  have hstart : whole.start = whole'.start := by
    obtain ⟨s, hs, hstart⟩ := h.start_mem
    obtain ⟨s', hs', hstart'⟩ := h'.start_mem
    exact UInt32.le_antisymm (hstart' ▸ h.start_le s' hs') (hstart ▸ h'.start_le s hs)
  have hstop : whole.stop = whole'.stop := by
    obtain ⟨s, hs, hstop⟩ := h.stop_mem
    obtain ⟨s', hs', hstop'⟩ := h'.stop_mem
    exact UInt32.le_antisymm (hstop ▸ h'.le_stop s hs) (hstop' ▸ h.le_stop s' hs')
  have hpayloads := h.payloads_eq.trans h'.payloads_eq.symm
  cases whole
  cases whole'
  simp only at hstart hstop hpayloads
  rw [hstart, hstop, hpayloads]

/-- A fold that keeps the better one of two keys ends on a key that none is better than. -/
theorem foldl_best (better : UInt32 → UInt32 → Prop) [DecidableRel better]
    (hirrefl : ∀ a, ¬ better a a) (htrans : ∀ {a b c}, better a b → better b c → better a c)
    (key : Span → UInt32) (first : Span) (others : List Span) :
    let best := others.foldl (fun m s => if better (key s) m then key s else m) (key first)
    (∃ s ∈ first :: others, key s = best) ∧ ∀ s ∈ first :: others, ¬ better (key s) best := by
  induction others using List.reverseRecOn with
  | nil => exact ⟨⟨first, by simp, rfl⟩, by simpa using hirrefl _⟩
  | append_singleton others t ih =>
    obtain ⟨⟨s, hs, hbest⟩, hnone⟩ := ih
    rw [List.foldl_append, List.foldl_cons, List.foldl_nil]
    simp only [← List.cons_append, List.mem_append, List.mem_singleton]
    split
    · next hbetter =>
      refine ⟨⟨t, .inr rfl, rfl⟩, ?_⟩
      rintro u (hu | rfl) hu'
      · exact hnone u hu (htrans hu' hbetter)
      · exact hirrefl _ hu'
    · next hworse =>
      refine ⟨⟨s, .inl hs, hbest⟩, ?_⟩
      rintro u (hu | rfl) hu'
      · exact hnone u hu hu'
      · exact hworse hu'

/-- The span that a pick makes up, however wide its gap is. -/
def hull (first : Span) (others : List Span) : Span :=
  { start := leastStart first others
    stop := greatestStop first others
    payloads := (first :: others).flatMap (·.payloads) }

theorem joins_hull (first : Span) (others : List Span) :
    Joins (first :: others) (hull first others) := by
  obtain ⟨hstart, hleast⟩ := foldl_best (fun a b => a < b)
    UInt32.lt_irrefl UInt32.lt_trans start first others
  obtain ⟨hstop, hgreatest⟩ := foldl_best (fun a b => b < a)
    UInt32.lt_irrefl (fun hab hbc => UInt32.lt_trans hbc hab) stop first others
  exact {
    start_mem := hstart
    start_le := fun s hs => UInt32.not_lt.1 (hleast s hs)
    stop_mem := hstop
    le_stop := fun s hs => UInt32.not_lt.1 (hgreatest s hs)
    payloads_eq := rfl }

theorem Joins.coverage_subset (h : Joins pick whole) : coverage pick ⊆ whole.positions := by
  intro n hn
  obtain ⟨s, hs, hns⟩ := mem_coverage.1 hn
  have hns := Finset.mem_Ico.1 hns
  have hstart := UInt32.le_iff_toNat_le.1 (h.start_le s hs)
  have hstop := UInt32.le_iff_toNat_le.1 (h.le_stop s hs)
  exact Finset.mem_Ico.2 ⟨by omega, by omega⟩

theorem Joins.start_le_stop (h : Joins pick whole) (hproper : ∀ s ∈ pick, s.Proper) :
    whole.start ≤ whole.stop := by
  obtain ⟨s, hs, hstart⟩ := h.start_mem
  rw [← hstart]
  exact UInt32.le_trans (UInt32.le_of_lt (hproper s hs)) (h.le_stop s hs)

theorem card_uncovered (h : coverage pick ⊆ whole.positions) :
    (uncovered pick whole).card = whole.positions.card - (coverage pick).card := by
  have hdiff : uncovered pick whole = whole.positions \ coverage pick := by
    ext n
    simp only [uncovered, Finset.mem_filter, Finset.mem_sdiff, mem_coverage, not_exists, not_and]
  rw [hdiff, Finset.card_sdiff_of_subset h]

theorem card_positions_lt (s : Span) : s.positions.card < 2 ^ 32 := by
  have hstop := s.stop.toNat_lt
  unfold positions
  rw [Nat.card_Ico]
  omega

/-- The difference of words by which proximity measures a gap is the number of positions left
uncovered, and it is one that does not become negative. -/
theorem excess_covered {inOrder : Bool} (hproper : ∀ s ∈ pick, s.Proper)
    (hplaced : Placed inOrder pick) (hjoins : Joins pick whole) :
    (covered pick).toNat = (coverage pick).card ∧ covered pick ≤ whole.stop - whole.start ∧
      (excess (whole.stop - whole.start) (covered pick)).toNat = (uncovered pick whole).card := by
  have hsubset := hjoins.coverage_subset
  have hcard := Finset.card_le_card hsubset
  have hcovered := toNat_covered (hplaced.pairwise_disjoint hproper)
    (Nat.lt_of_le_of_lt hcard (card_positions_lt whole))
  have hwidth : (whole.stop - whole.start).toNat = whole.positions.card := by
    rw [UInt32.toNat_sub_of_le _ _ (hjoins.start_le_stop hproper), positions, Nat.card_Ico]
  refine ⟨hcovered, ?_, ?_⟩
  · rw [UInt32.le_iff_toNat_le, hcovered, hwidth]
    exact hcard
  · rw [toNat_excess, hcovered, hwidth, card_uncovered hsubset]

theorem combine_cons (slop : UInt32) (first : Span) (others : List Span) :
    combine slop (first :: others) =
      if slop < excess ((hull first others).stop - (hull first others).start)
        (covered (first :: others)) then none else some (hull first others) := rfl

/-- What a pick makes up has the payloads of the picked spans. -/
theorem payloads_eq_of_combine {slop : UInt32} (h : combine slop pick = some whole) :
    whole.payloads = pick.flatMap (·.payloads) := by
  cases pick with
  | nil => cases h
  | cons first others =>
    rw [combine_cons] at h
    split at h
    · cases h
    · cases h
      rfl

/-- Placed spans make up a span if it leaves no more positions uncovered than the slop. -/
theorem combine_eq_some_iff {inOrder : Bool} {slop : UInt32} (hproper : ∀ s ∈ pick, s.Proper)
    (hplaced : Placed inOrder pick) :
    combine slop pick = some whole ↔
      Joins pick whole ∧ (uncovered pick whole).card ≤ slop.toNat := by
  cases pick with
  | nil =>
    constructor
    · intro h
      cases h
    · rintro ⟨hjoins, -⟩
      obtain ⟨s, hs, -⟩ := hjoins.start_mem
      cases hs
  | cons first others =>
    have hjoins := joins_hull first others
    obtain ⟨-, -, hgap⟩ := excess_covered hproper hplaced hjoins
    have hwide : slop < excess ((hull first others).stop - (hull first others).start)
          (covered (first :: others)) ↔
        slop.toNat < (uncovered (first :: others) (hull first others)).card := by
      rw [UInt32.lt_iff_toNat_lt, hgap]
    rw [combine_cons]
    constructor
    · intro h
      split at h
      · cases h
      · next hfits =>
        cases h
        exact ⟨hjoins, Nat.not_lt.1 (mt hwide.2 hfits)⟩
    · rintro ⟨hjoins', hle⟩
      have hwhole := hjoins.unique hjoins'
      rw [← hwhole] at hle ⊢
      exact if_neg (mt hwide.1 (Nat.not_lt.2 hle))

/-! ### Proximity matches -/

/-- Spans in their order, none of them twice, are each before all later ones. -/
theorem InOrder.pairwise_lt {ss : List Span} (h : InOrder ss) (hnodup : ss.Nodup) :
    ss.Pairwise fun s t => s.rank t = .lt := by
  refine (List.Pairwise.and h hnodup).imp fun {s t} ⟨hle, hne⟩ => ?_
  have hnot : s.rank t ≠ .eq := by
    intro heq
    have hswap : t.rank s = (s.rank t).swap := Std.OrientedCmp.eq_swap
    refine hne (eq_of_le_of_le hle ?_)
    rw [le, hswap, heq]
    rfl
  unfold le at hle
  generalize s.rank t = order at hle hnot
  cases order with
  | lt => rfl
  | eq => exact absurd rfl hnot
  | gt => cases hle

theorem forall_proper_of_pick {clauses : List (List Span)}
    (hproper : ∀ clause ∈ clauses, ∀ s ∈ clause, s.Proper)
    (hpick : List.Forall₂ (· ∈ ·) pick clauses) : ∀ s ∈ pick, s.Proper := by
  induction hpick with
  | nil => exact List.forall_mem_nil _
  | cons hfirst _ ih =>
    rw [List.forall_mem_cons] at hproper ⊢
    exact ⟨hproper.1 _ hfirst, ih hproper.2⟩

/-- The proximity matches of clauses whose spans have positions are listed in order and each
once. They are the spans made up by one span from every clause, placed as they should, that
leave no more positions uncovered than the slop. -/
theorem near_enumerates {clauses : List (List Span)}
    (hproper : ∀ clause ∈ clauses, ∀ s ∈ clause, s.start < s.stop) (slop : UInt32)
    (inOrder : Bool) :
    (near slop inOrder clauses).Pairwise (fun s t => s.rank t = .lt) ∧
      ∀ whole, whole ∈ near slop inOrder clauses ↔
        ∃ pick, List.Forall₂ (· ∈ ·) pick clauses ∧ Placed inOrder pick ∧ Joins pick whole ∧
          (uncovered pick whole).card ≤ slop.toNat := by
  constructor
  · exact (inOrder_distinct _).pairwise_lt (nodup_distinct _)
  · intro whole
    rw [mem_near]
    refine exists_congr fun pick => and_congr_right fun hpick => ?_
    have hpicked := forall_proper_of_pick hproper hpick
    rw [legal_iff_placed hpicked]
    exact and_congr_right fun hplaced => combine_eq_some_iff hpicked hplaced

/-- Two clauses with spans of several lengths, in any order. The first spans of both make up a
match that leaves out position 3. -/
theorem near_enumerates_sample :
    let clauses : List (List Span) := [[⟨4, 6, [[1]]⟩, ⟨9, 10, []⟩], [⟨0, 3, []⟩, ⟨5, 7, [[2]]⟩]]
    (∀ clause ∈ clauses, ∀ s ∈ clause, s.start < s.stop) ∧
      (near 2 false clauses).Pairwise (fun s t => s.rank t = .lt) ∧
      ⟨0, 6, [[1]]⟩ ∈ near 2 false clauses := by
  intro clauses
  have hproper : ∀ clause ∈ clauses, ∀ s ∈ clause, s.start < s.stop := by decide
  obtain ⟨hordered, hmem⟩ := near_enumerates hproper 2 false
  have hjoins : Joins [⟨4, 6, [[1]]⟩, ⟨0, 3, []⟩] ⟨0, 6, [[1]]⟩ :=
    ⟨by decide, by decide, by decide, by decide, rfl⟩
  have hpick : List.Forall₂ (· ∈ ·) [⟨4, 6, [[1]]⟩, ⟨0, 3, []⟩] clauses :=
    .cons (by decide) (.cons (by decide) .nil)
  have hplaced : Placed false [⟨4, 6, [[1]]⟩, ⟨0, 3, []⟩] := by
    unfold Placed
    decide
  exact ⟨hproper, hordered, (hmem _).2 ⟨_, hpick, hplaced, hjoins, by decide⟩⟩

end TextSearch.Span
