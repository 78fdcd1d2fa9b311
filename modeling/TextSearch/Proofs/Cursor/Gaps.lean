import TextSearch.Proofs.Cursor.SpanRuns
import TextSearch.Proofs.Query.Nodes
import TextSearch.Proofs.Score.Exact
import TextSearch.Proofs.Span.Coverage

/-!
# The gaps that proximities score

A proximity keeps a match if its gap, the number of positions that the picked spans leave
uncovered, is within the slop. Its frequency in a document counts a match the less the wider it
is beyond one position per clause. Where the spans of a clause are longer than that, a match
counts less than its gap would have it: `SpanCursor.sloppyFreq_of_lengths`.
-/

namespace TextSearch

namespace Span

/-- The frequency of spans of which so many positions each are covered. -/
def gapFrequency (taken : Nat) (ss : List Span) : ℚ :=
  (ss.map fun s => 1 / (1 + ((s.length.toNat - taken : Nat) : ℚ))).sum

/-- Spans without a gap count once each. -/
theorem gapFrequency_eq_length {taken : Nat} {ss : List Span}
    (h : ∀ s ∈ ss, s.length.toNat - taken = 0) : gapFrequency taken ss = ss.length := by
  have hone : ss.map (fun s => 1 / (1 + ((s.length.toNat - taken : Nat) : ℚ))) =
      ss.map fun _ => (1 : ℚ) := by
    refine List.map_congr_left fun s hs => ?_
    rw [h s hs]
    norm_num
  rw [gapFrequency, hone, List.map_const', List.sum_replicate, nsmul_eq_mul, mul_one]

/-- The more positions are taken to be covered, the more spans count. -/
theorem gapFrequency_lt {taken more : Nat} {ss : List Span} (hss : ss ≠ []) (hlt : taken < more)
    (hle : ∀ s ∈ ss, more ≤ s.length.toNat) : gapFrequency taken ss < gapFrequency more ss := by
  refine List.sum_lt_sum_of_ne_nil hss _ _ fun s hs => ?_
  have hmore := hle s hs
  have hgap : ((s.length.toNat - more : Nat) : ℚ) < ((s.length.toNat - taken : Nat) : ℚ) := by
    exact_mod_cast (by omega : s.length.toNat - more < s.length.toNat - taken)
  have hpos : (0 : ℚ) < 1 + ((s.length.toNat - more : Nat) : ℚ) := by positivity
  exact one_div_lt_one_div_of_lt hpos (by linarith)

/-- A match of clauses whose spans have one length each covers as many positions as these add up
to, and leaves no more uncovered than the slop. -/
theorem le_length_of_mem_near {slop : UInt32} {inOrder : Bool} {clauses : List (List Span)}
    {lengths : List Nat}
    (hlengths : List.Forall₂ (fun clause n => 0 < n ∧ ∀ s ∈ clause, s.length.toNat = n)
      clauses lengths) {whole : Span} (h : whole ∈ near slop inOrder clauses) :
    lengths.sum ≤ whole.length.toNat ∧ whole.length.toNat - lengths.sum ≤ slop.toNat := by
  have hproper : ∀ clause ∈ clauses, ∀ s ∈ clause, s.start < s.stop := by
    intro clause hclause s hs
    obtain ⟨n, -, hpos, hn⟩ := exists_mem_of_forall₂ hlengths.flip hclause
    by_contra hnot
    have hzero : s.length = 0 := if_neg hnot
    have hlength := hn s hs
    rw [hzero] at hlength
    exact absurd hlength (Nat.ne_of_lt hpos)
  obtain ⟨pick, hpick, hlegal, hcombine⟩ := mem_near.1 h
  have hproperPick := forall_proper_of_pick hproper hpick
  have hplaced := (legal_iff_placed hproperPick).1 hlegal
  obtain ⟨hjoins, hgap⟩ := (combine_eq_some_iff hproperPick hplaced).1 hcombine
  have hdisjoint := hplaced.pairwise_disjoint hproperPick
  have hpicked : List.Forall₂ (fun s n => s.length.toNat = n) pick lengths :=
    forall₂_comp (fun s clause n hs hn => hn.2 s hs) hpick hlengths
  have hsame : pick.map (fun s => s.length.toNat) = lengths := by
    rw [← List.forall₂_eq_eq_eq, List.forall₂_map_left_iff]
    exact hpicked
  have hsum : (coverage pick).card = lengths.sum := by rw [card_coverage hdisjoint, hsame]
  have hle := Finset.card_le_card hjoins.coverage_subset
  rw [card_uncovered hjoins.coverage_subset, hsum] at hgap
  rw [hsum] at hle
  rw [toNat_length]
  exact ⟨hle, hgap⟩

end Span

/-! ### What moves keep -/

namespace SpanProximity

variable {α : Type} {ops : SpanStepper α}

theorem length_lead {move : α → Except Fault (Bool × α)} {subs : List α} {moved : Bool × List α}
    (h : lead move subs = .ok moved) : moved.2.length = subs.length := by
  cases subs with
  | nil => cases h; rfl
  | cons c rest =>
    obtain ⟨outcome, -, h⟩ := except_bind_eq_ok.1 h
    cases h
    rfl

theorem length_start {move : α → Except Fault (Bool × α)} {subs : List α}
    {moved : Bool × List α} (h : start move subs = .ok moved) :
    moved.2.length = subs.length := by
  induction subs generalizing moved with
  | nil => cases h; rfl
  | cons c rest ih =>
    obtain ⟨⟨found, c'⟩, -, h⟩ := except_bind_eq_ok.1 h
    cases found with
    | false => cases h; rfl
    | true =>
      obtain ⟨later, hlater, h⟩ := except_bind_eq_ok.1 h
      cases h
      exact congrArg (· + 1) (ih hlater)

theorem length_pass {target : Nat} {subs : List α} {p : AlignmentPass α}
    (h : pass ops target subs = .ok p) : p.subs.length = subs.length := by
  induction subs generalizing target p with
  | nil => cases h; rfl
  | cons c rest ih =>
    rw [pass] at h
    -- whether the clause has been moved or not makes no difference
    split at h
    all_goals
      obtain ⟨⟨found, c'⟩, -, h⟩ := except_bind_eq_ok.1 h
      cases found with
      | false => cases h; rfl
      | true =>
        obtain ⟨later, hlater, h⟩ := except_bind_eq_ok.1 h
        cases h
        exact congrArg (· + 1) (ih hlater)

theorem length_align {steps target : Nat} {subs : List α} {p : AlignmentPass α}
    (h : align ops steps target subs = .ok p) : p.subs.length = subs.length := by
  induction steps generalizing target subs with
  | zero => cases h
  | succ steps ih =>
    obtain ⟨q, hq, h⟩ := except_bind_eq_ok.1 h
    split at h
    · rw [ih h, length_pass hq]
    · cases h
      exact length_pass hq

/-- A move of a proximity changes neither its slop and order nor the number of its clauses. What
it finds are the matches of what the clauses show. -/
structure Keeps (spans : α → List Span) (c : SpanProximity α)
    (outcome : Bool × SpanProximity α) : Prop where
  slop_eq : outcome.2.slop = c.slop
  inOrder_eq : outcome.2.inOrder = c.inOrder
  length_eq : outcome.2.subs.length = c.subs.length
  ne_nil : outcome.1 = true → outcome.2.spans ≠ []
  spans_eq : outcome.1 = true →
    outcome.2.spans = Span.near c.slop c.inOrder (outcome.2.subs.map spans)

theorem keeps_nothing (spans : α → List Span) {c : SpanProximity α} {subs : List α}
    (h : subs.length = c.subs.length) : Keeps spans c (false, c.stopped subs) where
  slop_eq := rfl
  inOrder_eq := rfl
  length_eq := h
  ne_nil := Bool.false_ne_true.elim
  spans_eq := Bool.false_ne_true.elim

theorem keeps_settle {c : SpanProximity α} {steps : Nat} {move : Bool × List α}
    (hmove : move.2.length = c.subs.length) {outcome : Bool × SpanProximity α}
    (h : settle ops c steps move = .ok outcome) : Keeps ops.spans c outcome := by
  induction steps generalizing move with
  | zero => cases h
  | succ steps ih =>
    obtain ⟨found, subs⟩ := move
    cases found with
    | false =>
      cases h
      exact keeps_nothing _ hmove
    | true =>
      obtain ⟨p, hp, h⟩ := except_bind_eq_ok.1 h
      have hlength : p.subs.length = c.subs.length := (length_align hp).trans hmove
      split at h
      · cases hspans : (c.standing ops p.target p.subs).spans with
        | nil =>
          simp only [hspans, List.isEmpty_nil, if_true] at h
          obtain ⟨moved, hmoved, h⟩ := except_bind_eq_ok.1 h
          exact ih ((length_lead hmoved).trans hlength) h
        | cons s ss =>
          simp only [hspans, List.isEmpty_cons, Bool.false_eq_true, if_false] at h
          cases h
          exact ⟨rfl, rfl, hlength, fun _ => by simp [hspans], fun _ => rfl⟩
      · cases h
        exact keeps_nothing _ hlength

theorem keeps_moving {c : SpanProximity α} {move : α → Except Fault (Bool × α)}
    {outcome : Bool × SpanProximity α}
    (h : (if c.subs.isEmpty then .ok (false, c) else moving move c >>= settled ops c) =
      Except.ok outcome) : Keeps ops.spans c outcome := by
  split at h
  · cases h
    exact ⟨rfl, rfl, rfl, Bool.false_ne_true.elim, Bool.false_ne_true.elim⟩
  · obtain ⟨moved, hmoved, h⟩ := except_bind_eq_ok.1 h
    have hlength : moved.2.length = c.subs.length := by
      rw [moving] at hmoved
      split at hmoved
      · exact length_lead hmoved
      · exact length_start hmoved
    exact keeps_settle hlength h

theorem keeps_next {c : SpanProximity α} {outcome : Bool × SpanProximity α}
    (h : c.next ops = .ok outcome) : Keeps ops.spans c outcome := by
  have hmoving : (if c.subs.isEmpty then .ok (false, c) else
      moving ops.next c >>= settled ops c) = .ok outcome := by
    rw [← h, next, moving]
    cases c.started <;> rfl
  exact keeps_moving hmoving

theorem keeps_skipTo {c : SpanProximity α} {target : Nat} {outcome : Bool × SpanProximity α}
    (h : c.skipTo ops target = .ok outcome) : Keeps ops.spans c outcome := by
  have hmoving : (if c.subs.isEmpty then .ok (false, c) else
      moving (ops.skipTo target) c >>= settled ops c) = .ok outcome := by
    rw [← h, skipTo, moving]
    cases c.started <;> rfl
  exact keeps_moving hmoving

theorem Keeps.trans {spans : α → List Span} {c d : SpanProximity α} {found : Bool}
    {outcome : Bool × SpanProximity α} (h : Keeps spans c (found, d)) (h' : Keeps spans d outcome) :
    Keeps spans c outcome where
  slop_eq := h'.slop_eq.trans h.slop_eq
  inOrder_eq := h'.inOrder_eq.trans h.inOrder_eq
  length_eq := h'.length_eq.trans h.length_eq
  ne_nil := h'.ne_nil
  spans_eq := fun hfound => by
    have hslop : d.slop = c.slop := h.slop_eq
    have hinOrder : d.inOrder = c.inOrder := h.inOrder_eq
    rw [← hslop, ← hinOrder]
    exact h'.spans_eq hfound

end SpanProximity

namespace SpanCursor

theorem keeps_moved {near : SpanProximity SpanCursor} {move : Move} {outcome : Bool × SpanCursor}
    (h : (proximity near).moved move = .ok outcome) :
    ∃ near', outcome.2 = proximity near' ∧
      SpanProximity.Keeps spans near (outcome.1, near') := by
  obtain ⟨found, c⟩ := outcome
  cases move with
  | next =>
    obtain ⟨near', hnear, hc⟩ := eq_of_wrapped h
    have hkeeps := SpanProximity.keeps_next hnear
    rw [spans_stepper] at hkeeps
    exact ⟨near', hc, hkeeps⟩
  | skipTo target =>
    obtain ⟨near', hnear, hc⟩ := eq_of_wrapped h
    have hkeeps := SpanProximity.keeps_skipTo hnear
    rw [spans_stepper] at hkeeps
    exact ⟨near', hc, hkeeps⟩

/-- What a proximity finds in the course of a run are the matches of what its clauses show. -/
theorem keeps_run {near : SpanProximity SpanCursor} {moves : List Move}
    {outcomes : List (Bool × SpanCursor)}
    (hrun : watch SpanCursor.moved id moves (proximity near) = .ok outcomes) :
    ∀ outcome ∈ outcomes, ∃ near', outcome.2 = proximity near' ∧
      SpanProximity.Keeps spans near (outcome.1, near') := by
  induction moves generalizing near outcomes with
  | nil =>
    cases hrun
    exact List.forall_mem_nil _
  | cons move moves ih =>
    obtain ⟨first, hfirst, hrun⟩ := except_bind_eq_ok.1 hrun
    obtain ⟨later, hlater, hrun⟩ := except_bind_eq_ok.1 hrun
    cases hrun
    obtain ⟨near', hnear', hkeeps⟩ := keeps_moved hfirst
    rw [hnear'] at hlater
    refine List.forall_mem_cons.2 ⟨⟨near', hnear', hkeeps⟩, fun outcome houtcome => ?_⟩
    obtain ⟨near'', hnear'', hkeeps'⟩ := ih hlater outcome houtcome
    exact ⟨near'', hnear'', hkeeps.trans hkeeps'⟩

/-! ### Frequencies -/

/-- As long as the clauses can be counted in a word, a proximity takes one position per clause to
be covered. -/
theorem sloppyFreq_proximity {near : SpanProximity SpanCursor} (h : near.subs.length < 2 ^ 32) :
    ((proximity near).sloppyFreq : ℚ) = Span.gapFrequency near.subs.length near.spans := by
  have hwidth : (proximity near).compactLength.toNat = near.subs.length := by
    rw [compactLength]
    exact Nat.mod_eq_of_lt h
  have hsum : ∀ xs : List ℚ, ScoreNumber.sum xs = xs.sum := by
    intro xs
    rw [List.sum_eq_foldl]
    rfl
  rw [sloppyFreq, hsum, Span.gapFrequency]
  refine congrArg List.sum (List.map_congr_left fun s _ => ?_)
  rw [Span.toNat_excess, hwidth]
  rfl

theorem sum_eq_length_iff {lengths : List Nat} (h : ∀ n ∈ lengths, 0 < n) :
    lengths.length ≤ lengths.sum ∧ (lengths.sum = lengths.length ↔ ∀ n ∈ lengths, n = 1) := by
  induction lengths with
  | nil => simp
  | cons n lengths ih =>
    obtain ⟨hn, hlengths⟩ := List.forall_mem_cons.1 h
    obtain ⟨hle, hiff⟩ := ih hlengths
    rw [List.forall_mem_cons, ← hiff, List.length_cons, List.sum_cons]
    omega

/-- What the clauses of a proximity show. -/
def clauseSpans : SpanCursor → List (List Span)
  | proximity near => near.subs.map spans
  | _ => []

/-- The frequency of a document, in which the spans of each clause have one length, counts each
match by its width beyond one position per clause. It is the frequency by the positions that the
clauses do not cover exactly if the length is 1 for every clause; without slop this is the number
of matches. -/
theorem sloppyFreq_of_lengths {subs : List SpanCursor} {slop : UInt32} {inOrder : Bool}
    {moves : List Move} {outcomes : List (Bool × SpanCursor)} {c : SpanCursor}
    (hrun : watch SpanCursor.moved id moves (nearby subs slop inOrder) = .ok outcomes)
    (hfound : (true, c) ∈ outcomes) {lengths : List Nat}
    (hlengths : List.Forall₂ (fun clause n => 0 < n ∧ ∀ s ∈ clause, s.length.toNat = n)
      c.clauseSpans lengths) :
    lengths.length = subs.length ∧
      (∀ s ∈ c.spans, lengths.sum ≤ s.length.toNat ∧
        s.length.toNat - lengths.sum ≤ slop.toNat) ∧
      (c.sloppyFreq : ℚ) = Span.gapFrequency subs.length c.spans ∧
      ((c.sloppyFreq : ℚ) = Span.gapFrequency lengths.sum c.spans ↔ ∀ n ∈ lengths, n = 1) ∧
      (slop = 0 → ((c.sloppyFreq : ℚ) = c.spans.length ↔ ∀ n ∈ lengths, n = 1)) := by
  obtain ⟨near, hnear, hkeeps⟩ := keeps_run hrun _ hfound
  have hnear : c = proximity near := hnear
  subst hnear
  have hspans : near.spans = Span.near slop inOrder (near.subs.map spans) := hkeeps.spans_eq rfl
  have hsome : near.spans ≠ [] := hkeeps.ne_nil rfl
  have hcount : near.subs.length = subs.length := hkeeps.length_eq
  have hsame : lengths.length = subs.length := by
    rw [← hcount, ← hlengths.length_eq, clauseSpans, List.length_map]
  have hpositive : ∀ n ∈ lengths, 0 < n := by
    intro n hn
    obtain ⟨clause, -, hpos, -⟩ := exists_mem_of_forall₂ hlengths hn
    exact hpos
  obtain ⟨hle, hones⟩ := sum_eq_length_iff hpositive
  have hgap : ∀ s ∈ near.spans, lengths.sum ≤ s.length.toNat ∧
      s.length.toNat - lengths.sum ≤ slop.toNat := by
    intro s hs
    rw [hspans] at hs
    exact Span.le_length_of_mem_near hlengths hs
  -- a match is no wider than a word, so that the clauses can be counted in one
  have hfits : near.subs.length < 2 ^ 32 := by
    obtain ⟨s, hs⟩ := List.exists_mem_of_ne_nil _ hsome
    have hlt := s.length.toNat_lt
    have hcovered := (hgap s hs).1
    omega
  have hfreq : ((proximity near).sloppyFreq : ℚ) = Span.gapFrequency subs.length near.spans := by
    rw [sloppyFreq_proximity hfits, hcount]
  have hideal : ((proximity near).sloppyFreq : ℚ) = Span.gapFrequency lengths.sum near.spans ↔
      ∀ n ∈ lengths, n = 1 := by
    rw [hfreq, ← hones, hsame]
    constructor
    · intro heq
      by_contra hne
      have hlt : subs.length < lengths.sum := by omega
      exact absurd heq (ne_of_lt (Span.gapFrequency_lt hsome hlt fun s hs => (hgap s hs).1))
    · intro heq
      rw [heq]
  refine ⟨hsame, hgap, hfreq, hideal, fun hslop => ?_⟩
  have hnone : Span.gapFrequency lengths.sum near.spans = near.spans.length := by
    refine Span.gapFrequency_eq_length fun s hs => ?_
    have hzero := (hgap s hs).2
    rw [hslop] at hzero
    exact Nat.le_zero.1 hzero
  rw [← hideal, hnone]
  rfl

/-- A phrase of two terms and a third one, two positions apart. -/
theorem sloppyFreq_of_lengths_phrase :
    let term := fun n : UInt32 =>
      SpanTree.term [Posting.ofOccurrences 0 [⟨n, none⟩]] .positions []
    let phrase := SpanTree.nearby [term 0, term 1] 0 true
    ∃ outcomes c, watch SpanCursor.moved id [.next]
        (nearby [phrase.cursor, (term 4).cursor] 2 false) = .ok outcomes ∧
      (true, c) ∈ outcomes ∧
      List.Forall₂ (fun clause n => 0 < n ∧ ∀ s ∈ clause, s.length.toNat = n)
        c.clauseSpans [2, 1] ∧
      c.spans = [⟨0, 5, []⟩] ∧ (c.sloppyFreq : ℚ) = Span.gapFrequency 2 c.spans ∧
      (c.sloppyFreq : ℚ) ≠ Span.gapFrequency 3 c.spans := by
  intro term phrase
  have hshown : watch SpanCursor.moved (fun o => (o.1, clauseSpans o.2, o.2.spans)) [.next]
      (nearby [phrase.cursor, (term 4).cursor] 2 false) =
        .ok [(true, [[⟨0, 2, []⟩], [⟨4, 5, []⟩]], [⟨0, 5, []⟩])] := by cbv
  obtain ⟨outcomes, hrun, houtcomes⟩ := exists_outcomes_of_watch hshown
  obtain ⟨⟨found, c⟩, rfl, houtcome⟩ := List.map_eq_singleton_iff.1 houtcomes
  simp only [Prod.mk.injEq] at houtcome
  obtain ⟨rfl, hclauses, hspans⟩ := houtcome
  have hfound : (true, c) ∈ [(true, c)] := List.mem_singleton.2 rfl
  have hlengths : List.Forall₂ (fun clause n => 0 < n ∧ ∀ s ∈ clause, s.length.toNat = n)
      c.clauseSpans [2, 1] := by
    rw [hclauses]
    exact .cons (by decide) (.cons (by decide) .nil)
  obtain ⟨-, -, hfreq, hideal, -⟩ := sloppyFreq_of_lengths hrun hfound hlengths
  exact ⟨_, c, hrun, hfound, hlengths, hspans, hfreq, fun h => by simpa using hideal.1 h⟩

/-- A phrase in a proximity is not counted by its gap: the term behind it leaves none, but the
match counts half. -/
theorem phrase_counts_half :
    let term := fun n : UInt32 =>
      SpanTree.term [Posting.ofOccurrences 0 [⟨n, none⟩]] .positions []
    let phrase := SpanTree.nearby [term 0, term 1] 0 true
    let clauses : List (List Span) := [[⟨0, 2, []⟩], [⟨2, 3, []⟩]]
    watch SpanCursor.moved
        (fun o => (o.1, clauseSpans o.2, o.2.spans, (o.2.sloppyFreq : ℚ))) [.next]
        (nearby [phrase.cursor, (term 2).cursor] 0 true) =
          .ok [(true, clauses, [⟨0, 3, []⟩], 1 / 2)] ∧
      List.Forall₂ (fun ss n => ∀ s ∈ ss, Span.length s = n) clauses [2, 1] ∧
      Span.gapFrequency (2 + 1) [⟨0, 3, []⟩] = 1 := by
  intro term phrase clauses
  refine ⟨by cbv, ?_, ?_⟩
  · exact .cons (by decide) (.cons (by decide) .nil)
  · rw [Span.gapFrequency_eq_length (by decide)]
    rfl

end SpanCursor

end TextSearch
