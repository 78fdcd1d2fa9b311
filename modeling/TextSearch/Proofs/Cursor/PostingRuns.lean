import TextSearch.Proofs.Cursor.Posting
import TextSearch.Proofs.Cursor.Runs

/-!
# Runs of posting cursors

A cursor behind gates cannot be told from one that reads a shorter list, the postings that
are frequent enough for the strictest gate, and neither can be told from a scan of that list,
posting by posting. This holds of every run of moves, wherever the targets of the skips lie:
`PostingCursor.trace_gated`. The list has to be in order of documents, as a skip drops
postings from the front only.
-/

namespace TextSearch

section Tracing

variable {α α' β : Type}

/-- What is seen after each of some moves, none of which can fail. -/
def trace (move : Move → α → Bool × α) (see : α → β) : List Move → α → List (Bool × β)
  | [], _ => []
  | m :: moves, a => ((move m a).1, see (move m a).2) :: trace move see moves (move m a).2

/-- Where every move comes out alike and leaves things related, so does every run. -/
theorem trace_congr {move : Move → α → Bool × α} {move' : Move → α' → Bool × α'} {see : α → β}
    {see' : α' → β} {S : α → α' → Prop} (hsee : ∀ {a a'}, S a a' → see a = see' a')
    (hmove : ∀ m {a a'}, S a a' → (move m a).1 = (move' m a').1 ∧ S (move m a).2 (move' m a').2)
    {a : α} {a' : α'} (h : S a a') (moves : List Move) :
    trace move see moves a = trace move' see' moves a' := by
  induction moves generalizing a a' with
  | nil => rfl
  | cons m moves ih =>
    obtain ⟨hfound, hS⟩ := hmove m h
    rw [trace, trace, hfound, hsee hS, ih hS]

end Tracing

/-- What a cursor over postings tells about the place where it stands. -/
structure PostingSight where
  /-- The document. -/
  doc : Nat
  /-- How often the term occurs in it. -/
  frequency : Nat
  /-- Where it occurs, or why that is not told. -/
  occurrences : Except Fault (List Occurrence)

namespace ListCursor

/-- Make a move. -/
def moved : Move → ListCursor → Bool × ListCursor
  | .next, c => c.next
  | .skipTo target, c => c.skipTo target

/-- What the cursor tells. -/
def sight (c : ListCursor) : PostingSight := ⟨c.doc, c.frequency, c.occurrences⟩

end ListCursor

namespace PostingCursor

/-- Make a move. -/
def moved : Move → PostingCursor → Bool × PostingCursor
  | .next, c => c.next
  | .skipTo target, c => c.skipTo target

/-- What the cursor tells. -/
def sight (c : PostingCursor) : PostingSight := ⟨c.doc, c.frequency, c.occurrences⟩

/-- The cursor behind gates, one around the other. -/
def behind (gates : List Threshold) (c : PostingCursor) : PostingCursor :=
  gates.foldr (fun t inner => gated inner t) c

end PostingCursor

/-! ### Linear scans -/

namespace LinearScan

variable (qs : List Posting)

/-- The first index, from some index on, of a posting that is not before a target. -/
def seek (target i : Nat) : Nat := i + (qs.drop i).findIdx fun p => decide (target ≤ p.doc)

/-- The index that a move ends on; there is none in front of the list. -/
def landing : Move → Option Nat → Nat
  | .next, none => 0
  | .next, some i => i + 1
  | .skipTo target, place => seek qs target (place.getD 0)

/-- Make a move, which finds something unless it ends behind the list. -/
def moved (m : Move) (place : Option Nat) : Bool × Option Nat :=
  (decide (landing qs m place < qs.length), some (landing qs m place))

/-- What there is to tell about an index, when postings are read to a detail. -/
def sight (detail : Detail) (place : Option Nat) : PostingSight :=
  let p? := place.bind fun i => qs[i]?
  { doc := p?.elim endOfDocs (·.doc)
    frequency := p?.elim 0 (·.frequency)
    occurrences :=
      if detail.hasPositions then .ok (p?.elim [] (·.read detail))
      else .error .positionsNotRequested }

end LinearScan

/-! ### Filtered lists in order -/

/-- In a list in order of documents, what a skip drops are the postings before its target. -/
theorem dropWhile_doc_eq_filter {ps : List Posting} (h : ps.Pairwise fun p q => p.doc ≤ q.doc)
    (target : Nat) :
    ps.dropWhile (fun p => decide (p.doc < target)) =
      ps.filter fun p => !decide (p.doc < target) := by
  induction ps with
  | nil => rfl
  | cons p ps ih =>
    obtain ⟨hp, hps⟩ := List.pairwise_cons.1 h
    by_cases hlt : p.doc < target
    · rw [List.dropWhile_cons_of_pos (by simpa using hlt), ih hps,
        List.filter_cons_of_neg (by simpa using hlt)]
    · rw [List.dropWhile_cons_of_neg (by simpa using hlt), eq_comm, List.filter_eq_self]
      intro q hq
      have hle : p.doc ≤ q.doc := by
        rcases List.mem_cons.1 hq with rfl | hq
        · exact Nat.le_refl _
        · exact hp q hq
      simp only [Bool.not_eq_true', decide_eq_false_iff_not]
      omega

/-- A skip and a filter may be made one after the other in either way. -/
theorem filter_dropWhile_doc {ps : List Posting} (h : ps.Pairwise fun p q => p.doc ≤ q.doc)
    (keep : Posting → Bool) (target : Nat) :
    (ps.dropWhile fun p => decide (p.doc < target)).filter keep =
      (ps.filter keep).dropWhile fun p => decide (p.doc < target) := by
  rw [dropWhile_doc_eq_filter h, dropWhile_doc_eq_filter (h.sublist List.filter_sublist),
    List.filter_comm]

/-- A skip in what is left of a list ends where a scan ends. -/
theorem dropWhile_drop_eq_drop_seek (qs : List Posting) (target i : Nat) :
    (qs.drop i).dropWhile (fun p => decide (p.doc < target)) =
      qs.drop (LinearScan.seek qs target i) := by
  rw [List.dropWhile_eq_drop_findIdx_not, LinearScan.seek, List.drop_drop]
  have hnot : (fun p : Posting => !decide (p.doc < target)) = fun p => decide (target ≤ p.doc) := by
    funext p
    rw [← decide_not]
    exact decide_eq_decide.2 Nat.not_lt
  rw [hnot]

/-- The least frequency that passes gates, which is that of the strictest one. -/
def strictest (gates : List Threshold) : Nat := gates.foldr (fun t m => max t.value m) 0

theorem passes_eq_strictest (gates : List Threshold) (p : Posting) :
    passes gates p = decide (strictest gates ≤ p.frequency) := by
  induction gates with
  | nil => exact (decide_eq_true (Nat.zero_le _)).symm
  | cons t gates ih =>
    have hcons : passes (t :: gates) p = (decide (t.value ≤ p.frequency) && passes gates p) := rfl
    have hmax : strictest (t :: gates) = max t.value (strictest gates) := rfl
    rw [hcons, ih, hmax, ← Bool.decide_and]
    exact decide_eq_decide.2 Nat.max_le.symm

namespace PostingCursor

/-- A cursor behind gates stands where a scan of the postings that pass them stands. -/
structure Follows (kept : List Posting) (detail : Detail) (gates : List Threshold)
    (c : ListCursor) (place : Option Nat) : Prop where
  detail_eq : c.detail = detail
  sorted : c.rest.Pairwise fun p q => p.doc ≤ q.doc
  started_eq : c.started = place.isSome
  /-- What passes of the postings left is what the scan has left. -/
  left_eq : c.rest.filter (passes gates) = kept.drop (place.getD 0)
  /-- Once the cursor has moved, it stands on a posting that passes. -/
  settled : c.started = true → ∀ p ∈ c.rest.head?, passes gates p = true

namespace Follows

variable {kept : List Posting} {detail : Detail} {gates : List Threshold} {c : ListCursor}
  {place : Option Nat}

/-- Once the cursor has moved, what it stands on is the first posting that passes. -/
theorem head?_eq (h : Follows kept detail gates c place) (hstarted : c.started = true) :
    c.rest.head? = kept[place.getD 0]? := by
  have hsettled := h.settled hstarted
  rw [← List.head?_drop, ← h.left_eq]
  cases hrest : c.rest with
  | nil => rfl
  | cons p ps =>
    rw [hrest] at hsettled
    rw [List.filter_cons_of_pos (hsettled p rfl)]
    rfl

theorem sight_eq (h : Follows kept detail gates c place) :
    c.sight = LinearScan.sight kept detail place := by
  have hcurrent : c.current? = place.bind fun i => kept[i]? := by
    have hstarted := h.started_eq
    unfold ListCursor.current?
    cases place with
    | none =>
      have hstarted : c.started = false := hstarted
      rw [hstarted]
      rfl
    | some i =>
      have hstarted : c.started = true := hstarted
      rw [if_pos hstarted, h.head?_eq hstarted]
      rfl
  unfold ListCursor.sight ListCursor.doc ListCursor.frequency ListCursor.occurrences
    LinearScan.sight
  rw [hcurrent, h.detail_eq]
  cases (place.bind fun i => kept[i]?) with
  | some p => rfl
  | none =>
    -- behind the list there are no occurrences, with payloads or without
    have hnone : (if detail.hasPayloads then ([] : List Occurrence)
        else ([] : List Occurrence).map (·.withoutPayload)) = [] := by split <;> rfl
    simp only [Option.elim_none, hnone]

/-- Where what is left by a move, gates apart, holds the same postings that pass as what the
scan has left from an index on, the move ends with the scan at that index. -/
theorem movedTo (hdetail : c.detail = detail) {rest : List Posting} {i : Nat}
    (hsorted : rest.Pairwise fun p q => p.doc ≤ q.doc)
    (hleft : rest.filter (passes gates) = kept.drop i) :
    (c.movedTo (rest.dropWhile fun p => !passes gates p)).1 = decide (i < kept.length) ∧
      Follows kept detail gates (c.movedTo (rest.dropWhile fun p => !passes gates p)).2
        (some i) := by
  have hpasses : ∀ p ∈ (rest.dropWhile fun p => !passes gates p).head?, passes gates p = true := by
    intro p hp
    have hhead := List.head?_dropWhile_not (fun p => !passes gates p) rest
    rw [Option.mem_def.1 hp] at hhead
    simpa using hhead
  have hfilter := (filter_dropWhile_not (passes gates) rest).trans hleft
  constructor
  · have hlength := congrArg List.length hfilter
    rw [List.length_drop] at hlength
    cases hdrop : rest.dropWhile fun p => !passes gates p with
    | nil =>
      rw [hdrop] at hlength
      have hend : ¬ i < kept.length := by
        simp only [List.filter_nil, List.length_nil] at hlength
        omega
      rw [decide_eq_false hend]
      rfl
    | cons p ps =>
      rw [hdrop] at hlength hpasses
      have hbefore : i < kept.length := by
        rw [List.filter_cons_of_pos (hpasses p rfl), List.length_cons] at hlength
        omega
      rw [decide_eq_true hbefore]
      rfl
  · exact {
      detail_eq := hdetail
      sorted := hsorted.sublist (List.dropWhile_sublist _)
      started_eq := rfl
      left_eq := hfilter
      settled := fun _ => hpasses }

theorem moved_next (h : Follows kept detail gates c place) :
    (nextThrough gates c).1 = (LinearScan.moved kept .next place).1 ∧
      Follows kept detail gates (nextThrough gates c).2 (LinearScan.moved kept .next place).2 := by
  rw [nextThrough_eq_movedTo]
  have hstarted := h.started_eq
  have hleft := h.left_eq
  unfold ListCursor.ahead
  cases place with
  | none =>
    have hstarted : c.started = false := hstarted
    rw [hstarted]
    exact movedTo h.detail_eq h.sorted hleft
  | some i =>
    have hstarted : c.started = true := hstarted
    rw [if_pos hstarted]
    refine movedTo h.detail_eq (h.sorted.sublist (List.tail_sublist _)) ?_
    have htail : c.rest.tail.filter (passes gates) = (c.rest.filter (passes gates)).tail := by
      have hsettled := h.settled hstarted
      cases hrest : c.rest with
      | nil => rfl
      | cons p ps =>
        rw [hrest] at hsettled
        rw [List.filter_cons_of_pos (hsettled p rfl)]
        rfl
    rw [htail, hleft, List.tail_drop]
    rfl

theorem moved_skipTo (h : Follows kept detail gates c place) (target : Nat) :
    (skipThrough target gates c).1 = (LinearScan.moved kept (.skipTo target) place).1 ∧
      Follows kept detail gates (skipThrough target gates c).2
        (LinearScan.moved kept (.skipTo target) place).2 := by
  rw [skipThrough_eq_movedTo]
  refine movedTo h.detail_eq (h.sorted.sublist (List.dropWhile_sublist _)) ?_
  rw [filter_dropWhile_doc h.sorted, h.left_eq, dropWhile_drop_eq_drop_seek]
  rfl

/-- A cursor in front of a list in order follows a scan in front of what passes. -/
theorem ofList {ps : List Posting} (hsorted : ps.Pairwise fun p q => p.doc ≤ q.doc)
    (detail : Detail) (gates : List Threshold) :
    Follows (ps.filter (passes gates)) detail gates (.ofList ps detail) none where
  detail_eq := rfl
  sorted := hsorted
  started_eq := rfl
  left_eq := rfl
  settled := fun h => by cases h

end Follows

variable {kept : List Posting} {detail : Detail} {place : Option Nat}

/-- All runs of a cursor behind gates are those of the scan that it follows. -/
theorem Follows.trace_eq {c : PostingCursor} (h : Follows kept detail c.gates c.base place)
    (moves : List Move) :
    trace moved sight moves c =
      trace (LinearScan.moved kept) (LinearScan.sight kept detail) moves place := by
  refine trace_congr (S := fun c place => Follows kept detail c.gates c.base place)
    (fun h => h.sight_eq) (fun m c place h => ?_) h moves
  cases m with
  | next => exact h.moved_next
  | skipTo target => exact h.moved_skipTo target

/-- A cursor without gates moves as the cursor over its list. -/
theorem trace_ungated (c : ListCursor) (moves : List Move) :
    trace ListCursor.moved ListCursor.sight moves c = trace moved sight moves ⟨c, []⟩ := by
  refine trace_congr (S := fun c c' => c' = ⟨c, []⟩) (fun h => h ▸ rfl) (fun m c c' h => ?_) rfl
    moves
  subst h
  cases m <;> exact ⟨rfl, rfl⟩

theorem behind_ungated (gates : List Threshold) (c : ListCursor) :
    behind gates ⟨c, []⟩ = ⟨c, gates⟩ := by
  induction gates with
  | nil => rfl
  | cons t gates ih =>
    have hcons : behind (t :: gates) ⟨c, []⟩ = (behind gates ⟨c, []⟩).gated t := rfl
    rw [hcons, ih]
    rfl

/-- In every run of moves, a cursor behind gates, one around the other, shows what the cursor
over the postings frequent enough for the strictest gate shows, and what a scan of these
postings shows. -/
theorem trace_gated {ps : List Posting} (hsorted : ps.Pairwise fun p q => p.doc ≤ q.doc)
    (detail : Detail) (gates : List Threshold) (moves : List Move) :
    let kept := ps.filter fun p => decide (strictest gates ≤ p.frequency)
    let gated := behind gates (.ofList ps detail)
    trace moved sight moves gated =
        trace ListCursor.moved ListCursor.sight moves (.ofList kept detail) ∧
      trace moved sight moves gated =
        trace (LinearScan.moved kept) (LinearScan.sight kept detail) moves none := by
  intro kept gated
  have hgated : gated = ⟨.ofList ps detail, gates⟩ := behind_ungated gates (.ofList ps detail)
  have hkept : kept = ps.filter (passes gates) :=
    List.filter_congr fun p _ => (passes_eq_strictest gates p).symm
  have hscan : trace moved sight moves gated =
      trace (LinearScan.moved kept) (LinearScan.sight kept detail) moves none := by
    rw [hgated, hkept]
    exact (Follows.ofList hsorted detail gates).trace_eq moves
  have hplain : trace ListCursor.moved ListCursor.sight moves (.ofList kept detail) =
      trace (LinearScan.moved kept) (LinearScan.sight kept detail) moves none := by
    have hall : kept.filter (passes []) = kept := List.filter_eq_self.2 fun _ _ => rfl
    have hkeptSorted : kept.Pairwise fun p q => p.doc ≤ q.doc :=
      hsorted.sublist List.filter_sublist
    have hfollows := Follows.ofList hkeptSorted detail []
    rw [hall] at hfollows
    rw [trace_ungated]
    exact hfollows.trace_eq moves
  exact ⟨hscan.trans hplain.symm, hscan⟩

/-- A list with a posting too rare between two that pass, behind two gates: a skip to the rare
one ends on the next, a skip backwards stays, and behind the list there is nothing. -/
theorem trace_gated_sample :
    let ps := [Posting.ofFrequency 1 2, Posting.ofFrequency 4 1, Posting.ofFrequency 8 3]
    let two : Threshold := ⟨2, by decide⟩
    let moves := [Move.next, .skipTo 4, .skipTo 2, .next, .next]
    let kept := [Posting.ofFrequency 1 2, Posting.ofFrequency 8 3]
    ps.Pairwise (fun p q => p.doc ≤ q.doc) ∧
      trace moved sight moves (behind [.one, two] (.ofList ps .positions)) =
        trace ListCursor.moved ListCursor.sight moves (.ofList kept .positions) := by
  intro ps two moves kept
  have hsorted : ps.Pairwise (fun p q => p.doc ≤ q.doc) := by decide
  exact ⟨hsorted, (trace_gated hsorted .positions [.one, two] moves).1⟩

end PostingCursor

end TextSearch
