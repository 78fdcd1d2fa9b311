import TextSearch.Posting.Cursor
import TextSearch.Proofs.Cursor.Walk

/-!
# Walking a posting list

A posting cursor visits those postings of its list that pass all of its gates.
Gates that stand one around the other hide what any of them hides, so the loops
by which each of them walks on come to a single `dropWhile`. Main statement:
`PostingCursor.Walks.next` and `PostingCursor.Walks.skipTo`.
-/

namespace TextSearch

/-- The visit to the document of a posting. -/
def Posting.visit (p : Posting) : Visit Posting := ⟨p.doc, p⟩

/-- The visits to the documents of a posting list. -/
def Posting.trail (ps : List Posting) : Trail Posting := ps.map Posting.visit

theorem Posting.trail_cons (p : Posting) (ps : List Posting) :
    Posting.trail (p :: ps) = p.visit :: Posting.trail ps := rfl

theorem Posting.sound_trail {ps : List Posting} (hascending : ps.Pairwise fun p q => p.doc < q.doc)
    (hbounded : ∀ p ∈ ps, p.doc < endOfDocs) : (Posting.trail ps).Sound :=
  ⟨List.pairwise_map.2 (hascending.imp Nat.le_of_lt), List.forall_mem_map.2 hbounded⟩

/-- The occurrences that a posting lists when it is read to a detail. -/
def Posting.read (detail : Detail) (p : Posting) : List Occurrence :=
  let os := p.occurrences.getD []
  if detail.hasPayloads then os else os.map (·.withoutPayload)

/-- How many occurrences of a posting have no payload. -/
def Posting.bareCount (p : Posting) : Nat :=
  ((p.occurrences.getD []).filter (·.hasEmptyPayload)).length

/-- Whether a term is frequent enough in a document for every gate. -/
def passes (gates : List Threshold) (p : Posting) : Bool :=
  gates.all fun t => decide (t.value ≤ p.frequency)

/-- The visits of a list of postings behind gates. -/
def gatedVisits (gates : List Threshold) (ps : List Posting) : Trail Posting :=
  Posting.trail (ps.filter (passes gates))

theorem gatedVisits_cons {gates : List Threshold} {p : Posting} (h : passes gates p = true)
    (ps : List Posting) : gatedVisits gates (p :: ps) = p.visit :: gatedVisits gates ps := by
  rw [gatedVisits, List.filter_cons_of_pos h]
  rfl

/-- What an inner gate hides is hidden. -/
theorem not_passes_cons {t : Threshold} {inner : List Threshold} {p : Posting}
    (h : !passes inner p) : !passes (t :: inner) p := by
  simp only [passes, List.all_cons, Bool.not_and, Bool.or_eq_true] at h ⊢
  exact .inr h

theorem dropWhile_dropWhile_of_imp {α : Type} {p q : α → Bool} (h : ∀ a, p a → q a)
    (l : List α) : (l.dropWhile p).dropWhile q = l.dropWhile q := by
  induction l with
  | nil => rfl
  | cons a l ih =>
    rw [List.dropWhile_cons]
    split
    · next ha => rw [ih, List.dropWhile_cons, if_pos (h a ha)]
    · rfl

/-- What a filter keeps comes after what it drops in front. -/
theorem filter_dropWhile_not {α : Type} (p : α → Bool) (l : List α) :
    (l.dropWhile fun a => !p a).filter p = l.filter p := by
  induction l with
  | nil => rfl
  | cons a l ih =>
    rw [List.dropWhile_cons]
    by_cases ha : p a
    · simp [ha]
    · simp [ha, ih]

namespace ListCursor

/-- A cursor that has moved on to what is left of its list. -/
def movedTo (c : ListCursor) (rest : List Posting) : Bool × ListCursor :=
  (!rest.isEmpty, { c with started := true, rest })

/-- The postings that the next move may end on. -/
def ahead (c : ListCursor) : List Posting := if c.started then c.rest.tail else c.rest

theorem remaining_movedTo (c : ListCursor) (rest : List Posting) :
    (c.movedTo rest).2.remaining = rest.length - 1 := rfl

theorem length_ahead (c : ListCursor) : c.ahead.length = c.remaining := by
  rw [ahead, remaining]
  split <;> simp

end ListCursor

namespace PostingCursor

open ListCursor

/-- One more gate around others walks on to the first posting that passes all of them. -/
theorem settle_eq_movedTo {t : Threshold} {inner : List Threshold}
    (hnext : ∀ c, nextThrough inner c = c.movedTo (c.ahead.dropWhile fun p => !passes inner p))
    (steps : Nat) (c : ListCursor) (rest : List Posting) (hsteps : rest.length ≤ steps)
    (hrest : rest.dropWhile (fun p => !passes inner p) = rest) :
    settle t (nextThrough inner) steps (c.movedTo rest) =
      c.movedTo (rest.dropWhile fun p => !passes (t :: inner) p) := by
  induction steps generalizing c rest with
  | zero =>
    have : rest = [] := List.length_eq_zero_iff.1 (Nat.le_zero.1 hsteps)
    subst this
    rfl
  | succ steps ih =>
    cases rest with
    | nil => rfl
    | cons p rest =>
      have hinner : passes inner p = true := by
        by_contra hp
        rw [List.dropWhile_cons, if_pos (by simpa using hp)] at hrest
        have := congrArg List.length hrest
        have := (List.dropWhile_sublist (fun p => !passes inner p) (l := rest)).length_le
        simp only [List.length_cons] at *
        omega
      have hfreq : (c.movedTo (p :: rest)).2.frequency = p.frequency := rfl
      by_cases hlow : p.frequency < t.value
      · have hmove : nextThrough inner (c.movedTo (p :: rest)).2 =
            c.movedTo (rest.dropWhile fun p => !passes inner p) := hnext _
        have hfail : passes (t :: inner) p = false := by
          simp only [passes, List.all_cons, Bool.and_eq_false_iff, decide_eq_false_iff_not]
          exact .inl (by omega)
        have hlen := (List.dropWhile_sublist (fun p => !passes inner p) (l := rest)).length_le
        have hstep : settle t (nextThrough inner) (steps + 1) (c.movedTo (p :: rest)) =
            settle t (nextThrough inner) steps (nextThrough inner (c.movedTo (p :: rest)).2) := by
          rw [movedTo, settle, ← hfreq] at *
          simp only [List.isEmpty_cons, Bool.not_false, Bool.true_and, decide_eq_true_eq]
          exact if_pos hlow
        rw [hstep, hmove, ih _ _ (by simp only [List.length_cons] at hsteps; omega)
          (dropWhile_dropWhile_of_imp (fun _ h => h) rest), List.dropWhile_cons,
          if_pos (by simp [hfail]), dropWhile_dropWhile_of_imp fun _ => not_passes_cons]
      · have hpass : passes (t :: inner) p = true := by
          simp only [passes, List.all_cons, Bool.and_eq_true, decide_eq_true_eq]
          exact ⟨by omega, hinner⟩
        rw [List.dropWhile_cons, if_neg (by simp [hpass]), movedTo, settle]
        simp only [List.isEmpty_cons, Bool.not_false, Bool.true_and, decide_eq_true_eq]
        exact if_neg hlow

/-- The next move ends on the first posting ahead that passes every gate. -/
theorem nextThrough_eq_movedTo (gates : List Threshold) (c : ListCursor) :
    nextThrough gates c = c.movedTo (c.ahead.dropWhile fun p => !passes gates p) := by
  induction gates generalizing c with
  | nil =>
    have hall : c.ahead.dropWhile (fun p => !passes [] p) = c.ahead := by
      cases c.ahead <;> rfl
    rw [hall]
    rfl
  | cons t inner ih =>
    rw [nextThrough]
    simp only [ih c]
    rw [settle_eq_movedTo ih]
    · rw [dropWhile_dropWhile_of_imp fun _ => not_passes_cons]
    · rw [remaining_movedTo]
      omega
    · exact dropWhile_dropWhile_of_imp (fun _ h => h) _

/-- A skip ends on the first posting not before the target that passes every gate. -/
theorem skipThrough_eq_movedTo (target : Nat) (gates : List Threshold) (c : ListCursor) :
    skipThrough target gates c =
      c.movedTo ((c.rest.dropWhile fun p => p.doc < target).dropWhile fun p =>
        !passes gates p) := by
  induction gates with
  | nil =>
    have hall (l : List Posting) : l.dropWhile (fun p => !passes [] p) = l := by
      cases l <;> rfl
    rw [hall]
    rfl
  | cons t inner ih =>
    rw [skipThrough]
    simp only [ih]
    rw [settle_eq_movedTo (nextThrough_eq_movedTo inner)]
    · rw [dropWhile_dropWhile_of_imp fun _ => not_passes_cons]
    · rw [remaining_movedTo]
      omega
    · exact dropWhile_dropWhile_of_imp (fun _ h => h) _

/-- A cursor that reads a sound list of postings to some detail, in front of the list or on a
posting that passes its gates. -/
inductive Walks (detail : Detail) : PostingCursor → Place Posting → Prop
  /-- The cursor has not moved yet. -/
  | before {c : PostingCursor} (hdetail : c.base.detail = detail)
    (hsound : (Posting.trail c.base.rest).Sound) (hstarted : c.base.started = false) :
    Walks detail c (.before (gatedVisits c.gates c.base.rest))
  /-- The cursor stands on a posting. -/
  | on {c : PostingCursor} {p : Posting} {ps : List Posting} (hdetail : c.base.detail = detail)
    (hsound : (Posting.trail c.base.rest).Sound) (hstarted : c.base.started = true)
    (hrest : c.base.rest = p :: ps) (hpass : passes c.gates p = true) :
    Walks detail c (.on p.visit (gatedVisits c.gates ps))

/-- A cursor that is opened on a list walks the postings of the list that pass its gates. -/
theorem walks_ofList {ps : List Posting} (h : (Posting.trail ps).Sound) (detail : Detail)
    (gates : List Threshold) :
    Walks detail ⟨.ofList ps detail, gates⟩ (.before (gatedVisits gates ps)) :=
  .before rfl h rfl

/-- A cursor that has moved on stands on the first posting left that passes its gates. -/
theorem arrived_movedTo {detail : Detail} {c : PostingCursor} (hdetail : c.base.detail = detail)
    {ps : List Posting} (hsound : (Posting.trail ps).Sound) :
    Arrived (Walks detail)
      ((c.base.movedTo (ps.dropWhile fun p => !passes c.gates p)).1,
        { c with base := (c.base.movedTo (ps.dropWhile fun p => !passes c.gates p)).2 })
      (gatedVisits c.gates ps) := by
  have hleft : (Posting.trail (ps.dropWhile fun p => !passes c.gates p)).Sound :=
    hsound.sublist ((List.dropWhile_sublist _).map _)
  rw [gatedVisits, ← filter_dropWhile_not]
  cases h : ps.dropWhile fun p => !passes c.gates p with
  | nil => rfl
  | cons p rest =>
    have hp : passes c.gates p = true := by
      have := List.head?_dropWhile_not (fun p => !passes c.gates p) ps
      rw [h] at this
      simpa using this
    rw [List.filter_cons, if_pos hp]
    exact ⟨rfl, .on hdetail (h ▸ hleft) rfl rfl hp⟩

/-- Skipping in a sound list of postings comes to the same before and behind gates. -/
theorem gatedVisits_since {ps : List Posting} (h : (Posting.trail ps).Sound)
    (gates : List Threshold) (target : Nat) :
    (gatedVisits gates ps).since target =
      gatedVisits gates (ps.dropWhile fun p => p.doc < target) := by
  induction ps with
  | nil => rfl
  | cons p ps ih =>
    rw [List.dropWhile_cons]
    by_cases hlt : p.doc < target
    · rw [if_pos (by simpa using hlt), ← ih h.tail, gatedVisits, List.filter_cons]
      split
      · rw [Posting.trail_cons, Trail.since_cons]
        exact if_pos hlt
      · rfl
    · rw [if_neg (by simpa using hlt)]
      refine Trail.since_eq_self fun v hv => ?_
      obtain ⟨q, hq, rfl⟩ := List.mem_map.1 hv
      have hle : p.doc ≤ q.doc :=
        h.head_le (List.mem_map_of_mem (f := Posting.visit) (List.mem_filter.1 hq).1)
      exact Nat.le_trans (Nat.le_of_not_lt hlt) hle

namespace Walks

variable {detail : Detail} {c : PostingCursor} {v : Visit Posting} {t : Trail Posting}
  {place : Place Posting}

theorem detail_eq (h : Walks detail c place) : c.base.detail = detail := by
  cases h <;> assumption

theorem sound_rest (h : Walks detail c place) : (Posting.trail c.base.rest).Sound := by
  cases h <;> assumption

theorem ahead_eq (h : Walks detail c place) :
    place.ahead = gatedVisits c.gates c.base.ahead := by
  cases h with
  | before hdetail hsound hstarted =>
    rw [ListCursor.ahead, hstarted, if_neg Bool.false_ne_true]
    rfl
  | on hdetail hsound hstarted hrest hpass =>
    rw [ListCursor.ahead, hstarted, if_pos rfl, hrest]
    rfl

theorem pending_eq (h : Walks detail c place) :
    place.pending = gatedVisits c.gates c.base.rest := by
  cases h with
  | before hdetail hsound hstarted => rfl
  | on hdetail hsound hstarted hrest hpass =>
    rw [hrest, gatedVisits_cons hpass, Place.pending_on]

theorem sound (h : Walks detail c place) : place.pending.Sound := by
  rw [h.pending_eq]
  exact h.sound_rest.sublist (List.filter_sublist.map _)

theorem doc (h : Walks detail c (.on v t)) : c.doc = v.doc := by
  cases h with
  | on hdetail hsound hstarted hrest hpass =>
    simp [PostingCursor.doc, ListCursor.doc, ListCursor.current?, hstarted, hrest, Posting.visit]

theorem frequency (h : Walks detail c (.on v t)) : c.frequency = v.shown.frequency := by
  cases h with
  | on hdetail hsound hstarted hrest hpass =>
    simp [PostingCursor.frequency, ListCursor.frequency, ListCursor.current?, hstarted, hrest,
      Posting.visit]

/-- Where positions are read, the occurrences of the posting are listed. -/
theorem occurrences (h : Walks detail c (.on v t)) (hpos : detail.hasPositions = true) :
    c.occurrences = .ok (v.shown.read detail) := by
  cases h with
  | on hdetail hsound hstarted hrest hpass =>
    rw [PostingCursor.occurrences, ListCursor.occurrences, hdetail, if_pos hpos,
      ListCursor.current?, hstarted, if_pos rfl, hrest]
    rfl

theorem remaining (h : Walks detail c place) : place.ahead.length ≤ c.remaining := by
  rw [h.ahead_eq, gatedVisits, Posting.trail, List.length_map, PostingCursor.remaining,
    ← ListCursor.length_ahead]
  exact List.length_filter_le _ _

/-- The next move ends on the next visit. -/
theorem next (h : Walks detail c place) : Arrived (Walks detail) c.next place.ahead := by
  have hsound : (Posting.trail c.base.ahead).Sound := by
    refine h.sound_rest.sublist (List.Sublist.map _ ?_)
    rw [ListCursor.ahead]
    split
    · exact List.tail_sublist _
    · exact List.Sublist.refl _
  rw [PostingCursor.next, nextThrough_eq_movedTo, h.ahead_eq]
  exact arrived_movedTo h.detail_eq hsound

/-- A skip leaves out the visits before its target. -/
theorem skipTo (h : Walks detail c place) (target : Nat) :
    Arrived (Walks detail) (c.skipTo target) (place.pending.since target) := by
  have hsound : (Posting.trail (c.base.rest.dropWhile fun p => p.doc < target)).Sound :=
    h.sound_rest.sublist ((List.dropWhile_sublist _).map _)
  rw [PostingCursor.skipTo, skipThrough_eq_movedTo, h.pending_eq,
    gatedVisits_since h.sound_rest]
  exact arrived_movedTo h.detail_eq hsound

end Walks

end PostingCursor

end TextSearch
