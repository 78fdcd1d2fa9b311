import TextSearch.Match.Matcher
import TextSearch.Proofs.Cursor.SpanTree
import TextSearch.Proofs.Match.Walk

/-!
# What matchers show

A matcher shows how often a document matches and what it scores. For the matchers
at the leaves this is what their cursors show, seen through a scorer.
-/

namespace TextSearch

/-- How often a document matches and what it scores. -/
structure Merit (R : Type) where
  /-- How often the document matches. -/
  frequency : Nat
  /-- The score. -/
  score : R

namespace Merit

variable {R : Type} [ScoreNumber R]

/-- What several matchers on one document come to. -/
def sum (ms : List (Merit R)) : Merit R :=
  ⟨total (ms.map (·.frequency)), ScoreNumber.sum (ms.map (·.score))⟩

/-- What a required matcher comes to when an optional one may be on the same document. -/
def prefer (required : Merit R) (optional : Option (Merit R)) : Merit R :=
  ⟨required.frequency, required.score + optional.elim ScoreNumber.zero (·.score)⟩

/-- What a posting comes to under a scorer. -/
def ofPosting (scorer : Option (BM25 R)) (p : Posting) : Merit R :=
  ⟨p.frequency, scorer.elim ScoreNumber.zero fun s => s.score (ScoreNumber.ofCount p.frequency)⟩

end Merit

/-- The frequency that spans come to when so many positions of each go without a gap. -/
def Span.sloppyFrequency {R : Type} [ScoreNumber R] (width : UInt32) (ss : List Span) : R :=
  ScoreNumber.sum (ss.map fun s =>
    ScoreNumber.one /
      (ScoreNumber.one + ScoreNumber.ofCount (Span.excess s.length width).toNat))

/-- What spans come to under a scorer. -/
def Merit.ofSpans {R : Type} [ScoreNumber R] (scorer : Option (BM25 R)) (width : UInt32)
    (ss : List Span) : Merit R :=
  ⟨ss.length, scorer.elim ScoreNumber.zero fun s => s.score (Span.sloppyFrequency width ss)⟩

namespace PostingMatcher

variable {R : Type} [ScoreNumber R]

/-- A matcher over postings has found nothing more, or stands where its cursor does. -/
inductive Walks : PostingMatcher R → Trail (Merit R) → Prop
  /-- Nothing is left. -/
  | stopped {m : PostingMatcher R} (hexhausted : m.exhausted = true) : Walks m []
  /-- The cursor stands on a posting. -/
  | on {m : PostingMatcher R} {detail : Detail} {v : Visit Posting} {t : Trail Posting}
    (hcursor : PostingCursor.Walks detail m.cursor (.on v t)) (hexhausted : m.exhausted = false) :
    Walks m (Trail.showing (Merit.ofPosting m.scorer) (v :: t))

/-- A moved cursor makes a matcher where it has arrived. -/
theorem walks_of_arrived {detail : Detail} {move : Bool × PostingCursor} {t : Trail Posting}
    (h : Arrived (PostingCursor.Walks detail) move t) (scorer : Option (BM25 R)) :
    Walks ⟨move.2, scorer, !move.1⟩ (t.showing (Merit.ofPosting scorer)) := by
  cases t with
  | nil => exact .stopped (congrArg not h)
  | cons v t => exact .on h.2 (congrArg not h.1)

theorem walks_ofCursor {detail : Detail} {c : PostingCursor} {t : Trail Posting}
    (h : PostingCursor.Walks detail c (.before t)) (scorer : Option (BM25 R)) :
    Walks (ofCursor c scorer) (t.showing (Merit.ofPosting scorer)) :=
  walks_of_arrived h.next scorer

theorem leaves_moved (m : PostingMatcher R) {detail : Detail} {move : Bool × PostingCursor}
    {t : Trail Posting} (h : Arrived (PostingCursor.Walks detail) move t) :
    Leaves Walks (.ok (m.moved move)) (t.showing (Merit.ofPosting m.scorer)) := by
  refine ⟨_, ?_, walks_of_arrived h m.scorer⟩
  rw [moved, h.found, Trail.showing, List.isEmpty_map]

namespace Walks

variable {m : PostingMatcher R} {t : Trail (Merit R)}

theorem doc (h : Walks m t) : m.doc = t.firstDoc := by
  cases h with
  | stopped hexhausted => rw [PostingMatcher.doc, hexhausted]; rfl
  | on hcursor hexhausted => rw [PostingMatcher.doc, hexhausted]; exact hcursor.doc

theorem exhausted (h : Walks m t) : m.exhausted = t.isEmpty := by
  cases h with
  | stopped hexhausted => exact hexhausted
  | on hcursor hexhausted => exact hexhausted

theorem sound (h : Walks m t) : t.Sound := by
  cases h with
  | stopped hexhausted => exact .nil
  | on hcursor hexhausted => exact hcursor.sound.showing _

theorem remaining (h : Walks m t) : t.tail.length ≤ m.cursor.remaining := by
  cases h with
  | stopped hexhausted => exact Nat.zero_le _
  | on hcursor hexhausted => simpa [Trail.showing] using hcursor.remaining

theorem next (h : Walks m t) : Leaves Walks (.ok m.next) t.tail := by
  cases h with
  | stopped hexhausted =>
    refine ⟨m, ?_, .stopped hexhausted⟩
    rw [PostingMatcher.next, hexhausted]
    rfl
  | on hcursor hexhausted =>
    rw [PostingMatcher.next, hexhausted, if_neg (by decide)]
    exact m.leaves_moved hcursor.next

theorem skipTo (h : Walks m t) (target : Nat) :
    Leaves Walks (.ok (m.skipTo target)) (t.since target) := by
  cases h with
  | stopped hexhausted =>
    refine ⟨m, ?_, .stopped hexhausted⟩
    rw [PostingMatcher.skipTo, hexhausted]
    rfl
  | on hcursor hexhausted =>
    rw [PostingMatcher.skipTo, hexhausted, if_neg (by decide), ← Trail.showing_since]
    exact m.leaves_moved (hcursor.skipTo target)

theorem frequency {v : Visit (Merit R)} (h : Walks m (v :: t)) :
    m.frequency = v.shown.frequency := by
  cases h with
  | on hcursor hexhausted =>
    rw [PostingMatcher.frequency, hexhausted, if_neg (by decide), hcursor.frequency]
    rfl

theorem score {v : Visit (Merit R)} (h : Walks m (v :: t)) : m.score = v.shown.score := by
  cases h with
  | on hcursor hexhausted =>
    rw [PostingMatcher.score, hexhausted, hcursor.frequency]
    rcases m with ⟨c, _ | s, e⟩ <;> rfl

end Walks

end PostingMatcher

namespace SpanMatcher

variable {R : Type} [ScoreNumber R]

/-- A matcher over spans has found nothing more, or stands where its cursor does. -/
inductive Walks : SpanMatcher R → Trail (Merit R) → Prop
  /-- Nothing is left. -/
  | stopped {m : SpanMatcher R} (hexhausted : m.exhausted = true) : Walks m []
  /-- The cursor stands on a document with spans. -/
  | on {m : SpanMatcher R} {width : UInt32} {v : Visit (List Span)} {t : Trail (List Span)}
    (hcursor : SpanCursor.Walks width m.cursor (.on v t)) (hexhausted : m.exhausted = false) :
    Walks m (Trail.showing (Merit.ofSpans m.scorer width) (v :: t))

theorem walks_of_arrived {width : UInt32} {move : Bool × SpanCursor} {t : Trail (List Span)}
    (h : Arrived (SpanCursor.Walks width) move t) (scorer : Option (BM25 R)) :
    Walks ⟨move.2, scorer, !move.1⟩ (t.showing (Merit.ofSpans scorer width)) := by
  cases t with
  | nil => exact .stopped (congrArg not h)
  | cons v t => exact .on h.2 (congrArg not h.1)

theorem walks_ofCursor {width : UInt32} {c : SpanCursor} {t : Trail (List Span)}
    (h : SpanCursor.Walks width c (.before t)) (scorer : Option (BM25 R)) :
    ∃ m, ofCursor c scorer = .ok m ∧ Walks m (t.showing (Merit.ofSpans scorer width)) := by
  obtain ⟨move, hmove, harrived⟩ := h.next
  exact ⟨_, by rw [ofCursor, hmove]; rfl, walks_of_arrived harrived scorer⟩

theorem leaves_moved (m : SpanMatcher R) {width : UInt32} {move : Bool × SpanCursor}
    {t : Trail (List Span)} (h : Arrived (SpanCursor.Walks width) move t) :
    Leaves Walks (.ok (m.moved move)) (t.showing (Merit.ofSpans m.scorer width)) := by
  refine ⟨_, ?_, walks_of_arrived h m.scorer⟩
  rw [moved, h.found, Trail.showing, List.isEmpty_map]

namespace Walks

variable {m : SpanMatcher R} {t : Trail (Merit R)}

theorem doc (h : Walks m t) : m.doc = t.firstDoc := by
  cases h with
  | stopped hexhausted => rw [SpanMatcher.doc, hexhausted]; rfl
  | on hcursor hexhausted => rw [SpanMatcher.doc, hexhausted]; exact hcursor.doc

theorem exhausted (h : Walks m t) : m.exhausted = t.isEmpty := by
  cases h with
  | stopped hexhausted => exact hexhausted
  | on hcursor hexhausted => exact hexhausted

theorem sound (h : Walks m t) : t.Sound := by
  cases h with
  | stopped hexhausted => exact .nil
  | on hcursor hexhausted => exact hcursor.sound.showing _

theorem remaining (h : Walks m t) : t.tail.length ≤ m.cursor.remaining := by
  cases h with
  | stopped hexhausted => exact Nat.zero_le _
  | on hcursor hexhausted => simpa [Trail.showing] using hcursor.remaining

theorem next (h : Walks m t) : Leaves Walks m.next t.tail := by
  cases h with
  | stopped hexhausted =>
    refine ⟨m, ?_, .stopped hexhausted⟩
    rw [SpanMatcher.next, hexhausted]
    rfl
  | on hcursor hexhausted =>
    obtain ⟨move, hmove, harrived⟩ := hcursor.next
    rw [SpanMatcher.next, hexhausted, if_neg (by decide), hmove]
    exact m.leaves_moved harrived

theorem skipTo (h : Walks m t) (target : Nat) :
    Leaves Walks (m.skipTo target) (t.since target) := by
  have hdoc : m.exhausted = false → m.cursor.doc = m.doc := by
    intro hexhausted
    rw [SpanMatcher.doc, hexhausted]
    rfl
  by_cases hstay : m.exhausted || decide (target ≤ m.cursor.doc)
  · have hsame : t.since target = t := by
      cases hex : m.exhausted with
      | true =>
        have hnil : t = [] := by rwa [h.exhausted, List.isEmpty_iff] at hex
        rw [hnil, Trail.since_nil]
      | false =>
        refine since_of_stays h.sound h.exhausted h.doc ?_
        rwa [← hdoc hex]
    refine ⟨m, ?_, hsame.symm ▸ h⟩
    rw [SpanMatcher.skipTo, if_pos hstay, hsame, h.exhausted]
  · rw [SpanMatcher.skipTo, if_neg hstay]
    cases h with
    | stopped hexhausted => exact absurd (by rw [hexhausted]; rfl) hstay
    | on hcursor hexhausted =>
      obtain ⟨move, hmove, harrived⟩ := hcursor.skipTo target
      rw [hmove, ← Trail.showing_since]
      exact m.leaves_moved harrived

theorem frequency {v : Visit (Merit R)} (h : Walks m (v :: t)) :
    m.frequency = v.shown.frequency := by
  cases h with
  | on hcursor hexhausted =>
    rw [SpanMatcher.frequency, hexhausted, if_neg (by decide), hcursor.spans]
    rfl

theorem score {v : Visit (Merit R)} (h : Walks m (v :: t)) : m.score = v.shown.score := by
  cases h with
  | on hcursor hexhausted =>
    rw [SpanMatcher.score, hexhausted, SpanCursor.sloppyFreq, hcursor.spans, hcursor.2]
    rcases m with ⟨c, _ | s, e⟩ <;> rfl

end Walks

end SpanMatcher

end TextSearch
