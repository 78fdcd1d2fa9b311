import TextSearch.Proofs.Cursor.Posting
import TextSearch.Proofs.Dictionary
import TextSearch.Search.LookupCache

/-!
# Lookups

A lookup of a term that was made from a snapshot opens in each of its segments
the postings that the segment has of the term. Lookups are shared through a cache
and may be brought by queries; `LookupCache.Sound` and the honesty of a carried
lookup say that both are what would be looked up afresh.
-/

namespace TextSearch

namespace Segment

/-- The postings of a term, if the segment has the term. -/
def postings? (g : Segment) (t : Term) : Option (List Posting) :=
  (g.fields.get? t.field).bind fun f => f.terms.get? t.text

/-- Looking a term up finds an entry with which its postings are opened, or finds that there
are none. -/
theorem entry?_cases (g : Segment) (t : Term) :
    (g.postings? t = none ∧ g.entry? t = none) ∨
      ∃ ps entry f, g.postings? t = some ps ∧ g.entry? t = some entry ∧
        g.fields.get? t.field = some f ∧
        ∀ detail, g.postings t entry detail =
          if f.options.supports detail then .ok (.ofList ps detail)
          else .error (.positionsNotIndexed t) := by
  cases hf : g.fields.get? t.field with
  | none => exact .inl ⟨by rw [postings?, hf]; rfl, by rw [ entry?, hf]; rfl⟩
  | some f =>
    cases hps : f.terms.get? t.text with
    | none =>
      refine .inl ⟨by rw [postings?, hf]; exact hps, ?_⟩
      rw [ entry?, hf, Option.bind_some, FieldPostings.entry?, hps]
      rfl
    | some ps =>
      obtain ⟨i, hi, hentry⟩ := f.terms.indexOf?_of_get? hps
      refine .inr ⟨ps, ⟨ps.length, total (ps.map (·.frequency)), i⟩, f, ?_, ?_, rfl, ?_⟩
      · rw [postings?, hf]
        exact hps
      · rw [ entry?, hf, Option.bind_some, FieldPostings.entry?, hps, hi]
        rfl
      · intro detail
        rw [postings, hf]
        simp only [FieldPostings.postingsAt?, hentry, Option.map_some]

/-- The posting lists of a segment can be walked, and places are stored where they should be. -/
structure Sound (g : Segment) : Prop where
  /-- Every posting list can be walked. -/
  trail : ∀ t ps, g.postings? t = some ps → (Posting.trail ps).Sound
  /-- Every posting of a field with positions has a place. -/
  placed : ∀ t ps, g.postings? t = some ps → (g.options? t.field).any (·.hasPositions) = true →
    ∀ p ∈ ps, p.occurrences.getD [] ≠ []

end Segment

/-- The segments of a snapshot know the snapshot and their places in it. -/
structure Snapshot.Numbered (s : Snapshot) : Prop where
  /-- A segment knows its place. -/
  ord : ∀ (i : Nat) (g : Segment), s.segments[i]? = some g → g.ord = i
  /-- A segment knows its snapshot. -/
  snapshot : ∀ g ∈ s.segments, g.snapshot = s.id

/-- A lookup is what looking its term up in a snapshot gives. -/
def TermLookup.Faithful (s : Snapshot) (t : Term) (l : TermLookup) : Prop :=
  l = ofSnapshot s t l.isCounted

namespace TermLookup

variable {s : Snapshot} {t : Term} {l : TermLookup}

theorem faithful_ofSnapshot (s : Snapshot) (t : Term) (counted : Bool) :
    (ofSnapshot s t counted).Faithful s t := rfl

/-- A faithful lookup finds in every segment the entry that the segment has. -/
theorem Faithful.get (h : l.Faithful s t) (hs : s.Numbered) {g : Segment}
    (hg : g ∈ s.segments) : l.get g = .ok ( g.entry? t) := by
  obtain ⟨i, hi⟩ := List.getElem?_of_mem hg
  have hid : (ofSnapshot s t l.isCounted).snapshot = g.snapshot := (hs.snapshot g hg).symm
  rw [h, TermLookup.get, if_pos hid, hs.ord i g hi]
  simp [ofSnapshot, hi]

/-- The totals of a term over a snapshot, if it occurs at all. -/
def totals? (s : Snapshot) (t : Term) : Option TermStatistics :=
  (ofSnapshot s t true).statistics?

/-- A faithful lookup with totals has those of its term. -/
theorem Faithful.statistics? (h : l.Faithful s t) (hcounted : l.isCounted = true) :
    l.statistics? = totals? s t := by
  rw [h, hcounted]
  rfl

end TermLookup

/-- A lookup that a query brings along is either of another snapshot or faithful. -/
def TermLookup.Honest (s : Snapshot) (t : Term) (carried : Option TermLookup) : Prop :=
  ∀ l, carried = some l → l.snapshot = s.id → l.Faithful s t

/-- Every shared lookup is faithful. -/
def LookupCache.Sound (s : Snapshot) (c : LookupCache) : Prop :=
  ∀ t l, c.shared.lookup t = some l → l.lookup.Faithful s t

namespace LookupCache

variable {s : Snapshot} {c : LookupCache}

theorem sound_empty (s : Snapshot) : empty.Sound s := by
  intro t l hl
  cases hl

/-- What a lookup has to be to serve a request. -/
def Serves (s : Snapshot) (t : Term) (counted : Bool) (l : TermLookup) : Prop :=
  l.Faithful s t ∧ (counted = true → l.isCounted = true)

theorem serves_of_hasTotals {t : Term} {counted : Bool} {l : TermLookup} (h : l.Faithful s t)
    (htotals : hasTotals l counted = true) : Serves s t counted l := by
  refine ⟨h, fun hcounted => ?_⟩
  subst hcounted
  simpa [hasTotals] using htotals

theorem sound_make (h : c.Sound s) (t : Term) (counted : Bool) :
    Serves s t counted (c.make s t counted).1.lookup ∧ (c.make s t counted).2.Sound s := by
  refine ⟨⟨TermLookup.faithful_ofSnapshot s t counted, fun hcounted => hcounted⟩, ?_⟩
  intro u l hl
  simp only [make, List.lookup_cons] at hl
  split at hl
  · next hu =>
    cases hl
    rw [beq_iff_eq.1 hu]
    exact TermLookup.faithful_ofSnapshot s t counted
  · exact h u l hl

theorem sound_get (h : c.Sound s) (t : Term) (counted : Bool) :
    Serves s t counted (c.get s t counted).1.lookup ∧ (c.get s t counted).2.Sound s := by
  rw [get]
  cases hfind : c.find? t counted with
  | none => exact sound_make h t counted
  | some l =>
    obtain ⟨hl, htotals⟩ := Option.filter_eq_some_iff.1 hfind
    exact ⟨serves_of_hasTotals (h t l hl) htotals, h⟩

/-- A term is resolved to a faithful lookup, with totals if they are needed. -/
theorem sound_resolve (h : c.Sound s) {t : Term} {carried : Option TermLookup}
    (hcarried : TermLookup.Honest s t carried) (counted : Bool) :
    Serves s t counted (c.resolve s t carried counted).1.2 ∧
      (c.resolve s t carried counted).2.Sound s := by
  rw [resolve]
  cases hfilter : carried.filter (fits s counted) with
  | none => exact sound_get h t counted
  | some l =>
    obtain ⟨hl, hfits⟩ := Option.filter_eq_some_iff.1 hfilter
    obtain ⟨hid, htotals⟩ := Bool.and_eq_true_iff.1 hfits
    exact ⟨serves_of_hasTotals (hcarried l hl (beq_iff_eq.1 hid)) htotals, h⟩

end LookupCache

end TextSearch
