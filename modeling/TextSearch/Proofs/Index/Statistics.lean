import TextSearch.Proofs.Index.Snapshots
import TextSearch.Search.Weighing

/-!
# Statistics of snapshots

The totals of fields and of terms are sums over the segments of a snapshot. They count
what its documents have, so that it does not matter how the documents are distributed
to segments. Main statement: `Snapshot.Holds.sameStatistics`.
-/

namespace TextSearch

open SegmentBuffer

theorem map_snd_additions (field : String) (docs : List Document) :
    (additions field docs).map (·.2) = docs.flatMap (·.tokensOf field) := by
  have hfirst : docs.flatMap (·.tokensOf field) =
      docs.zipIdx.flatMap fun d => d.1.tokensOf field := by
    conv_lhs => rw [← List.zipIdx_map_fst 0 docs]
    rw [List.flatMap_map]
  have hsecond : ∀ d : Document × Nat,
      ((d.1.tokensOf field).map (d.2, ·)).map (·.2) = d.1.tokensOf field := by
    intro d
    rw [List.map_map]
    exact List.map_id _
  rw [additions, List.map_flatMap, hfirst]
  simp only [hsecond]

/-- The number of documents that have a term, counted once for every list of tokens with it. -/
def docFreqIn (declared : Dictionary IndexOptions) (t : Term) (docs : List Document) : Nat :=
  ((docs.flatMap (·.tokensOf t.field)).filterMap fun tokens =>
    termPosting? (declaredOptions declared t.field) 0 tokens t.text).length

theorem docFreqIn_le (declared : Dictionary IndexOptions) (t : Term) {docs : List Document}
    (honce : ∀ doc ∈ docs, doc.NamesOnce) : docFreqIn declared t docs ≤ docs.length := by
  refine Nat.le_trans (List.length_filterMap_le ..) ?_
  induction docs with
  | nil => exact Nat.le_refl 0
  | cons doc docs ih =>
    obtain ⟨hdoc, hdocs⟩ := List.forall_mem_cons.1 honce
    have hone : (doc.tokensOf t.field).length ≤ 1 := by
      rw [hdoc.tokensOf]
      cases nonEmpty? (doc.tokens t.field) <;> simp
    rw [List.flatMap_cons, List.length_append, List.length_cons]
    have hrest := ih hdocs
    omega

namespace Segment.Holds

variable {declared : Dictionary IndexOptions} {docs : List Document} {g : Segment}

theorem length_postingsOf (h : g.Holds declared docs) (t : Term) :
    (g.postingsOf t).length = docFreqIn declared t docs := by
  have hnumber : ∀ a : Nat × List Token,
      termPosting? (declaredOptions declared t.field) a.1 a.2 t.text =
        (termPosting? (declaredOptions declared t.field) 0 a.2 t.text).map (Posting.under a.1) :=
    fun a => (map_under_termPosting? _ a.1 a.2 t.text).symm
  rw [h.postingsOf, docFreqIn, ← map_snd_additions, List.filterMap_map]
  induction additions t.field docs with
  | nil => rfl
  | cons a added ih =>
    rw [List.filterMap_cons, List.filterMap_cons, hnumber a, Function.comp]
    cases termPosting? (declaredOptions declared t.field) 0 a.2 t.text with
    | none => exact ih
    | some p => exact congrArg (· + 1) ih

/-- The entry of a term counts its postings. -/
theorem docFreq_entry? (h : g.Holds declared docs) (t : Term) :
    ((g.entry? t).map (·.docFreq)).getD 0 = docFreqIn declared t docs := by
  rw [← h.length_postingsOf, Segment.postingsOf, Segment.postings?, Segment.entry?]
  cases g.fields.get? t.field with
  | none => rfl
  | some f =>
    rw [Option.bind_some, Option.bind_some, FieldPostings.entry?]
    cases hps : f.terms.get? t.text with
    | none => rfl
    | some ps =>
      obtain ⟨i, hi, -⟩ := f.terms.indexOf?_of_get? hps
      rw [hi]
      rfl

end Segment.Holds

namespace SegmentsHold

variable {declared : Dictionary IndexOptions} {snapshot ord docBase : Nat}
  {parts : List (List Document)} {gs : List Segment}

/-- The fields of segments count what all of their documents have for the field. -/
theorem fields_eq (h : SegmentsHold declared snapshot ord docBase parts gs) (field : String) :
    let fs := gs.filterMap fun g => g.fields.get? field
    let added := parts.flatten.flatMap (·.tokensOf field)
    (fs = [] ↔ added = []) ∧ total (fs.map (·.docCount)) = added.length ∧
      total (fs.map (·.tokenCount)) = total (added.map List.length) := by
  induction h with
  | nil => exact ⟨by simp, rfl, rfl⟩
  | @cons ord docBase docs parts g gs hord hsnapshot hbase hholds hrest ih =>
    obtain ⟨hempty, hdocCount, htokenCount⟩ := ih
    have hadded := map_snd_additions field docs
    rw [List.flatten_cons, List.flatMap_append, ← hadded]
    rcases (hholds.fields field).cases with ⟨hf, hnone⟩ | ⟨f, hf, hne, hholds⟩
    · rw [List.filterMap_cons, hf, hnone, List.map_nil, List.nil_append]
      exact ⟨hempty, hdocCount, htokenCount⟩
    · rw [List.filterMap_cons, hf]
      refine ⟨by simp [hne], ?_, ?_⟩
      · rw [List.map_cons, total_cons, hdocCount, hholds.docCount, List.length_append,
          List.length_map]
      · rw [List.map_cons, total_cons, htokenCount, hholds.tokenCount, List.map_append,
          total_append, List.map_map]
        rfl

/-- The entries of a term in segments count the documents with the term. -/
theorem docFreq_eq (h : SegmentsHold declared snapshot ord docBase parts gs) (t : Term) :
    total ((gs.map fun g => g.entry? t).filterMap fun e => e.map (·.docFreq)) =
      docFreqIn declared t parts.flatten := by
  induction h with
  | nil => rfl
  | @cons ord docBase docs parts g gs hord hsnapshot hbase hholds hrest ih =>
    have hfirst := hholds.docFreq_entry? t
    have hsplit : docFreqIn declared t (docs :: parts).flatten =
        docFreqIn declared t docs + docFreqIn declared t parts.flatten := by
      rw [docFreqIn, List.flatten_cons, List.flatMap_append, List.filterMap_append,
        List.length_append]
      rfl
    rw [hsplit, ← hfirst, ← ih, List.map_cons, List.filterMap_cons]
    cases g.entry? t with
    | none => exact (Nat.zero_add _).symm
    | some => rfl

end SegmentsHold

namespace Snapshot

/-- Two snapshots count the same documents, fields and terms, as far as scores depend on them. -/
structure SameStatistics (s s' : Snapshot) : Prop where
  /-- The totals of fields. -/
  fields : ∀ field, (s.fieldStatistics? field).map (fun f => (f.maxDoc, f.docCount, f.tokenCount)) =
    (s'.fieldStatistics? field).map fun f => (f.maxDoc, f.docCount, f.tokenCount)
  /-- The totals of terms. -/
  terms : ∀ t, (TermLookup.totals? s t).map (·.docFreq) = (TermLookup.totals? s' t).map (·.docFreq)

namespace Holds

variable {declared : Dictionary IndexOptions} {parts parts' : List (List Document)}
  {s s' : Snapshot}

/-- The totals of a field count what all documents have for it. -/
theorem fieldStatistics?_eq (h : s.Holds declared parts) (field : String) :
    (s.fieldStatistics? field).map (fun f => (f.maxDoc, f.docCount, f.tokenCount)) =
      (nonEmpty? (parts.flatten.flatMap (·.tokensOf field))).map fun added =>
        (parts.flatten.length, added.length, total (added.map List.length)) := by
  obtain ⟨hempty, hdocCount, htokenCount⟩ := SegmentsHold.fields_eq h field
  have hmaxDoc := h.maxDoc_eq
  rw [fieldStatistics?]
  cases hfs : s.segments.filterMap fun g => g.fields.get? field with
  | nil =>
    rw [hempty.1 hfs]
    rfl
  | cons f fs =>
    rw [hfs] at hempty hdocCount htokenCount
    have hne : parts.flatten.flatMap (·.tokensOf field) ≠ [] := fun hnil => by
      have := hempty.2 hnil
      cases this
    rw [nonEmpty?_eq_some_iff.2 ⟨rfl, hne⟩, Option.map_some, Option.map_some, hdocCount,
      htokenCount, hmaxDoc]

/-- The totals of a term count the documents that have it. -/
theorem docFreq_totals? (h : s.Holds declared parts) (t : Term) :
    (TermLookup.totals? s t).map (·.docFreq) =
      if 0 < docFreqIn declared t parts.flatten then some (docFreqIn declared t parts.flatten)
      else none := by
  have hcount : (TermLookup.ofSnapshot s t true).docFreq = docFreqIn declared t parts.flatten :=
    SegmentsHold.docFreq_eq h t
  rw [TermLookup.totals?, TermLookup.statistics?, hcount]
  split <;> rfl

/-- A term occurs in no more documents than there are, if these name no field twice. -/
theorem docFreq_le_maxDoc (h : s.Holds declared parts)
    (honce : ∀ doc ∈ parts.flatten, doc.NamesOnce) {t : Term} {field : FieldStatistics}
    (hfield : s.fieldStatistics? t.field = some field) {term : TermStatistics}
    (hterm : TermLookup.totals? s t = some term) : term.docFreq ≤ field.maxDoc := by
  have hfields := h.fieldStatistics?_eq t.field
  have hterms := h.docFreq_totals? t
  rw [hfield] at hfields
  rw [hterm] at hterms
  obtain ⟨added, -, hmade⟩ := Option.map_eq_some_iff.1 hfields.symm
  obtain ⟨-, hdocFreq⟩ := Option.ite_none_right_eq_some.1 hterms.symm
  have hcount : docFreqIn declared t parts.flatten = term.docFreq := Option.some.inj hdocFreq
  have htotal : parts.flatten.length = field.maxDoc := congrArg Prod.fst hmade
  rw [← hcount, ← htotal]
  exact docFreqIn_le declared t honce

/-- Snapshots of the same documents have the same statistics, however these are distributed. -/
theorem sameStatistics (h : s.Holds declared parts) (h' : s'.Holds declared parts')
    (hsame : parts.flatten = parts'.flatten) : s.SameStatistics s' := by
  refine ⟨fun field => ?_, fun t => ?_⟩
  · rw [h.fieldStatistics?_eq, h'.fieldStatistics?_eq, hsame]
  · rw [h.docFreq_totals?, h'.docFreq_totals?, hsame]

end Holds

end Snapshot

end TextSearch
