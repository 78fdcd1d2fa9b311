import TextSearch.Proofs.Index.Contents
import TextSearch.Search.Grounding

/-!
# The contents of snapshots

A snapshot that holds the parts of a list of documents numbers these documents
in their order, however they are split into parts. What its segments find is
found in all of them: `SegmentsHold.flatMap_eq`. The terms that are selected
from it are those of the documents: `Snapshot.Holds.mem_select`.
-/

namespace TextSearch

open SegmentBuffer

/-- The numbers of the documents that pass a test, counted from a base. -/
def idsWhere (test : Document → Bool) (base : Nat) (docs : List Document) : List Nat :=
  ((docs.zipIdx base).filter fun d => test d.1).map (·.2)

theorem idsWhere_append (test : Document → Bool) (base : Nat) (docs rest : List Document) :
    idsWhere test base (docs ++ rest) =
      idsWhere test base docs ++ idsWhere test (base + docs.length) rest := by
  rw [idsWhere, List.zipIdx_append, List.filter_append, List.map_append, idsWhere, idsWhere]

theorem pairwise_idsWhere (test : Document → Bool) (base : Nat) (docs : List Document) :
    (idsWhere test base docs).Pairwise (· < ·) :=
  List.pairwise_map.2 ((pairwise_zipIdx docs base).filter _)

/-- The documents are numbered from the base on. -/
theorem mem_idsWhere {test : Document → Bool} {docs : List Document} {i : Nat} :
    i ∈ idsWhere test 0 docs ↔ ∃ doc, docs[i]? = some doc ∧ test doc = true := by
  rw [idsWhere, List.mem_map]
  constructor
  · rintro ⟨⟨doc, j⟩, hd, rfl⟩
    obtain ⟨hd, htest⟩ := List.mem_filter.1 hd
    exact ⟨doc, List.mem_zipIdx_iff_getElem?.1 hd, htest⟩
  · rintro ⟨doc, hdoc, htest⟩
    exact ⟨(doc, i), List.mem_filter.2 ⟨List.mem_zipIdx_iff_getElem?.2 hdoc, htest⟩, rfl⟩

theorem zipIdx_eq_map {α : Type} (l : List α) (base : Nat) :
    l.zipIdx base = (l.zipIdx 0).map fun a => (a.1, base + a.2) := by
  have hmap := List.map_snd_add_zipIdx_eq_zipIdx (l := l) (n := base) (k := 0)
  rw [← Nat.add_zero base, ← hmap]
  refine List.map_congr_left fun a _ => ?_
  rw [Prod.map, Nat.add_comm]
  rfl

/-- Numbers counted from a base are numbers counted from zero, moved by the base. -/
theorem idsWhere_eq_map (test : Document → Bool) (base : Nat) (docs : List Document) :
    idsWhere test base docs = (idsWhere test 0 docs).map (base + ·) := by
  rw [idsWhere, idsWhere, zipIdx_eq_map, List.filter_map, List.map_map, List.map_map]
  rfl

namespace SegmentsHold

variable {declared : Dictionary IndexOptions} {snapshot ord docBase : Nat}
  {parts : List (List Document)} {gs : List Segment}

theorem ord_eq (h : SegmentsHold declared snapshot ord docBase parts gs) {i : Nat} {g : Segment}
    (hg : gs[i]? = some g) : g.ord = ord + i := by
  induction h generalizing i with
  | nil => cases hg
  | cons hord hsnapshot hbase hholds hrest ih =>
    cases i with
    | zero =>
      cases hg
      exact hord
    | succ i =>
      rw [ih hg]
      omega

theorem snapshot_eq (h : SegmentsHold declared snapshot ord docBase parts gs) :
    ∀ g ∈ gs, g.snapshot = snapshot := by
  induction h with
  | nil => simp
  | cons hord hsnapshot hbase hholds hrest ih => exact List.forall_mem_cons.2 ⟨hsnapshot, ih⟩

/-- Every segment holds one of the parts. -/
theorem exists_part (h : SegmentsHold declared snapshot ord docBase parts gs) :
    ∀ g ∈ gs, ∃ docs ∈ parts, g.Holds declared docs := by
  induction h with
  | nil => simp
  | cons hord hsnapshot hbase hholds hrest ih =>
    refine List.forall_mem_cons.2 ⟨⟨_, List.mem_cons_self .., hholds⟩, fun g hg => ?_⟩
    obtain ⟨docs, hdocs, hg⟩ := ih g hg
    exact ⟨docs, List.mem_cons_of_mem _ hdocs, hg⟩

/-- Every part is held by one of the segments. -/
theorem exists_segment (h : SegmentsHold declared snapshot ord docBase parts gs) :
    ∀ docs ∈ parts, ∃ g ∈ gs, g.Holds declared docs := by
  induction h with
  | nil => simp
  | cons hord hsnapshot hbase hholds hrest ih =>
    refine List.forall_mem_cons.2 ⟨⟨_, List.mem_cons_self .., hholds⟩, fun docs hdocs => ?_⟩
    obtain ⟨g, hg, hholds⟩ := ih docs hdocs
    exact ⟨g, List.mem_cons_of_mem _ hg, hholds⟩

/-- What is collected from segments, one after the other, is collected from all of their
documents. -/
theorem flatMap_eq {α : Type} (h : SegmentsHold declared snapshot ord docBase parts gs)
    {collect : Nat → List Document → List α} (hnil : ∀ base, collect base [] = [])
    (happend : ∀ base docs rest, collect base (docs ++ rest) =
      collect base docs ++ collect (base + docs.length) rest)
    {found : Segment → List α}
    (hfound : ∀ g ∈ gs, ∀ docs ∈ parts, g.Holds declared docs → found g = collect g.docBase docs) :
    gs.flatMap found = collect docBase parts.flatten := by
  induction h with
  | nil => exact (hnil _).symm
  | cons hord hsnapshot hbase hholds hrest ih =>
    have hfirst := hfound _ (List.mem_cons_self ..) _ (List.mem_cons_self ..) hholds
    have hothers := ih fun g hg docs hdocs =>
      hfound g (List.mem_cons_of_mem _ hg) docs (List.mem_cons_of_mem _ hdocs)
    rw [List.flatMap_cons, hfirst, hothers, hbase, List.flatten_cons, happend]

/-- A segment holds a stretch of all documents, which its base tells the place of. -/
theorem exists_stretch (h : SegmentsHold declared snapshot ord docBase parts gs) :
    ∀ g ∈ gs, ∃ before docs after, parts.flatten = before ++ docs ++ after ∧ docs ∈ parts ∧
      g.Holds declared docs ∧ g.docBase = docBase + before.length := by
  induction h with
  | nil => simp
  | @cons ord docBase first parts g gs hord hsnapshot hbase hholds hrest ih =>
    refine List.forall_mem_cons.2 ⟨⟨[], _, _, rfl, List.mem_cons_self .., hholds, hbase⟩, ?_⟩
    intro g hg
    obtain ⟨before, docs, after, hparts, hmem, hholds, hbase⟩ := ih g hg
    refine ⟨first ++ before, docs, after, ?_, List.mem_cons_of_mem _ hmem, hholds, ?_⟩
    · rw [List.flatten_cons, hparts, List.append_assoc, List.append_assoc, List.append_assoc]
    · rw [hbase, List.length_append]
      omega

theorem docBase_le (h : SegmentsHold declared snapshot ord docBase parts gs) :
    ∀ g ∈ gs, docBase ≤ g.docBase := by
  intro g hg
  obtain ⟨before, _, _, _, _, _, hbase⟩ := h.exists_stretch g hg
  omega

theorem maxDoc_eq (h : SegmentsHold declared snapshot ord docBase parts gs) :
    total (gs.map (·.maxDoc)) = parts.flatten.length := by
  induction h with
  | nil => rfl
  | cons hord hsnapshot hbase hholds hrest ih =>
    rw [List.map_cons, total_cons, ih, hholds.maxDoc, List.flatten_cons, List.length_append]

/-- Every number of a document is one of a segment, moved by its base. -/
theorem exists_number (h : SegmentsHold declared snapshot ord docBase parts gs) {doc : Nat}
    (hle : docBase ≤ doc) (hlt : doc < docBase + parts.flatten.length) :
    ∃ g ∈ gs, ∃ i < g.maxDoc, g.docBase + i = doc := by
  induction h with
  | nil =>
    rw [List.flatten_nil, List.length_nil] at hlt
    omega
  | @cons ord docBase docs parts g gs hord hsnapshot hbase hholds hrest ih =>
    rw [List.flatten_cons, List.length_append] at hlt
    by_cases hin : doc < docBase + docs.length
    · have hmax := hholds.maxDoc
      exact ⟨g, List.mem_cons_self .., doc - docBase, by omega, by omega⟩
    · obtain ⟨g', hg', i, hi, heq⟩ := ih (by omega) (by omega)
      exact ⟨g', List.mem_cons_of_mem _ hg', i, hi, heq⟩

/-- No other segment has a document under the same number. -/
theorem find?_number (h : SegmentsHold declared snapshot ord docBase parts gs) :
    ∀ g ∈ gs, ∀ i < g.maxDoc, gs.find? (fun g' => decide (g'.docBase ≤ g.docBase + i) &&
      decide (g.docBase + i < g'.docBase + g'.maxDoc)) = some g := by
  induction h with
  | nil => simp
  | @cons ord docBase docs parts first gs hord hsnapshot hbase hholds hrest ih =>
    refine List.forall_mem_cons.2 ⟨fun i hi => ?_, fun g hg i hi => ?_⟩
    · rw [List.find?_cons_of_pos]
      rw [Bool.and_eq_true, decide_eq_true_eq, decide_eq_true_eq]
      omega
    · have hle := hrest.docBase_le g hg
      have hmax := hholds.maxDoc
      rw [List.find?_cons_of_neg, ih g hg i hi]
      rw [Bool.and_eq_true, decide_eq_true_eq, decide_eq_true_eq]
      omega

end SegmentsHold

namespace Snapshot.Holds

variable {declared : Dictionary IndexOptions} {parts : List (List Document)} {s : Snapshot}

theorem numbered (h : s.Holds declared parts) : s.Numbered :=
  ⟨fun _ _ hg => (h.ord_eq hg).trans (Nat.zero_add _), h.snapshot_eq⟩

theorem length_le_of_mem {docs : List Document} (hdocs : docs ∈ parts) :
    docs.length ≤ parts.flatten.length := by
  induction parts with
  | nil => cases hdocs
  | cons first rest ih =>
    rw [List.flatten_cons, List.length_append]
    rcases List.mem_cons.1 hdocs with rfl | hdocs
    · omega
    · have := ih hdocs
      omega

/-- The segments of a snapshot can be walked if its documents can be numbered. -/
theorem sound (h : s.Holds declared parts) (hcount : parts.flatten.length ≤ endOfDocs) :
    ∀ g ∈ s.segments, g.Sound := by
  intro g hg
  obtain ⟨docs, hdocs, hholds⟩ := h.exists_part g hg
  exact hholds.sound (Nat.le_trans (length_le_of_mem hdocs) hcount)

theorem maxDoc_eq (h : s.Holds declared parts) : s.maxDoc = parts.flatten.length :=
  SegmentsHold.maxDoc_eq h

/-- A number of a segment, moved by its base, is located there. -/
theorem locate?_eq (h : s.Holds declared parts) {g : Segment} (hg : g ∈ s.segments) {i : Nat}
    (hi : i < g.maxDoc) : s.locate? (g.docBase + i) = some (g, i) := by
  rw [Snapshot.locate?, h.find?_number g hg i hi, Option.map_some, Nat.add_sub_cancel_left]

/-- Every document of a snapshot is located in one of its segments. -/
theorem exists_locate? (h : s.Holds declared parts) {doc : Nat} (hdoc : doc < s.maxDoc) :
    ∃ g ∈ s.segments, ∃ i < g.maxDoc, g.docBase + i = doc ∧ s.locate? doc = some (g, i) := by
  rw [h.maxDoc_eq] at hdoc
  obtain ⟨g, hg, i, hi, rfl⟩ := SegmentsHold.exists_number h (Nat.zero_le doc) (by omega)
  exact ⟨g, hg, i, hi, rfl, h.locate?_eq hg hi⟩

end Snapshot.Holds

/-! ### Selected terms -/

/-- A text is one of the terms of a field if it has postings there. -/
theorem Segment.mem_terms (g : Segment) {field text : String} :
    text ∈ g.terms field ↔ (g.postings? ⟨field, text⟩).isSome := by
  rw [Segment.terms, Segment.postings?]
  cases g.fields.get? field with
  | none => simp
  | some f => exact f.terms.mem_keys_iff text

theorem Segment.nodup_terms (g : Segment) (field : String) : (g.terms field).Nodup := by
  rw [Segment.terms]
  cases g.fields.get? field with
  | none => exact List.nodup_nil
  | some f => exact f.terms.nodup_keys

namespace Snapshot

/-- A text is selected if the selection accepts it and some segment has it. -/
theorem mem_keys_select {s : Snapshot} {m : MultiTerm} {text : String} :
    text ∈ (s.select m).keys ↔
      m.selects text = true ∧ ∃ g ∈ s.segments, (g.postings? ⟨m.field, text⟩).isSome := by
  rw [select, Dictionary.mem_keys_ofList, List.map_map, List.mem_map]
  constructor
  · rintro ⟨x, hx, rfl⟩
    obtain ⟨g, hg, hx⟩ := List.mem_flatMap.1 hx
    obtain ⟨hx, hselects⟩ := List.mem_filter.1 hx
    exact ⟨hselects, g, hg, g.mem_terms.1 hx⟩
  · rintro ⟨hselects, g, hg, hsome⟩
    refine ⟨text, List.mem_flatMap.2 ⟨g, hg, ?_⟩, rfl⟩
    exact List.mem_filter.2 ⟨g.mem_terms.2 hsome, hselects⟩

end Snapshot

/-- Whether a document has a text in a field. -/
def Document.HasText (field text : String) (doc : Document) : Prop :=
  ∃ tokens ∈ doc.tokensOf field, ∃ t ∈ tokens, t.text = text

theorem SegmentBuffer.isSome_termPosting?_iff {options : IndexOptions} {doc : Nat}
    {tokens : List Token} {text : String} :
    (termPosting? options doc tokens text).isSome ↔ ∃ t ∈ tokens, t.text = text := by
  rw [termPosting?, Option.isSome_map, Option.isSome_iff_ne_none, ne_eq,
    nonEmpty?_eq_none_iff, occurrencesOf, List.map_eq_nil_iff, List.filter_eq_nil_iff]
  simp

namespace Segment

variable {declared : Dictionary IndexOptions} {docs : List Document} {g : Segment}

/-- A segment has a term if some document of it has the term. -/
theorem Holds.isSome_postings?_iff (h : g.Holds declared docs) {t : Term} :
    (g.postings? t).isSome ↔ ∃ doc ∈ docs, doc.HasText t.field t.text := by
  rw [h.postings?, Option.isSome_iff_ne_none, ne_eq, nonEmpty?_eq_none_iff,
    List.filterMap_eq_nil_iff]
  push Not
  constructor
  · rintro ⟨a, ha, hne⟩
    obtain ⟨doc, hdoc, htokens⟩ := mem_additions.1 ha
    exact ⟨doc, List.mem_of_getElem? hdoc, a.2, htokens,
      isSome_termPosting?_iff.1 (Option.isSome_iff_ne_none.2 hne)⟩
  · rintro ⟨doc, hdoc, tokens, htokens, htext⟩
    obtain ⟨i, hi⟩ := List.getElem?_of_mem hdoc
    exact ⟨(i, tokens), mem_additions.2 ⟨doc, hi, htokens⟩,
      Option.isSome_iff_ne_none.1 (isSome_termPosting?_iff.2 htext)⟩

end Segment

/-- The texts that are selected from a snapshot are those of its documents. -/
theorem Snapshot.Holds.mem_select {declared : Dictionary IndexOptions}
    {parts : List (List Document)} {s : Snapshot} (h : s.Holds declared parts) {m : MultiTerm}
    {text : String} : text ∈ (s.select m).keys ↔
      m.selects text = true ∧ ∃ doc ∈ parts.flatten, doc.HasText m.field text := by
  rw [mem_keys_select]
  refine and_congr_right fun _ => ⟨?_, ?_⟩
  · rintro ⟨g, hg, hsome⟩
    obtain ⟨docs, hdocs, hholds⟩ := h.exists_part g hg
    obtain ⟨doc, hdoc, htext⟩ := hholds.isSome_postings?_iff.1 hsome
    exact ⟨doc, List.mem_flatten.2 ⟨docs, hdocs, hdoc⟩, htext⟩
  · rintro ⟨doc, hdoc, htext⟩
    obtain ⟨docs, hdocs, hdoc⟩ := List.mem_flatten.1 hdoc
    obtain ⟨g, hg, hholds⟩ := h.exists_segment docs hdocs
    exact ⟨g, hg, hholds.isSome_postings?_iff.2 ⟨doc, hdoc, htext⟩⟩

end TextSearch
