import TextSearch.Proofs.Index.Lookup
import TextSearch.Proofs.Index.Runs

/-!
# The contents of segments

The postings of a segment that holds documents are those of its documents, in
their order. From this follow the facts that searching relies on: every posting
list can be walked, `Segment.Holds.sound`, and what a segment says about one of
its documents is what the document says itself, `Segment.Holds.view`.
-/

namespace TextSearch

open SegmentBuffer

/-- The same posting under another number. -/
def Posting.under (doc : Nat) (p : Posting) : Posting := { p with doc }

@[simp] theorem Posting.doc_under (doc : Nat) (p : Posting) : (p.under doc).doc = doc := rfl

namespace Segment

/-- The postings of a term; none if the segment lacks the term. -/
def postingsOf (g : Segment) (t : Term) : List Posting := (g.postings? t).getD []

/-- What a segment says about a term in a document, without the number of the document. -/
def view (g : Segment) (doc : Nat) (t : Term) : Option Posting :=
  ((g.postingsOf t).find? fun p => p.doc == doc).map (Posting.under 0)

end Segment

namespace SegmentBuffer

variable {options : IndexOptions} {doc : Nat} {tokens : List Token} {text : String} {p : Posting}

theorem under_posting (options : IndexOptions) (doc : Nat) (os : List Occurrence) :
    (posting options 0 os).under doc = posting options doc os := by
  cases options <;> rfl

/-- The number of a document has no part in what its posting says. -/
theorem map_under_termPosting? (options : IndexOptions) (doc : Nat) (tokens : List Token)
    (text : String) :
    (termPosting? options 0 tokens text).map (Posting.under doc) =
      termPosting? options doc tokens text := by
  rw [termPosting?, termPosting?, Option.map_map]
  exact congrArg (Option.map · _) (funext fun os => under_posting options doc os)

theorem doc_of_termPosting? (h : termPosting? options doc tokens text = some p) : p.doc = doc := by
  rw [← map_under_termPosting?] at h
  obtain ⟨p', _, rfl⟩ := Option.map_eq_some_iff.1 h
  rfl

/-- A posting stands for at least one occurrence. -/
theorem frequency_pos_of_termPosting? (h : termPosting? options doc tokens text = some p) :
    0 < p.frequency := by
  rw [termPosting?] at h
  obtain ⟨os, hos, rfl⟩ := Option.map_eq_some_iff.1 h
  obtain ⟨rfl, hne⟩ := nonEmpty?_eq_some_iff.1 hos
  have hpos := List.length_pos_iff.2 hne
  cases options with
  | documents => exact Nat.one_pos
  | frequencies => exact hpos
  | positions => exact Nat.lt_of_lt_of_eq hpos (List.length_mergeSort _).symm
  | payloads => exact Nat.lt_of_lt_of_eq hpos (List.length_mergeSort _).symm

/-- A term occurs at least as often as it occurs without a payload. -/
theorem bareCount_le_frequency_posting (options : IndexOptions) (doc : Nat) (os : List Occurrence) :
    (posting options doc os).bareCount ≤ (posting options doc os).frequency := by
  have hle : ∀ os : List Occurrence, (os.filter (·.hasEmptyPayload)).length ≤ os.length :=
    fun os => List.length_filter_le _ os
  cases options with
  | documents => exact Nat.zero_le _
  | frequencies => exact Nat.zero_le _
  | positions => exact hle _
  | payloads => exact hle _

/-- A posting of a field with positions has a place. -/
theorem occurrences_of_termPosting? (h : termPosting? options doc tokens text = some p)
    (hpositions : options.hasPositions = true) : p.occurrences.getD [] ≠ [] := by
  rw [termPosting?] at h
  obtain ⟨os, hos, rfl⟩ := Option.map_eq_some_iff.1 h
  obtain ⟨rfl, hne⟩ := nonEmpty?_eq_some_iff.1 hos
  have hlength : ∀ os : List Occurrence,
      (os.mergeSort fun a b => decide (a.position ≤ b.position)) = [] → os = [] := by
    intro os hnil
    rw [← List.length_eq_zero_iff, ← os.length_mergeSort, hnil]
    rfl
  cases options with
  | documents => cases hpositions
  | frequencies => cases hpositions
  | positions => exact fun hnil => hne (hlength _ hnil)
  | payloads => exact fun hnil => hne (hlength _ hnil)

/-- A posting of a field without payloads has none. -/
theorem payload_of_termPosting? (h : termPosting? options doc tokens text = some p)
    (hpayloads : options.hasPayloads = false) : ∀ o ∈ p.occurrences.getD [], o.payload = none := by
  rw [termPosting?] at h
  obtain ⟨os, hos, rfl⟩ := Option.map_eq_some_iff.1 h
  obtain ⟨rfl, -⟩ := nonEmpty?_eq_some_iff.1 hos
  have hkept : ∀ o ∈ occurrencesOf options tokens text, o.payload = none := by
    intro o ho
    obtain ⟨token, -, rfl⟩ := List.mem_map.1 ho
    rw [keep, hpayloads]
    rfl
  cases options with
  | documents => exact List.forall_mem_nil _
  | frequencies => exact List.forall_mem_nil _
  | positions => exact fun o ho => hkept o (List.mem_mergeSort.1 ho)
  | payloads => cases hpayloads

end SegmentBuffer

theorem mem_additions {field : String} {docs : List Document} {a : Nat × List Token} :
    a ∈ additions field docs ↔ ∃ doc, docs[a.1]? = some doc ∧ a.2 ∈ doc.tokensOf field := by
  obtain ⟨i, tokens⟩ := a
  rw [additions, List.mem_flatMap]
  constructor
  · rintro ⟨⟨doc, j⟩, hd, ha⟩
    obtain ⟨tokens', htokens, heq⟩ := List.mem_map.1 ha
    cases heq
    exact ⟨doc, List.mem_zipIdx_iff_getElem?.1 hd, htokens⟩
  · rintro ⟨doc, hdoc, htokens⟩
    exact ⟨(doc, i), List.mem_zipIdx_iff_getElem?.2 hdoc, List.mem_map.2 ⟨tokens, htokens, rfl⟩⟩

theorem pairwise_zipIdx {α : Type} (l : List α) (k : Nat) :
    (l.zipIdx k).Pairwise fun a b => a.2 < b.2 := by
  have hlt : ((l.zipIdx k).map (·.2)).Pairwise (· < ·) := by
    rw [List.zipIdx_map_snd]
    exact List.pairwise_lt_range'
  exact List.pairwise_map.1 hlt

/-- Documents are added in the order of their numbers. -/
theorem pairwise_additions (field : String) (docs : List Document) :
    (additions field docs).Pairwise fun a b => a.1 ≤ b.1 := by
  rw [additions, List.pairwise_flatMap]
  constructor
  · rintro ⟨doc, i⟩ -
    exact List.pairwise_map.2 (List.pairwise_of_forall fun _ _ => Nat.le_refl _)
  · refine (pairwise_zipIdx docs 0).imp fun hlt x hx y hy => ?_
    obtain ⟨_, _, rfl⟩ := List.mem_map.1 hx
    obtain ⟨_, _, rfl⟩ := List.mem_map.1 hy
    exact Nat.le_of_lt hlt

namespace Segment

variable {declared : Dictionary IndexOptions} {docs : List Document} {g : Segment}

/-- The postings of a term are those of what was added to its field. -/
theorem Holds.postings? (h : g.Holds declared docs) (t : Term) :
    g.postings? t = nonEmpty? ((additions t.field docs).filterMap fun a =>
      termPosting? (declaredOptions declared t.field) a.1 a.2 t.text) :=
  (h.fields t.field).get?_terms t.text

theorem Holds.postingsOf (h : g.Holds declared docs) (t : Term) :
    g.postingsOf t = (additions t.field docs).filterMap fun a =>
      termPosting? (declaredOptions declared t.field) a.1 a.2 t.text := by
  rw [Segment.postingsOf, h.postings?, getD_nonEmpty?]

/-- A posting is that of some list of tokens of its document. -/
theorem Holds.mem_postingsOf (h : g.Holds declared docs) {t : Term} {p : Posting} :
    p ∈ g.postingsOf t ↔ ∃ doc, docs[p.doc]? = some doc ∧ ∃ tokens ∈ doc.tokensOf t.field,
      termPosting? (declaredOptions declared t.field) p.doc tokens t.text = some p := by
  rw [h.postingsOf, List.mem_filterMap]
  constructor
  · rintro ⟨a, ha, hp⟩
    obtain ⟨doc, hdoc, htokens⟩ := mem_additions.1 ha
    rw [← doc_of_termPosting? hp] at hdoc hp
    exact ⟨doc, hdoc, a.2, htokens, hp⟩
  · rintro ⟨doc, hdoc, tokens, htokens, hp⟩
    exact ⟨(p.doc, tokens), mem_additions.2 ⟨doc, hdoc, htokens⟩, hp⟩

theorem Holds.frequency_pos (h : g.Holds declared docs) {t : Term} {p : Posting}
    (hp : p ∈ g.postingsOf t) : 0 < p.frequency := by
  obtain ⟨_, _, _, _, hposting⟩ := h.mem_postingsOf.1 hp
  exact frequency_pos_of_termPosting? hposting

/-- A term occurs in a document at least as often as it does so without a payload. -/
theorem Holds.bareCount_le_frequency (h : g.Holds declared docs) {t : Term} {p : Posting}
    (hp : p ∈ g.postingsOf t) : p.bareCount ≤ p.frequency := by
  obtain ⟨_, _, tokens, _, hposting⟩ := h.mem_postingsOf.1 hp
  obtain ⟨os, -, hmade⟩ := Option.map_eq_some_iff.1 hposting
  exact hmade ▸ bareCount_le_frequency_posting (declaredOptions declared t.field) p.doc os

/-- Fields that are declared without payloads keep none. -/
theorem Holds.payload_eq_none (h : g.Holds declared docs) {t : Term}
    (hpayloads : (declaredOptions declared t.field).hasPayloads = false) {p : Posting}
    (hp : p ∈ g.postingsOf t) : ∀ o ∈ p.occurrences.getD [], o.payload = none := by
  obtain ⟨_, _, _, _, hposting⟩ := h.mem_postingsOf.1 hp
  exact payload_of_termPosting? hposting hpayloads

theorem Holds.options? (h : g.Holds declared docs) {field : String} {options : IndexOptions}
    (hoptions : g.options? field = some options) : options = declaredOptions declared field := by
  obtain ⟨f, hf, rfl⟩ := Option.map_eq_some_iff.1 hoptions
  have hfield := h.fields field
  rw [hf] at hfield
  exact hfield.2.stored

/-- Every posting is one of a document of the segment. -/
theorem Holds.doc_lt_maxDoc (h : g.Holds declared docs) {t : Term} {p : Posting}
    (hp : p ∈ g.postingsOf t) : p.doc < g.maxDoc := by
  obtain ⟨doc, hdoc, -⟩ := h.mem_postingsOf.1 hp
  rw [h.maxDoc]
  exact (List.getElem?_eq_some_iff.1 hdoc).1

/-- The documents of a posting list never fall. -/
theorem Holds.ascending_postingsOf (h : g.Holds declared docs) (t : Term) :
    (g.postingsOf t).Pairwise fun p q => p.doc ≤ q.doc := by
  rw [h.postingsOf, List.pairwise_filterMap]
  refine (pairwise_additions t.field docs).imp fun hle p hp q hq => ?_
  rwa [doc_of_termPosting? hp, doc_of_termPosting? hq]

/-- The postings of a segment can be walked if its documents can be numbered. -/
theorem Holds.sound (h : g.Holds declared docs) (hcount : docs.length ≤ endOfDocs) :
    g.Sound := by
  have hof : ∀ {t ps}, g.postings? t = some ps → g.postingsOf t = ps := by
    intro t ps hps
    rw [Segment.postingsOf, hps, Option.getD_some]
  refine ⟨fun t ps hps => ?_, fun t ps hps hpositions p hp => ?_⟩
  · refine ⟨List.pairwise_map.2 (hof hps ▸ h.ascending_postingsOf t), fun v hv => ?_⟩
    obtain ⟨p, hp, rfl⟩ := List.mem_map.1 hv
    have hlt := h.doc_lt_maxDoc (hof hps ▸ hp)
    rw [h.maxDoc] at hlt
    exact Nat.lt_of_lt_of_le hlt hcount
  · obtain ⟨doc, -, tokens, -, hposting⟩ := h.mem_postingsOf.1 (hof hps ▸ hp)
    cases hoptions : g.options? t.field with
    | none => simp [hoptions] at hpositions
    | some options =>
      rw [hoptions, Option.any_some, h.options? hoptions] at hpositions
      exact occurrences_of_termPosting? hposting hpositions

end Segment

/-! ### Documents that name no field twice -/

namespace Document

/-- The tokens that a document has for a field. -/
def tokens (field : String) (doc : Document) : List Token := (doc.lookup field).getD []

/-- What a document says about a term: the posting that it gets, without its number. -/
def posting? (declared : Dictionary IndexOptions) (doc : Document) (t : Term) : Option Posting :=
  termPosting? (declaredOptions declared t.field) 0 (doc.tokens t.field) t.text

/-- A document that names no field twice has at most one list of tokens for a field. -/
theorem NamesOnce.tokensOf {doc : Document} (h : doc.NamesOnce) (field : String) :
    doc.tokensOf field = (nonEmpty? (doc.tokens field)).toList := by
  induction doc with
  | nil => rfl
  | cons f doc ih =>
    obtain ⟨key, tokens⟩ := f
    obtain ⟨hkey, hdoc⟩ := List.nodup_cons.1 h
    have hrest := ih hdoc
    by_cases heq : key = field
    · subst heq
      have hnone : Document.tokensOf key doc = [] := by
        rw [Document.tokensOf, List.map_eq_nil_iff, List.filter_eq_nil_iff]
        intro f hf
        have hne : f.1 ≠ key := fun h => hkey (List.mem_map.2 ⟨f, hf, h⟩)
        simp [hne]
      have hcons : Document.tokensOf key ((key, tokens) :: doc) =
          (nonEmpty? tokens).toList ++ Document.tokensOf key doc := by
        cases tokens <;> simp [Document.tokensOf]
      rw [hcons, hnone, List.append_nil, Document.tokens, List.lookup_cons_self]
      rfl
    · have hcons : Document.tokensOf field ((key, tokens) :: doc) =
          Document.tokensOf field doc := by
        simp [Document.tokensOf, heq]
      rw [hcons, hrest, Document.tokens, Document.tokens, List.lookup_cons,
        beq_eq_false_iff_ne.2 (Ne.symm heq)]

end Document

/-- The first of the values that numbered members give under their numbers. -/
theorem find?_filterMap_zipIdx (f : Document → Option Posting) (i : Nat) :
    ∀ (docs : List Document) (k : Nat),
      ((docs.zipIdx k).filterMap fun d => (f d.1).map (Posting.under d.2)).find?
          (fun p => p.doc == k + i) =
        (docs[i]?.bind f).map (Posting.under (k + i))
  | [], _ => by simp
  | doc :: docs, k => by
    rw [List.zipIdx_cons, List.filterMap_cons]
    cases i with
    | zero =>
      have hnone : ((docs.zipIdx (k + 1)).filterMap fun d =>
          (f d.1).map (Posting.under d.2)).find? (fun p => p.doc == k) = none := by
        rw [List.find?_eq_none]
        intro p hp
        obtain ⟨d, hd, hp⟩ := List.mem_filterMap.1 hp
        obtain ⟨p', -, rfl⟩ := Option.map_eq_some_iff.1 hp
        have hle := List.le_snd_of_mem_zipIdx hd
        simp only [Posting.doc_under, beq_iff_eq]
        omega
      cases hf : f doc with
      | none => simp [hf, hnone]
      | some p => simp [hf]
    | succ i =>
      have hrest := find?_filterMap_zipIdx f i docs (k + 1)
      rw [Nat.add_right_comm] at hrest
      cases hf : f doc with
      | none => simpa [hf, Nat.add_assoc] using hrest
      | some p =>
        have hne : (k == k + (i + 1)) = false := beq_eq_false_iff_ne.2 (by omega)
        simpa [hf, hne, Nat.add_assoc] using hrest

namespace Segment

variable {declared : Dictionary IndexOptions} {docs : List Document} {g : Segment}

/-- The postings of a segment whose documents name no field twice: what its documents say, each
under its number. -/
theorem Holds.postingsOf_once (h : g.Holds declared docs) (honce : ∀ doc ∈ docs, doc.NamesOnce)
    (t : Term) : g.postingsOf t =
      docs.zipIdx.filterMap fun d => (d.1.posting? declared t).map (Posting.under d.2) := by
  rw [h.postingsOf, additions, List.filterMap_flatMap, List.filterMap_eq_flatMap_toList]
  refine congrArg List.flatten (List.map_congr_left fun d hd => ?_)
  obtain ⟨doc, i⟩ := d
  have hdoc : doc ∈ docs := List.mem_of_getElem? (List.mem_zipIdx_iff_getElem?.1 hd)
  rw [(honce doc hdoc).tokensOf, Document.posting?, map_under_termPosting?]
  cases htokens : doc.tokens t.field with
  | nil => rfl
  | cons token tokens =>
    cases hp : termPosting? (declaredOptions declared t.field) i (token :: tokens) t.text <;>
      simp [hp]

/-- No document comes up twice in a posting list. -/
theorem Holds.pairwise_postingsOf (h : g.Holds declared docs)
    (honce : ∀ doc ∈ docs, doc.NamesOnce) (t : Term) :
    (g.postingsOf t).Pairwise fun p q => p.doc < q.doc := by
  rw [h.postingsOf_once honce, List.pairwise_filterMap]
  refine (pairwise_zipIdx docs 0).imp fun hlt p hp q hq => ?_
  obtain ⟨_, -, rfl⟩ := Option.map_eq_some_iff.1 hp
  obtain ⟨_, -, rfl⟩ := Option.map_eq_some_iff.1 hq
  exact hlt

/-- What a segment says about one of its documents is what the document says. -/
theorem Holds.view (h : g.Holds declared docs) (honce : ∀ doc ∈ docs, doc.NamesOnce) (i : Nat)
    (t : Term) : g.view i t = docs[i]?.bind (·.posting? declared t) := by
  have hfind := find?_filterMap_zipIdx (fun doc => doc.posting? declared t) i docs 0
  rw [Nat.zero_add] at hfind
  have hunder : ∀ doc : Document, (doc.posting? declared t).map (Posting.under 0) =
      doc.posting? declared t := fun doc => map_under_termPosting? _ 0 _ _
  rw [Segment.view, h.postingsOf_once honce, hfind, Option.map_map]
  cases docs[i]? with
  | none => rfl
  | some doc => exact hunder doc

end Segment

end TextSearch
