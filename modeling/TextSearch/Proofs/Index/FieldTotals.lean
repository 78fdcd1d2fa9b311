import Mathlib.Data.List.Dedup
import TextSearch.Proofs.Index.DistinctPostings

/-!
# Totals of fields

The totals of a field are kept apart from its postings: documents and tokens are counted while they
are added, postings when the totals are asked for. Where documents name no field twice the totals
are the sums of what the dictionaries say about the terms of the field:
`Snapshot.fieldStatistics_add_up`. One of them is not, where a field stores nothing but documents.
Its tokens are all counted, but a term occurs once in every document that has it.
-/

namespace TextSearch

open SegmentBuffer

theorem total_map_zero {α : Type} (l : List α) : total (l.map fun _ => 0) = 0 := by
  induction l with
  | nil => rfl
  | cons a l ih => rw [List.map_cons, total_cons, ih]

theorem total_map_add {α : Type} (f g : α → Nat) (l : List α) :
    total (l.map fun a => f a + g a) = total (l.map f) + total (l.map g) := by
  induction l with
  | nil => rfl
  | cons a l ih =>
    simp only [List.map_cons, total_cons, ih]
    omega

/-- Rows and columns have the same total. -/
theorem total_total_comm {α β : Type} (f : α → β → Nat) (as : List α) (bs : List β) :
    total (as.map fun a => total (bs.map fun b => f a b)) =
      total (bs.map fun b => total (as.map fun a => f a b)) := by
  induction as with
  | nil => exact (total_map_zero bs).symm
  | cons a as ih =>
    rw [List.map_cons, total_cons, ih, ← total_map_add]
    rfl

theorem total_map_filterMap {α β : Type} (f : α → Option β) (n : β → Nat) (l : List α) :
    total ((l.filterMap f).map n) = total (l.map fun a => (f a).elim 0 n) := by
  induction l with
  | nil => rfl
  | cons a l ih =>
    rw [List.filterMap_cons, List.map_cons, total_cons, ← ih]
    cases f a with
    | none => exact (Nat.zero_add _).symm
    | some b => rfl

theorem total_map_le {α : Type} {f g : α → Nat} {l : List α} (h : ∀ a ∈ l, f a ≤ g a) :
    total (l.map f) ≤ total (l.map g) := by
  induction l with
  | nil => exact Nat.le_refl 0
  | cons a l ih =>
    obtain ⟨ha, hl⟩ := List.forall_mem_cons.1 h
    exact Nat.add_le_add ha (ih hl)

/-- Totals of counts, none of which is greater, are the same if all counts are. -/
theorem total_map_eq_iff {α : Type} {f g : α → Nat} {l : List α} (h : ∀ a ∈ l, f a ≤ g a) :
    total (l.map f) = total (l.map g) ↔ ∀ a ∈ l, f a = g a := by
  induction l with
  | nil => simp
  | cons a l ih =>
    obtain ⟨ha, hl⟩ := List.forall_mem_cons.1 h
    have hle := total_map_le hl
    rw [List.map_cons, List.map_cons, total_cons, total_cons, List.forall_mem_cons, ← ih hl]
    omega

theorem total_ite_eq (keys : List String) (x : String) :
    total (keys.map fun key => if x = key then 1 else 0) = keys.count x := by
  induction keys with
  | nil => rfl
  | cons key keys ih =>
    rw [List.map_cons, total_cons, ih, List.count_cons, Nat.add_comm]
    simp only [beq_iff_eq, eq_comm (a := key)]

/-- Every member of a list is counted once under its own name. -/
theorem total_count {keys l : List String} (hkeys : keys.Nodup) (hl : ∀ x ∈ l, x ∈ keys) :
    total (keys.map fun key => l.count key) = l.length := by
  induction l with
  | nil => exact total_map_zero keys
  | cons x l ih =>
    obtain ⟨hx, hl⟩ := List.forall_mem_cons.1 hl
    have hone := (total_ite_eq keys x).trans (List.count_eq_one_of_mem hkeys hx)
    simp only [List.count_cons, beq_iff_eq]
    rw [total_map_add, ih hl, hone, List.length_cons]

theorem Document.ne_nil_of_mem_tokensOf {doc : Document} {field : String} {tokens : List Token}
    (h : tokens ∈ doc.tokensOf field) : tokens ≠ [] := by
  obtain ⟨f, hf, rfl⟩ := List.mem_map.1 h
  have hfilled := (Bool.and_eq_true_iff.1 (List.mem_filter.1 hf).2).2
  simpa using hfilled

/-! ### What dictionaries say about a field -/

namespace Segment

/-- What a segment says about the terms of a field. -/
def entries (g : Segment) (field : String) : List TermEntry :=
  (g.terms field).filterMap fun text => g.entry? ⟨field, text⟩

/-- The documents of a segment that have a posting in a field. -/
def docsIn (g : Segment) (field : String) : List Nat :=
  (List.range g.maxDoc).filter fun d => (g.terms field).any fun text =>
    (g.postingsOf ⟨field, text⟩).any fun p => p.doc == d

/-- An entry tells the length of a posting list and the sum of its frequencies. -/
theorem map_entries (g : Segment) (field : String) :
    (g.entries field).map (fun e => (e.docFreq, e.totalFreq)) =
      (g.fields.get? field).elim [] fun f =>
        f.terms.entries.map fun e => (e.2.length, total (e.2.map (·.frequency))) := by
  rw [entries, terms]
  cases hf : g.fields.get? field with
  | none => rfl
  | some f =>
    have hentry : ∀ text, g.entry? ⟨field, text⟩ = f.entry? text := fun text => by
      rw [Segment.entry?, hf, Option.bind_some]
    simp only [hentry, Option.elim_some]
    rw [Dictionary.keys, List.filterMap_map, List.map_filterMap,
      List.filterMap_eq_map_iff_forall_eq_some]
    intro e he
    have hget := f.terms.get?_of_mem he
    obtain ⟨ordinal, hordinal, -⟩ := f.terms.indexOf?_of_get? hget
    simp only [Function.comp, FieldPostings.entry?, hget, hordinal]
    rfl

end Segment

/-! ### What a field keeps of tokens -/

namespace SegmentBuffer

/-- The texts of those tokens that a field tells apart: a field that stores nothing but documents
has each text once. -/
def keptTexts (options : IndexOptions) (tokens : List Token) : List String :=
  if options = .documents then (tokens.map (·.text)).dedup else tokens.map (·.text)

variable {options : IndexOptions} {tokens : List Token} {text : String}

theorem mem_keptTexts : text ∈ keptTexts options tokens ↔ HasToken text tokens := by
  rw [keptTexts, HasToken, ← List.mem_map]
  split
  · exact List.mem_dedup
  · rfl

theorem length_keptTexts_le (options : IndexOptions) (tokens : List Token) :
    (keptTexts options tokens).length ≤ tokens.length := by
  have hlength : (tokens.map (·.text)).length = tokens.length := List.length_map _
  rw [keptTexts, ← hlength]
  split
  · exact (List.dedup_sublist _).length_le
  · exact Nat.le_refl _

/-- Every token is kept, unless the field stores nothing but documents and a text repeats. -/
theorem length_keptTexts_eq_iff : (keptTexts options tokens).length = tokens.length ↔
    options ≠ .documents ∨ (tokens.map (·.text)).Nodup := by
  have hlength : (tokens.map (·.text)).length = tokens.length := List.length_map _
  rw [keptTexts, ← hlength]
  by_cases hoptions : options = .documents
  · rw [if_pos hoptions, ← List.dedup_eq_self]
    have hsub := List.dedup_sublist (tokens.map (·.text))
    exact ⟨fun hlength => .inr (hsub.eq_of_length hlength),
      fun h => congrArg List.length (h.resolve_left (not_not.2 hoptions))⟩
  · rw [if_neg hoptions]
    exact iff_of_true rfl (.inl hoptions)

/-- A posting stands for as many occurrences of its text as were kept. -/
theorem frequency_termPosting? (options : IndexOptions) (doc : Nat) (tokens : List Token)
    (text : String) : ((termPosting? options doc tokens text).map (·.frequency)).getD 0 =
      (keptTexts options tokens).count text := by
  have hcount : (occurrencesOf options tokens text).length = (tokens.map (·.text)).count text := by
    rw [occurrencesOf, List.length_map, List.count_eq_countP, List.countP_map,
      List.countP_eq_length_filter]
    rfl
  have hmem : occurrencesOf options tokens text = [] ↔ text ∉ tokens.map (·.text) := by
    rw [← List.length_eq_zero_iff, hcount, List.count_eq_zero]
  rw [termPosting?, keptTexts]
  cases hos : occurrencesOf options tokens text with
  | nil =>
    have hnot := hmem.1 hos
    rw [nonEmpty?_nil]
    split
    · rw [List.count_eq_zero.2 fun h => hnot (List.mem_dedup.1 h)]
      rfl
    · rw [List.count_eq_zero.2 hnot]
      rfl
  | cons o os =>
    have hsome : text ∈ tokens.map (·.text) := by
      by_contra hnot
      rw [hmem.2 hnot] at hos
      cases hos
    rw [hos] at hcount
    rw [nonEmpty?_cons, Option.map_some, Option.map_some, Option.getD_some]
    cases options with
    | documents =>
      rw [if_pos rfl, List.count_dedup, if_pos hsome]
      rfl
    | frequencies => exact hcount
    | positions => exact (List.length_mergeSort _).trans hcount
    | payloads => exact (List.length_mergeSort _).trans hcount

end SegmentBuffer

namespace FieldPostings.Holds

variable {options : IndexOptions} {added : List (Nat × List Token)} {f : FieldPostings}

theorem mem_keys (h : f.Holds options added) {text : String} :
    text ∈ f.terms.keys ↔ ∃ a ∈ added, HasToken text a.2 := by
  rw [Dictionary.mem_keys_iff, h.terms, Option.isSome_iff_ne_none, ne_eq, nonEmpty?_eq_none_iff,
    List.filterMap_eq_nil_iff]
  push Not
  exact exists_congr fun a => and_congr_right fun _ =>
    Option.isSome_iff_ne_none.symm.trans isSome_termPosting?_iff

/-- The frequencies of the postings of a text, and how often it was kept. -/
theorem total_frequency (h : f.Holds options added) {e : String × List Posting}
    (he : e ∈ f.terms.entries) : total (e.2.map (·.frequency)) =
      total (added.map fun a => (keptTexts options a.2).count e.1) := by
  have hget := h.terms e.1
  rw [f.terms.get?_of_mem he] at hget
  obtain ⟨hpostings, -⟩ := nonEmpty?_eq_some_iff.1 hget.symm
  rw [← hpostings]
  clear he hget hpostings h
  induction added with
  | nil => rfl
  | cons a added ih =>
    rw [List.filterMap_cons, List.map_cons, total_cons, ← ih, ← frequency_termPosting? options a.1]
    cases termPosting? options a.1 a.2 e.1 with
    | none => exact (Nat.zero_add _).symm
    | some p => rfl

/-- The frequencies of all terms add up to what was kept of the tokens. -/
theorem total_frequencies (h : f.Holds options added) :
    total (f.terms.entries.map fun e => total (e.2.map (·.frequency))) =
      total (added.map fun a => (keptTexts options a.2).length) := by
  have hkeys : f.terms.entries.map (fun e => total (e.2.map (·.frequency))) =
      f.terms.keys.map fun key => total (added.map fun a => (keptTexts options a.2).count key) := by
    rw [Dictionary.keys, List.map_map]
    exact List.map_congr_left fun e he => h.total_frequency he
  rw [hkeys, total_total_comm]
  refine congrArg total (List.map_congr_left fun a ha => total_count f.terms.nodup_keys ?_)
  exact fun text htext => h.mem_keys.2 ⟨a, ha, mem_keptTexts.1 htext⟩

end FieldPostings.Holds

/-! ### Segments -/

namespace Segment

theorem total_docFreq_entries (g : Segment) (field : String) :
    total ((g.entries field).map (·.docFreq)) =
      (g.fields.get? field).elim 0 (·.postingCount) := by
  have hentries := congrArg (List.map Prod.fst) (g.map_entries field)
  rw [List.map_map] at hentries
  refine (congrArg total hentries).trans ?_
  cases g.fields.get? field with
  | none => rfl
  | some f =>
    rw [Option.elim_some, Option.elim_some, FieldPostings.postingCount, List.map_map]
    rfl

namespace Holds

variable {declared : Dictionary IndexOptions} {docs : List Document} {g : Segment}

theorem total_totalFreq_entries (h : g.Holds declared docs) (field : String) :
    total ((g.entries field).map (·.totalFreq)) = total ((additions field docs).map fun a =>
      (keptTexts (declaredOptions declared field) a.2).length) := by
  have hentries := congrArg (List.map Prod.snd) (g.map_entries field)
  rw [List.map_map] at hentries
  refine (congrArg total hentries).trans ?_
  rcases (h.fields field).cases with ⟨hf, hnone⟩ | ⟨f, hf, -, hholds⟩
  · rw [hf, hnone]
    rfl
  · rw [hf, Option.elim_some, List.map_map]
    exact hholds.total_frequencies

/-- A document has a posting in a field if it has a list of tokens for it. -/
theorem mem_docsIn (h : g.Holds declared docs) {field : String} {d : Nat} :
    d ∈ g.docsIn field ↔ d ∈ (additions field docs).map (·.1) := by
  rw [docsIn, List.mem_filter, List.mem_range, List.any_eq_true, List.mem_map]
  constructor
  · rintro ⟨-, text, -, hany⟩
    obtain ⟨p, hp, hdoc⟩ := List.any_eq_true.1 hany
    obtain ⟨doc, hget, tokens, htokens, -⟩ := h.mem_postingsOf.1 hp
    exact ⟨(p.doc, tokens), mem_additions.2 ⟨doc, hget, htokens⟩, beq_iff_eq.1 hdoc⟩
  · rintro ⟨a, ha, rfl⟩
    obtain ⟨doc, hget, htokens⟩ := mem_additions.1 ha
    obtain ⟨t, ht⟩ := List.exists_mem_of_ne_nil a.2 (Document.ne_nil_of_mem_tokensOf htokens)
    have hsome : (termPosting? (declaredOptions declared field) a.1 a.2 t.text).isSome :=
      isSome_termPosting?_iff.2 ⟨t, ht, rfl⟩
    obtain ⟨p, hp⟩ := Option.isSome_iff_exists.1 hsome
    have hdoc := doc_of_termPosting? hp
    have hmem : p ∈ g.postingsOf ⟨field, t.text⟩ := by
      rw [h.mem_postingsOf, hdoc]
      exact ⟨doc, hget, a.2, htokens, hp⟩
    refine ⟨hdoc ▸ h.doc_lt_maxDoc hmem, t.text, g.mem_terms.2 ?_, ?_⟩
    · rw [h.isSome_postings?_iff]
      exact ⟨doc, List.mem_of_getElem? hget, a.2, htokens, t, ht, rfl⟩
    · exact List.any_eq_true.2 ⟨p, hmem, beq_iff_eq.2 hdoc⟩

/-- The documents with a posting in a field, where none names the field twice. -/
theorem length_docsIn (h : g.Holds declared docs) (honce : ∀ doc ∈ docs, doc.NamesOnce)
    (field : String) : (g.docsIn field).length = (g.fields.get? field).elim 0 (·.docCount) := by
  have hsingle : ∀ doc ∈ docs, (doc.tokensOf field).Pairwise fun _ _ => ¬ True := by
    intro doc hdoc
    rw [(honce doc hdoc).tokensOf]
    cases nonEmpty? (doc.tokens field) <;> simp
  have hascending := pairwise_additions_iff.2 hsingle
  have hnodup : ((additions field docs).map (·.1)).Nodup :=
    List.pairwise_map.2 (hascending.imp fun {a b} hlt (heq : a.1 = b.1) =>
      Nat.ne_of_lt (hlt trivial) heq)
  have hperm : (g.docsIn field).Perm ((additions field docs).map (·.1)) :=
    (List.perm_ext_iff_of_nodup (List.nodup_range.filter _) hnodup).2 fun _ => h.mem_docsIn
  rw [hperm.length_eq, List.length_map]
  rcases (h.fields field).cases with ⟨hf, hnone⟩ | ⟨f, hf, -, hholds⟩
  · rw [hf, hnone]
    rfl
  · rw [hf]
    exact hholds.docCount.symm

end Holds

end Segment

/-! ### Snapshots -/

/-- What was kept of tokens adds up over segments. -/
theorem SegmentsHold.total_totalFreq_entries {declared : Dictionary IndexOptions}
    {snapshot ord docBase : Nat} {parts : List (List Document)} {gs : List Segment}
    (h : SegmentsHold declared snapshot ord docBase parts gs) (field : String) :
    total ((gs.flatMap (·.entries field)).map (·.totalFreq)) =
      total ((parts.flatten.flatMap (·.tokensOf field)).map fun tokens =>
        (keptTexts (declaredOptions declared field) tokens).length) := by
  induction h with
  | nil => rfl
  | @cons ord docBase docs parts g gs hord hsnapshot hbase hholds hrest ih =>
    rw [List.flatMap_cons, List.map_append, total_append, ih, hholds.total_totalFreq_entries,
      List.flatten_cons, List.flatMap_append, List.map_append, total_append,
      ← map_snd_additions field docs, List.map_map]
    rfl

namespace Snapshot

/-- What the segments of a snapshot say about the terms of a field. -/
def entries (s : Snapshot) (field : String) : List TermEntry :=
  s.segments.flatMap (·.entries field)

/-- The totals of a field are those of its segments, which count nothing where they lack it. -/
theorem of_fieldStatistics? {s : Snapshot} {field : String} {st : FieldStatistics}
    (h : s.fieldStatistics? field = some st) :
    st.docCount = total (s.segments.map fun g => (g.fields.get? field).elim 0 (·.docCount)) ∧
      st.postingCount =
        total (s.segments.map fun g => (g.fields.get? field).elim 0 (·.postingCount)) := by
  simp only [← total_map_filterMap]
  rw [fieldStatistics?] at h
  generalize (s.segments.filterMap fun g => g.fields.get? field) = fs at h
  cases fs with
  | nil => cases h
  | cons f fs =>
    cases h
    exact ⟨rfl, rfl⟩

/-- The postings of a field are those that its terms have in all segments. -/
theorem total_docFreq_entries (s : Snapshot) (field : String) :
    total ((s.entries field).map (·.docFreq)) =
      total (s.segments.map fun g => (g.fields.get? field).elim 0 (·.postingCount)) := by
  simp only [← Segment.total_docFreq_entries]
  rw [entries]
  induction s.segments with
  | nil => rfl
  | cons g gs ih => rw [List.flatMap_cons, List.map_append, total_append, ih]; rfl

end Snapshot

/-- Documents that name no field twice have at most one list of tokens for it. -/
theorem total_tokensOf {docs : List Document} (honce : ∀ doc ∈ docs, doc.NamesOnce)
    (field : String) {n : List Token → Nat} (hnil : n [] = 0) :
    total ((docs.flatMap (·.tokensOf field)).map n) =
      total (docs.map fun doc => n (doc.tokens field)) := by
  induction docs with
  | nil => rfl
  | cons doc docs ih =>
    obtain ⟨hdoc, hdocs⟩ := List.forall_mem_cons.1 honce
    rw [List.flatMap_cons, hdoc.tokensOf, List.map_append, total_append, ih hdocs, List.map_cons,
      total_cons]
    cases doc.tokens field with
    | nil => rw [hnil]; rfl
    | cons t tokens => rfl

/-- The totals of a field are sums over what the dictionaries of a snapshot say about its terms. -/
structure FieldStatistics.AddUp (s : Snapshot) (docs : List Document) (options : IndexOptions)
    (st : FieldStatistics) : Prop where
  /-- The documents that were added. -/
  maxDoc : st.maxDoc = docs.length
  /-- The documents that have a posting in the field. -/
  docCount : st.docCount = total (s.segments.map fun g => (g.docsIn st.field).length)
  /-- The postings of all terms. -/
  postingCount : st.postingCount = total ((s.entries st.field).map (·.docFreq))
  /-- The tokens of all documents. -/
  tokenCount : st.tokenCount = total (docs.map fun doc => (doc.tokens st.field).length)
  /-- No term occurs more often than the tokens say. -/
  totalFreq_le : total ((s.entries st.field).map (·.totalFreq)) ≤ st.tokenCount
  /-- All terms together occur as often as the tokens say, unless occurrences are not stored and
  some document repeats a text. -/
  totalFreq_eq_iff : st.tokenCount = total ((s.entries st.field).map (·.totalFreq)) ↔
    options ≠ .documents ∨ ∀ doc ∈ docs, ((doc.tokens st.field).map (·.text)).Nodup

namespace Snapshot

/-- The totals of a field over a snapshot that holds documents, which name no field twice. -/
theorem Holds.addUp {declared : Dictionary IndexOptions} {parts : List (List Document)}
    {s : Snapshot} (h : s.Holds declared parts) (honce : ∀ doc ∈ parts.flatten, doc.NamesOnce)
    {field : String} {st : FieldStatistics} (hst : s.fieldStatistics? field = some st) :
    st.field = field ∧ st.AddUp s parts.flatten (declaredOptions declared field) := by
  have hfield : st.field = field := by
    rw [fieldStatistics?] at hst
    split at hst
    · cases hst
    · cases hst
      rfl
  have htotals := h.fieldStatistics?_eq field
  rw [hst, Option.map_some] at htotals
  obtain ⟨added, hadded, hmade⟩ := Option.map_eq_some_iff.1 htotals.symm
  obtain ⟨hadded, -⟩ := nonEmpty?_eq_some_iff.1 hadded
  simp only [Prod.mk.injEq] at hmade
  obtain ⟨hmaxDoc, -, htokenCount⟩ := hmade
  obtain ⟨hdocCount, hpostingCount⟩ := of_fieldStatistics? hst
  have htokens : st.tokenCount =
      total (parts.flatten.map fun doc => (doc.tokens field).length) := by
    rw [← htokenCount, ← hadded]
    exact total_tokensOf honce field rfl
  have hkept : total ((s.entries field).map (·.totalFreq)) = total (parts.flatten.map fun doc =>
      (keptTexts (declaredOptions declared field) (doc.tokens field)).length) := by
    rw [entries, SegmentsHold.total_totalFreq_entries h]
    refine total_tokensOf honce field (n := fun tokens => (keptTexts _ tokens).length) ?_
    exact Nat.le_zero.1 (length_keptTexts_le _ [])
  have hle : ∀ doc ∈ parts.flatten,
      (keptTexts (declaredOptions declared field) (doc.tokens field)).length ≤
        (doc.tokens field).length := fun doc _ => length_keptTexts_le _ _
  subst hfield
  refine ⟨rfl, hmaxDoc.symm, ?_, hpostingCount.trans (s.total_docFreq_entries _).symm, htokens, ?_,
    ?_⟩
  · rw [hdocCount]
    refine congrArg total (List.map_congr_left fun g hg => ?_)
    obtain ⟨docs, hdocs, hholds⟩ := h.exists_part g hg
    exact (hholds.length_docsIn (fun doc hdoc => honce doc (List.mem_flatten_of_mem hdocs hdoc))
      _).symm
  · rw [htokens, hkept]
    exact total_map_le hle
  · rw [htokens, hkept, eq_comm, total_map_eq_iff hle]
    simp only [length_keptTexts_eq_iff, forall_or_left]

open IndexBuilder (accepted)

/-- Whatever the order in which an index was built, a field for which some accepted document has
tokens has totals, and these add up if no accepted document names a field twice. -/
theorem fieldStatistics_add_up (fields : List (String × IndexOptions)) (steps : List BuilderStep)
    (id : Nat) (honce : ∀ doc ∈ accepted (.ofList fields) steps, doc.NamesOnce) {field : String}
    (htokens : ∃ doc ∈ accepted (.ofList fields) steps, doc.tokens field ≠ []) :
    ∃ st, (Snapshot.ofSteps fields steps id).fieldStatistics? field = some st ∧ st.field = field ∧
      st.AddUp (.ofSteps fields steps id) (accepted (.ofList fields) steps)
        (declaredOptions (.ofList fields) field) := by
  have hholds := IndexBuilder.holds_build fields steps id
  rw [← IndexBuilder.flatten_ofSteps] at honce htokens ⊢
  obtain ⟨doc, hdoc, hne⟩ := htokens
  have hmem : doc.tokens field ∈
      (IndexBuilder.Parts.ofSteps (.ofList fields) steps).all.flatten.flatMap
        (·.tokensOf field) := by
    refine List.mem_flatMap.2 ⟨doc, hdoc, ?_⟩
    rw [(honce doc hdoc).tokensOf, nonEmpty?_eq_some_iff.2 ⟨rfl, hne⟩]
    exact List.mem_singleton_self _
  have htotals := hholds.fieldStatistics?_eq field
  rw [nonEmpty?_eq_some_iff.2 ⟨rfl, List.ne_nil_of_mem hmem⟩, Option.map_some] at htotals
  obtain ⟨st, hst, -⟩ := Option.map_eq_some_iff.1 htotals
  exact ⟨st, hst, hholds.addUp honce hst⟩

/-- A field with frequencies over two segments, where one document repeats a text and another one
has no tokens. -/
theorem fieldStatistics_add_up_frequencies :
    let fields : List (String × IndexOptions) := [("body", .frequencies)]
    let steps : List BuilderStep :=
      [.add [("body", [⟨"a", 0, none⟩, ⟨"b", 1, none⟩, ⟨"a", 2, none⟩])], .add [("body", [])],
        .commit, .add [("body", [⟨"b", 0, none⟩])]]
    (∀ doc ∈ accepted (.ofList fields) steps, doc.NamesOnce) ∧
      (∃ doc ∈ accepted (.ofList fields) steps, doc.tokens "body" ≠ []) ∧
      ∃ st, (Snapshot.ofSteps fields steps 0).fieldStatistics? "body" = some st ∧
        st.field = "body" ∧ st.AddUp (.ofSteps fields steps 0) (accepted (.ofList fields) steps)
          (declaredOptions (.ofList fields) "body") := by
  intro fields steps
  have honce : ∀ doc ∈ accepted (.ofList fields) steps, doc.NamesOnce := by decide +kernel
  have htokens : ∃ doc ∈ accepted (.ofList fields) steps, doc.tokens "body" ≠ [] := by
    decide +kernel
  exact ⟨honce, htokens, fieldStatistics_add_up fields steps 0 honce htokens⟩

/-- A document that repeats a text in a field that stores nothing but documents has two tokens
counted, where its one term occurs once. -/
theorem fieldStatistics_add_up_not_documents :
    let s : Snapshot := .ofSteps [("body", .documents)]
      [.add [("body", [⟨"a", 0, none⟩, ⟨"a", 1, none⟩])]] 0
    s.fieldStatistics? "body" = some ⟨"body", 1, 1, 2, 1⟩ ∧
      (s.entries "body").map (·.totalFreq) = [1] := by
  decide +kernel

end Snapshot

end TextSearch
