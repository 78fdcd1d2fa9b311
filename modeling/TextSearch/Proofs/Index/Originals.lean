import TextSearch.Proofs.Index.Snapshots

/-!
# Indexes without injected tokens

A token is injected if its field keeps bytes that analysis attached to it. The
originals of documents lack the injected tokens of chosen fields, and an index of the
originals is built in the same steps. How often a term occurs in an original is how
often it occurs without a payload in the document: `Segment.exists_posting_original`.
-/

namespace TextSearch

open SegmentBuffer

/-- Whether a field keeps bytes that are attached to a token. -/
def Token.isInjected (options : IndexOptions) (t : Token) : Bool := !(keep options t).hasEmptyPayload

namespace Document

/-- What the original of a document has in a field. -/
def originalTokens (declared : Dictionary IndexOptions) (chosen : String → Bool) (field : String)
    (tokens : List Token) : List Token :=
  if chosen field then tokens.filter fun t => !t.isInjected (declaredOptions declared field)
  else tokens

/-- A document without the injected tokens of chosen fields. -/
def original (declared : Dictionary IndexOptions) (chosen : String → Bool) (doc : Document) :
    Document := doc.map fun f => (f.1, originalTokens declared chosen f.1 f.2)

end Document

/-- A step in building an index of originals. -/
def BuilderStep.original (declared : Dictionary IndexOptions) (chosen : String → Bool) :
    BuilderStep → BuilderStep
  | .add doc => .add (doc.original declared chosen)
  | .commit => .commit

variable {declared : Dictionary IndexOptions} {chosen : String → Bool}

namespace IndexBuilder

theorem accepts_original (declared : Dictionary IndexOptions) (chosen : String → Bool)
    (doc : Document) : accepts declared (doc.original declared chosen) = accepts declared doc := by
  rw [accepts, Document.original, List.all_map]
  rfl

/-- The parts of an index of originals are the originals of the parts. -/
theorem all_ofSteps_original (declared : Dictionary IndexOptions) (chosen : String → Bool)
    (steps : List BuilderStep) :
    (Parts.ofSteps declared (steps.map (·.original declared chosen))).all =
      (Parts.ofSteps declared steps).all.map (List.map (·.original declared chosen)) := by
  let originals : Parts → Parts := fun p =>
    ⟨p.closed.map (List.map (·.original declared chosen)),
      p.current.map (·.original declared chosen)⟩
  have hstep : ∀ (p : Parts) (s : BuilderStep),
      Parts.step declared (originals p) (s.original declared chosen) =
        originals (Parts.step declared p s) := by
    intro p s
    cases s with
    | add doc =>
      rw [BuilderStep.original, Parts.step, Parts.step, accepts_original]
      split <;> simp [originals]
    | commit =>
      rw [BuilderStep.original, Parts.step, Parts.step]
      by_cases hempty : p.current = []
      · simp [originals, hempty]
      · simp [originals, hempty]
  have hfold : ∀ (steps : List BuilderStep) (p : Parts),
      (steps.map (·.original declared chosen)).foldl (Parts.step declared) (originals p) =
        originals (steps.foldl (Parts.step declared) p) := by
    intro steps
    induction steps with
    | nil => exact fun _ => rfl
    | cons s steps ih =>
      intro p
      rw [List.map_cons, List.foldl_cons, hstep, ih, List.foldl_cons]
  have hsteps := hfold steps ⟨[], []⟩
  rw [Parts.ofSteps]
  refine (congrArg Parts.all hsteps).trans ?_
  rw [Parts.ofSteps, Parts.all, Parts.all]
  by_cases hempty : (steps.foldl (Parts.step declared) ⟨[], []⟩).current = []
  · simp [originals, hempty]
  · simp [originals, hempty]

end IndexBuilder

/-! ### Postings -/

namespace Document

variable {doc : Document} {field : String} {tokens : List Token}

/-- The original of a document has what is left of the tokens of the document. -/
theorem mem_tokensOf_original {kept : List Token} :
    kept ∈ (doc.original declared chosen).tokensOf field ↔
      kept ≠ [] ∧ ∃ tokens ∈ doc.tokensOf field, originalTokens declared chosen field tokens = kept := by
  have hnil : originalTokens declared chosen field [] = [] := by
    rw [originalTokens]
    split <;> rfl
  simp only [tokensOf, original, List.mem_map, List.mem_filter, Bool.and_eq_true, beq_iff_eq,
    Bool.not_eq_true', List.isEmpty_eq_false_iff]
  constructor
  · rintro ⟨_, ⟨⟨f, hf, rfl⟩, rfl, hne⟩, rfl⟩
    refine ⟨hne, f.2, ⟨f, ⟨hf, rfl, fun hempty => hne ?_⟩, rfl⟩, rfl⟩
    rw [hempty]
    exact hnil
  · rintro ⟨hne, _, ⟨f, ⟨hf, rfl, -⟩, rfl⟩, rfl⟩
    exact ⟨_, ⟨⟨f, hf, rfl⟩, rfl, hne⟩, rfl⟩

end Document

namespace SegmentBuffer

variable {options : IndexOptions} {text : String}

/-- What is kept of the tokens that are not injected. -/
theorem occurrencesOf_original (options : IndexOptions) (tokens : List Token) (text : String) :
    occurrencesOf options (tokens.filter fun t => !t.isInjected options) text =
      (occurrencesOf options tokens text).filter (·.hasEmptyPayload) := by
  have htest : (fun t : Token => !t.isInjected options) =
      fun t => (keep options t).hasEmptyPayload := funext fun t => Bool.not_not _
  rw [htest, occurrencesOf, occurrencesOf, List.filter_map, List.filter_filter, List.filter_filter]
  exact congrArg (fun f => (tokens.filter f).map (keep options))
    (funext fun t => Bool.and_comm _ _)

theorem frequency_posting_of_hasPositions (hpositions : options.hasPositions = true) (doc : Nat)
    (os : List Occurrence) : (posting options doc os).frequency = os.length := by
  cases options with
  | documents => cases hpositions
  | frequencies => cases hpositions
  | positions => exact List.length_mergeSort os
  | payloads => exact List.length_mergeSort os

theorem bareCount_posting_of_hasPositions (hpositions : options.hasPositions = true) (doc : Nat)
    (os : List Occurrence) :
    (posting options doc os).bareCount = (os.filter (·.hasEmptyPayload)).length := by
  have hsorted : ((os.mergeSort fun a b => decide (a.position ≤ b.position)).filter
      (·.hasEmptyPayload)).length = (os.filter (·.hasEmptyPayload)).length :=
    ((List.mergeSort_perm os _).filter _).length_eq
  cases options with
  | documents => cases hpositions
  | frequencies => cases hpositions
  | positions => exact hsorted
  | payloads => exact hsorted

/-- Without injected tokens a term occurs as often as it occurs without a payload. -/
theorem frequency_termPosting?_original (hpositions : options.hasPositions = true) (doc : Nat)
    (tokens : List Token) (text : String) :
    (termPosting? options doc (tokens.filter fun t => !t.isInjected options) text).elim 0
        (·.frequency) =
      (termPosting? options doc tokens text).elim 0 (·.bareCount) := by
  have hfrequency : ∀ os : List Occurrence,
      ((nonEmpty? os).map (posting options doc)).elim 0 (·.frequency) = os.length := by
    intro os
    cases os with
    | nil => rfl
    | cons o os => exact frequency_posting_of_hasPositions hpositions doc (o :: os)
  have hbare : ∀ os : List Occurrence,
      ((nonEmpty? os).map (posting options doc)).elim 0 (·.bareCount) =
        (os.filter (·.hasEmptyPayload)).length := by
    intro os
    cases os with
    | nil => rfl
    | cons o os => exact bareCount_posting_of_hasPositions hpositions doc (o :: os)
  rw [termPosting?, termPosting?, hfrequency, hbare, occurrencesOf_original]

end SegmentBuffer

namespace Segment

variable {docs : List Document} {g g' : Segment} {t : Term}

/-- Whether the postings of a document come to a number, said of the tokens of the document. -/
theorem Holds.exists_posting (h : g.Holds declared docs) (f : Posting → Nat) {d n : Nat}
    (hn : 0 < n) :
    (∃ p ∈ g.postingsOf t, p.doc = d ∧ n ≤ f p) ↔
      ∃ doc, docs[d]? = some doc ∧ ∃ tokens ∈ doc.tokensOf t.field,
        n ≤ (termPosting? (declaredOptions declared t.field) d tokens t.text).elim 0 f := by
  constructor
  · rintro ⟨p, hp, rfl, hle⟩
    obtain ⟨doc, hdoc, tokens, htokens, hposting⟩ := h.mem_postingsOf.1 hp
    exact ⟨doc, hdoc, tokens, htokens, by rwa [hposting]⟩
  · rintro ⟨doc, hdoc, tokens, htokens, hle⟩
    cases hposting : termPosting? (declaredOptions declared t.field) d tokens t.text with
    | none =>
      rw [hposting] at hle
      exact absurd hle (Nat.not_le.2 hn)
    | some p =>
      rw [hposting] at hle
      obtain rfl := doc_of_termPosting? hposting
      exact ⟨p, h.mem_postingsOf.2 ⟨doc, hdoc, tokens, htokens, hposting⟩, rfl, hle⟩

/-- How often a term occurs in an original is how often it occurs without a payload. -/
theorem exists_posting_original (h : g.Holds declared docs)
    (h' : g'.Holds declared (docs.map (·.original declared chosen)))
    (hchosen : chosen t.field = true)
    (hpositions : (declaredOptions declared t.field).hasPositions = true) {d n : Nat}
    (hn : 0 < n) :
    (∃ p ∈ g'.postingsOf t, p.doc = d ∧ n ≤ p.frequency) ↔
      ∃ p ∈ g.postingsOf t, p.doc = d ∧ n ≤ p.bareCount := by
  have hsame := fun tokens => frequency_termPosting?_original hpositions d tokens t.text
  have htokens : ∀ tokens, Document.originalTokens declared chosen t.field tokens =
      tokens.filter fun token => !token.isInjected (declaredOptions declared t.field) :=
    fun tokens => if_pos hchosen
  rw [h'.exists_posting (·.frequency) hn, h.exists_posting (·.bareCount) hn]
  simp only [List.getElem?_map, Option.map_eq_some_iff]
  constructor
  · rintro ⟨_, ⟨doc, hdoc, rfl⟩, _, hkept, hle⟩
    obtain ⟨-, tokens, hmem, rfl⟩ := Document.mem_tokensOf_original.1 hkept
    rw [htokens, hsame] at hle
    exact ⟨doc, hdoc, tokens, hmem, hle⟩
  · rintro ⟨doc, hdoc, tokens, hmem, hle⟩
    refine ⟨_, ⟨doc, hdoc, rfl⟩, _, Document.mem_tokensOf_original.2 ⟨?_, tokens, hmem, rfl⟩, ?_⟩
    · intro hnil
      rw [htokens] at hnil
      rw [← hsame, hnil] at hle
      exact absurd hle (Nat.not_le.2 hn)
    · rwa [htokens, hsame]

/-- In fields that are not chosen the postings are the same. -/
theorem postingsOf_original (h : g.Holds declared docs)
    (h' : g'.Holds declared (docs.map (·.original declared chosen)))
    (hchosen : chosen t.field = false) : g'.postingsOf t = g.postingsOf t := by
  have htokens : ∀ doc : Document, (doc.original declared chosen).tokensOf t.field =
      doc.tokensOf t.field := by
    intro doc
    induction doc with
    | nil => rfl
    | cons f doc ih =>
      simp only [Document.tokensOf, Document.original, List.map_cons, List.filter_cons] at ih ⊢
      by_cases hfield : f.1 = t.field
      · have hkept : Document.originalTokens declared chosen f.1 f.2 = f.2 :=
          if_neg (by simp [hfield, hchosen])
        rw [hkept]
        split <;> simp [ih]
      · simp [hfield, ih]
  have hadditions : additions t.field (docs.map (·.original declared chosen)) =
      additions t.field docs := by
    rw [additions, List.zipIdx_map, List.flatMap_map, additions]
    exact List.flatMap_congr fun d _ => by simp [htokens]
  rw [h'.postingsOf, hadditions, h.postingsOf]

/-- Documents whose fields were all declared have nothing in a field that was not. -/
theorem Holds.postingsOf_undeclared (h : g.Holds declared docs)
    (haccepts : ∀ doc ∈ docs, IndexBuilder.accepts declared doc = true)
    (hfield : declared.get? t.field = none) : g.postingsOf t = [] := by
  refine List.eq_nil_iff_forall_not_mem.2 fun p hp => ?_
  obtain ⟨doc, hdoc, tokens, htokens, -⟩ := h.mem_postingsOf.1 hp
  obtain ⟨f, hf, -⟩ := List.mem_map.1 htokens
  obtain ⟨hmem, hname⟩ := List.mem_filter.1 hf
  have hcontains := List.all_eq_true.1 (haccepts doc (List.mem_of_getElem? hdoc)) f hmem
  rw [beq_iff_eq.1 (Bool.and_eq_true_iff.1 hname).1, Dictionary.contains, hfield] at hcontains
  cases hcontains

/-- A segment and one that holds the originals of its documents under the same numbers. -/
structure IsOriginal (declared : Dictionary IndexOptions) (chosen : String → Bool)
    (g g' : Segment) : Prop where
  /-- The documents are numbered from the same base. -/
  docBase : g'.docBase = g.docBase
  /-- The documents are those of the segment, and all of their fields were declared. -/
  holds : ∃ docs : List Document, (∀ doc ∈ docs, IndexBuilder.accepts declared doc = true) ∧
    g.Holds declared docs ∧ g'.Holds declared (docs.map (·.original declared chosen))

/-- In chosen fields a term occurs in an original as often as it occurs without a payload, if
those that were declared have positions. -/
theorem IsOriginal.exists_posting (h : g.IsOriginal declared chosen g')
    (hchosen : chosen t.field = true)
    (hpositions : ∀ options, declared.get? t.field = some options → options.hasPositions = true)
    {d n : Nat} (hn : 0 < n) :
    (∃ p ∈ g'.postingsOf t, p.doc = d ∧ n ≤ p.frequency) ↔
      ∃ p ∈ g.postingsOf t, p.doc = d ∧ n ≤ p.bareCount := by
  obtain ⟨docs, haccepts, hholds, hholds'⟩ := h.holds
  cases hfield : declared.get? t.field with
  | some options =>
    have hstored : declaredOptions declared t.field = options := by
      rw [declaredOptions, hfield, Option.getD_some]
    exact exists_posting_original hholds hholds' hchosen (hstored ▸ hpositions options hfield) hn
  | none =>
    have haccepts' : ∀ doc ∈ docs.map (·.original declared chosen),
        IndexBuilder.accepts declared doc = true := by
      intro _ hmem
      obtain ⟨doc, hdoc, rfl⟩ := List.mem_map.1 hmem
      rw [IndexBuilder.accepts_original]
      exact haccepts doc hdoc
    rw [hholds.postingsOf_undeclared haccepts hfield, hholds'.postingsOf_undeclared haccepts' hfield]
    simp

end Segment

/-! ### Snapshots -/

namespace SegmentsHold

variable {snapshot snapshot' ord docBase : Nat} {parts : List (List Document)}
  {gs gs' : List Segment}

/-- The segments of an index and of one of the originals belong together one by one. -/
theorem forall₂_isOriginal (h : SegmentsHold declared snapshot ord docBase parts gs)
    (haccepts : ∀ docs ∈ parts, ∀ doc ∈ docs, IndexBuilder.accepts declared doc = true)
    (h' : SegmentsHold declared snapshot' ord docBase
      (parts.map (List.map (·.original declared chosen))) gs') :
    List.Forall₂ (Segment.IsOriginal declared chosen) gs gs' := by
  induction h generalizing gs' with
  | nil =>
    cases h'
    exact .nil
  | cons hord hsnapshot hbase hholds hrest ih =>
    cases h' with
    | cons hord' hsnapshot' hbase' hholds' hrest' =>
      rw [List.length_map] at hrest'
      obtain ⟨hfirst, hothers⟩ := List.forall_mem_cons.1 haccepts
      exact .cons ⟨hbase'.trans hbase.symm, _, hfirst, hholds, hholds'⟩ (ih hothers hrest')

end SegmentsHold

namespace Snapshot.Holds

variable {parts : List (List Document)} {s s' : Snapshot}

/-- The originals of documents have no other texts than the documents. -/
theorem keys_select_original (h : s.Holds declared parts)
    (h' : s'.Holds declared (parts.map (List.map (·.original declared chosen)))) (m : MultiTerm) :
    (s'.select m).keys ⊆ (s.select m).keys := by
  intro text htext
  obtain ⟨hselects, _, hmem, tokens, htokens, token, htoken, rfl⟩ := h'.mem_select.1 htext
  rw [← List.map_flatten] at hmem
  obtain ⟨doc, hdoc, rfl⟩ := List.mem_map.1 hmem
  obtain ⟨-, kept, hkept, rfl⟩ := Document.mem_tokensOf_original.1 htokens
  refine h.mem_select.2 ⟨hselects, doc, hdoc, kept, hkept, token, ?_, rfl⟩
  rw [Document.originalTokens] at htoken
  split at htoken
  · exact List.mem_of_mem_filter htoken
  · exact htoken

end Snapshot.Holds

end TextSearch
