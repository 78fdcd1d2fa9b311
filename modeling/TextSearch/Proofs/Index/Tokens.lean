import Mathlib.Data.List.Perm.Basic
import TextSearch.Proofs.Index.Snapshots
import TextSearch.Proofs.Outcome

/-!
# The tokens of an index

An index keeps the tokens of the documents that were added to it, and nothing
else. The tokens are read back by opening the postings of every term of a field
in every segment and walking them to their end. Building scatters the tokens of
a document over posting lists by their texts, and documents over segments by the
closings; reading gathers them again, in another order. Main statement:
`keeps_what_was_added`.
-/

namespace TextSearch

open SegmentBuffer

/-- A token in an index. -/
structure KeptToken where
  /-- The id of its document. -/
  doc : Nat
  /-- Its text. -/
  text : String
  /-- Its position in the field. -/
  position : UInt32
  /-- Its payload, if one was kept. -/
  payload : Option Payload
  deriving DecidableEq, Repr

/-- What is to be kept of a token of a document: a payload if it has bytes and the field stores
payloads, and everything else in any case. -/
def Token.kept (options : IndexOptions) (doc : Nat) (t : Token) : KeptToken :=
  ⟨doc, t.text, t.position, t.payload.filter fun p => options.hasPayloads && !p.isEmpty⟩

/-- What is to be kept of a field of documents that are numbered from a base on. -/
def keptTokens (options : IndexOptions) (field : String) (base : Nat) (docs : List Document) :
    List KeptToken :=
  (docs.zipIdx base).flatMap fun d => (d.1.tokensOf field).flatten.map (·.kept options d.2)

namespace Segment

/-- The tokens that a posting of a term stands for, under the ids of the snapshot. -/
def tokensAt (g : Segment) (text : String) (p : Posting) : List KeptToken :=
  (p.occurrences.getD []).map fun o => ⟨g.docBase + p.doc, text, o.position, o.payload⟩

/-- Look a term up, open its postings and walk them to their end. -/
def readTerm (g : Segment) (t : Term) : Except Fault (List KeptToken) :=
  match g.entry? t with
  | none => .ok []
  | some entry => (fun c => c.toList.flatMap (g.tokensAt t.text)) <$> g.postings t entry .payloads

/-- Read every term of a field. -/
def readField (g : Segment) (field : String) : Except Fault (List KeptToken) :=
  List.flatten <$> (g.terms field).mapM fun text => g.readTerm ⟨field, text⟩

end Segment

/-- Read a field in every segment. -/
def Snapshot.readField (s : Snapshot) (field : String) : Except Fault (List KeptToken) :=
  List.flatten <$> s.segments.mapM fun g => g.readField field

namespace IndexBuilder

/-- The documents that steps of the builder add, each with the id that it was answered. -/
def admitted (b : IndexBuilder) : List BuilderStep → List (Nat × Document)
  | [] => []
  | .add doc :: steps =>
    match b.addDocument doc with
    | .ok (id, b') => (id, doc) :: b'.admitted steps
    | .error _ => b.admitted steps
  | .commit :: steps => b.commit.admitted steps

/-- Whether a step has an effect: every step but the adding of a document that is refused. -/
def isEffective (declared : Dictionary IndexOptions) : BuilderStep → Bool
  | .add doc => accepts declared doc
  | .commit => true

end IndexBuilder

/-! ### Walking a posting list -/

namespace PostingCursor

/-- Without gates, a cursor lists every posting ahead of it. -/
theorem toListWithin_eq (steps : Nat) {c : PostingCursor} (hgates : c.gates = [])
    (hdetail : c.base.detail.hasPositions = true) :
    c.toListWithin steps = (c.base.ahead.take steps).map fun p =>
      ⟨p.doc, p.frequency, some (p.read c.base.detail)⟩ := by
  induction steps generalizing c with
  | zero => rfl
  | succ steps ih =>
    have hnext : c.next = (!c.base.ahead.isEmpty,
        { c with base := { c.base with started := true, rest := c.base.ahead } }) := by
      rw [next, hgates]
      rfl
    rw [toListWithin, hnext]
    cases hahead : c.base.ahead with
    | nil => rfl
    | cons p ps =>
      have hrest := ih (c := { c with base := { c.base with started := true, rest := p :: ps } })
        hgates hdetail
      have hcurrent : PostingCursor.current
          { c with base := { c.base with started := true, rest := p :: ps } } =
          ⟨p.doc, p.frequency, some (p.read c.base.detail)⟩ := by
        simp [PostingCursor.current, PostingCursor.doc, ListCursor.doc, PostingCursor.frequency,
          ListCursor.frequency, PostingCursor.occurrences, ListCursor.occurrences,
          ListCursor.current?, hdetail, Posting.read, Except.toOption]
      simp only [List.isEmpty_cons, Bool.not_false, if_true, hcurrent, hrest]
      rfl

/-- A walk with payloads reads a posting list as it is. -/
theorem toList_ofList_payloads (ps : List Posting) :
    (ofList ps .payloads).toList = ps.map fun p =>
      ⟨p.doc, p.frequency, some (p.occurrences.getD [])⟩ := by
  rw [toList, toListWithin_eq _ rfl rfl, remaining, ← ListCursor.length_ahead, List.take_length]
  rfl

end PostingCursor

/-! ### Gathering by text -/

/-- What is picked out of a list by one key after another is the whole list, in another order, if
the keys are different and all that the members have. -/
theorem flatMap_filter_perm {α β : Type} [DecidableEq β] (key : α → β) {keys : List β}
    (hnodup : keys.Nodup) (l : List α) (hkeys : ∀ a ∈ l, key a ∈ keys) :
    (keys.flatMap fun k => l.filter fun a => key a == k).Perm l := by
  induction keys generalizing l with
  | nil =>
    have hnil : l = [] := List.eq_nil_iff_forall_not_mem.2 fun a ha => List.not_mem_nil (hkeys a ha)
    rw [hnil]
    exact .nil
  | cons k keys ih =>
    obtain ⟨hk, hnodup⟩ := List.nodup_cons.1 hnodup
    have hothers : ∀ k' ∈ keys, (l.filter fun a => key a == k') =
        (l.filter fun a => !(key a == k)).filter fun a => key a == k' := by
      intro k' hk'
      rw [List.filter_filter]
      refine List.filter_congr fun a _ => ?_
      by_cases ha : key a = k'
      · have hne : key a ≠ k := fun h => hk (h ▸ ha ▸ hk')
        simp [ha, ha ▸ hne]
      · simp [ha]
    have hrest : ∀ a ∈ l.filter fun a => !(key a == k), key a ∈ keys := by
      intro a ha
      obtain ⟨ha, hne⟩ := List.mem_filter.1 ha
      exact (List.mem_cons.1 (hkeys a ha)).resolve_left (by simpa using hne)
    rw [List.flatMap_cons, List.flatMap_congr hothers]
    exact ((ih hnodup _ hrest).append_left _).trans (List.filter_append_perm _ l)

namespace SegmentBuffer

/-- Of a token in a field with positions everything is kept that should be. -/
theorem kept_eq (options : IndexOptions) (doc : Nat) (t : Token) :
    t.kept options doc =
      ⟨doc, t.text, (keep options t).position, (keep options t).payload⟩ := by
  rw [Token.kept, keep]
  cases options.hasPayloads <;> simp

end SegmentBuffer

namespace Segment

variable {declared : Dictionary IndexOptions} {docs : List Document} {g : Segment}

/-- The posting of a document for a text stands for the tokens of the document with the text. -/
theorem tokensAt_termPosting? (g : Segment) {options : IndexOptions}
    (hpositions : options.hasPositions = true) (doc : Nat) (tokens : List Token) (text : String) :
    ((termPosting? options doc tokens text).toList.flatMap (g.tokensAt text)).Perm
      ((tokens.filter fun t => t.text == text).map (·.kept options (g.docBase + doc))) := by
  have hplaced : ∀ os : List Occurrence, (posting options doc os).occurrences.getD [] =
      os.mergeSort fun a b => decide (a.position ≤ b.position) := by
    intro os
    cases options with
    | documents => cases hpositions
    | frequencies => cases hpositions
    | positions => rfl
    | payloads => rfl
  have hdoc : ∀ os : List Occurrence, (posting options doc os).doc = doc := by
    intro os
    cases options <;> rfl
  have hkept : ((tokens.filter fun t => t.text == text).map
      (·.kept options (g.docBase + doc))) = (occurrencesOf options tokens text).map fun o =>
        ⟨g.docBase + doc, text, o.position, o.payload⟩ := by
    rw [occurrencesOf, List.map_map]
    refine List.map_congr_left fun t ht => ?_
    obtain ⟨-, htext⟩ := List.mem_filter.1 ht
    rw [kept_eq, beq_iff_eq.1 htext]
    rfl
  rw [hkept, termPosting?]
  cases hos : occurrencesOf options tokens text with
  | nil => exact .nil
  | cons o os =>
    rw [nonEmpty?_cons, Option.map_some, Option.toList_some, List.flatMap_singleton, tokensAt,
      hplaced, hdoc]
    exact (List.mergeSort_perm _ _).map _

/-- In a field with positions, reading a term does not fail. -/
theorem Holds.readTerm_eq (h : g.Holds declared docs) (t : Term)
    (hpositions : (declaredOptions declared t.field).hasPositions = true) :
    g.readTerm t = .ok ((g.postingsOf t).flatMap (g.tokensAt t.text)) := by
  rw [readTerm, Segment.postingsOf]
  rcases g.entry?_cases t with ⟨hps, hentry⟩ | ⟨ps, entry, f, hps, hentry, hf, hopen⟩
  · rw [hps, hentry]
    rfl
  · have hstored : f.options = declaredOptions declared t.field :=
      h.options? (by rw [Segment.options?, hf]; rfl)
    rw [hps, hentry]
    simp only [hopen, hstored, IndexOptions.supports, hpositions, if_true, Option.getD_some]
    change Except.ok ((PostingCursor.ofList ps .payloads).toList.flatMap _) = _
    rw [PostingCursor.toList_ofList_payloads, List.flatMap_map]
    rfl

/-- The tokens that postings of a text stand for are those that the documents have with the text. -/
theorem Holds.tokensAt_postingsOf_perm (h : g.Holds declared docs) (field text : String)
    (hpositions : (declaredOptions declared field).hasPositions = true) :
    ((g.postingsOf ⟨field, text⟩).flatMap (g.tokensAt text)).Perm
      ((((additions field docs).flatMap fun a => a.2.map (a.1, ·)).filter
        fun x => x.2.text == text).map fun x =>
          x.2.kept (declaredOptions declared field) (g.docBase + x.1)) := by
  rw [h.postingsOf, List.filterMap_eq_flatMap_toList, List.flatMap_assoc, List.filter_flatMap,
    List.map_flatMap]
  refine List.Perm.flatMap_left _ fun a _ => ?_
  rw [List.filter_map, List.map_map]
  exact g.tokensAt_termPosting? hpositions a.1 a.2 text

/-- Reading a field with positions gives the tokens that the documents have in it. -/
theorem Holds.exists_readField (h : g.Holds declared docs) (field : String)
    (hpositions : (declaredOptions declared field).hasPositions = true) :
    ∃ tokens, g.readField field = .ok tokens ∧
      tokens.Perm (keptTokens (declaredOptions declared field) field g.docBase docs) := by
  have hterms : ∀ text ∈ g.terms field, g.readTerm ⟨field, text⟩ =
      .ok ((g.postingsOf ⟨field, text⟩).flatMap (g.tokensAt text)) :=
    fun text _ => h.readTerm_eq ⟨field, text⟩ hpositions
  have hread := except_mapM_eq_ok hterms
  have htexts : ∀ x ∈ (additions field docs).flatMap fun a => a.2.map (a.1, ·),
      x.2.text ∈ g.terms field := by
    intro x hx
    obtain ⟨a, ha, hx⟩ := List.mem_flatMap.1 hx
    obtain ⟨t, ht, rfl⟩ := List.mem_map.1 hx
    obtain ⟨doc, hdoc, htokens⟩ := mem_additions.1 ha
    exact g.mem_terms.2 (h.isSome_postings?_iff.2
      ⟨doc, List.mem_of_getElem? hdoc, a.2, htokens, t, ht, rfl⟩)
  have hall : keptTokens (declaredOptions declared field) field g.docBase docs =
      ((additions field docs).flatMap fun a => a.2.map (a.1, ·)).map fun x =>
        x.2.kept (declaredOptions declared field) (g.docBase + x.1) := by
    rw [keptTokens, zipIdx_eq_map, List.flatMap_map, additions, List.map_flatMap,
      List.flatMap_assoc]
    refine List.flatMap_congr fun d _ => ?_
    simp [List.map_flatten, List.flatMap_def, List.map_map, Function.comp_def]
  refine ⟨_, by rw [readField, hread]; rfl, ?_⟩
  rw [← List.flatMap_def, hall]
  refine (List.Perm.flatMap_left _ fun text _ => h.tokensAt_postingsOf_perm field text
    hpositions).trans ?_
  rw [← List.map_flatMap]
  exact (flatMap_filter_perm _ (g.nodup_terms field) _ htexts).map _

end Segment

/-! ### Reading a snapshot -/

theorem keptTokens_append (options : IndexOptions) (field : String) (base : Nat)
    (docs rest : List Document) : keptTokens options field base (docs ++ rest) =
      keptTokens options field base docs ++ keptTokens options field (base + docs.length) rest := by
  rw [keptTokens, List.zipIdx_append, List.flatMap_append, keptTokens, keptTokens]

/-- Reading segments one after the other gives the tokens of all their documents. -/
theorem SegmentsHold.exists_readField {declared : Dictionary IndexOptions}
    {snapshot ord docBase : Nat} {parts : List (List Document)} {gs : List Segment}
    (h : SegmentsHold declared snapshot ord docBase parts gs) (field : String)
    (hpositions : (declaredOptions declared field).hasPositions = true) :
    ∃ tokens, gs.mapM (·.readField field) = .ok tokens ∧ tokens.flatten.Perm
      (keptTokens (declaredOptions declared field) field docBase parts.flatten) := by
  induction h with
  | nil => exact ⟨[], rfl, .nil⟩
  | cons hord hsnapshot hbase hholds hrest ih =>
    obtain ⟨first, hfirst, hperm⟩ := hholds.exists_readField field hpositions
    obtain ⟨others, hothers, hperms⟩ := ih
    refine ⟨first :: others, by rw [List.mapM_cons, hfirst, hothers]; rfl, ?_⟩
    rw [hbase] at hperm
    rw [List.flatten_cons, List.flatten_cons, keptTokens_append]
    exact hperm.append hperms

/-! ### Runs of the builder -/

namespace IndexBuilder

/-- Adding a document fails if one of its fields was not declared, and takes a step otherwise. -/
theorem addDocument_cases (b : IndexBuilder) (doc : Document) :
    (accepts b.declared doc = false ∧ ∃ f, b.addDocument doc = .error f) ∨
      (accepts b.declared doc = true ∧ ∃ id, b.addDocument doc = .ok (id, b.step (.add doc))) := by
  rcases b.resolve_cases doc with ⟨hrefused, f, hf⟩ | ⟨haccepted, hresolve⟩
  · exact .inl ⟨hrefused, f, by rw [addDocument, hf]; rfl⟩
  · refine .inr ⟨haccepted, b.base + b.current.docCount, ?_⟩
    rw [step_add, haccepted, addDocument, hresolve]
    rfl

/-- A builder that holds documents admits the accepted ones under the numbers that follow. -/
theorem Holds.admitted_eq {declared : Dictionary IndexOptions} (steps : List BuilderStep)
    {p : Parts} {b : IndexBuilder} (h : Holds declared p b) :
    b.admitted steps =
      ((accepted declared steps).zipIdx p.all.flatten.length).map fun d => (d.2, d.1) := by
  induction steps generalizing p b with
  | nil => rfl
  | cons s steps ih =>
    have hrest := ih (h.step s)
    cases s with
    | commit =>
      have hsame : (p.step declared .commit).all.flatten = p.all.flatten := by
        rw [Parts.flatten_all, Parts.flatten_all, Parts.step]
        split
        · rfl
        · simp
      rw [hsame] at hrest
      exact hrest
    | add doc =>
      rcases b.addDocument_cases doc with ⟨hrefused, f, hf⟩ | ⟨haccepted, id, hid⟩
      · rw [h.fields] at hrefused
        rw [admitted, hf]
        have hnone : accepted declared (.add doc :: steps) = accepted declared steps := by
          simp [accepted, hrefused]
        rw [hnone]
        exact ih h
      · rw [h.fields] at haccepted
        have hsome : accepted declared (.add doc :: steps) = doc :: accepted declared steps := by
          simp [accepted, haccepted]
        have hlength : (p.step declared (.add doc)).all.flatten.length =
            p.all.flatten.length + 1 := by
          rw [Parts.flatten_all, Parts.flatten_all, Parts.step, if_pos haccepted]
          simp [Nat.add_assoc]
        rw [hlength, ← h.id_eq hid] at hrest
        rw [admitted, hid, hsome, List.zipIdx_cons, List.map_cons, ← h.id_eq hid]
        exact congrArg ((id, doc) :: ·) hrest

/-- Steps without effect may be left out. -/
theorem run_filter_isEffective {declared : Dictionary IndexOptions} (steps : List BuilderStep)
    {p : Parts} {b : IndexBuilder} (h : Holds declared p b) :
    b.run (steps.filter (isEffective declared)) = b.run steps := by
  induction steps generalizing p b with
  | nil => rfl
  | cons s steps ih =>
    by_cases heffective : isEffective declared s = true
    · rw [List.filter_cons_of_pos heffective, run, List.foldl_cons]
      exact ih (h.step s)
    · cases s with
      | commit => exact absurd rfl heffective
      | add doc =>
        have hsame : b.step (.add doc) = b := by
          rw [step_add, h.fields]
          exact if_neg heffective
        rw [List.filter_cons_of_neg heffective, ih h]
        rw [run, run, List.foldl_cons, hsame]

end IndexBuilder

/-- An index keeps what was added to it. The documents that are not refused, which are those with
declared fields only, are answered the numbers from zero on. Reading a field with positions gives
back their tokens under these numbers. What is refused leaves no trace. -/
theorem keeps_what_was_added (fields : List (String × IndexOptions)) (steps : List BuilderStep)
    (id : Nat) (field : String) {options : IndexOptions}
    (hdeclared : (Dictionary.ofList fields).get? field = some options)
    (hpositions : options.hasPositions = true) :
    let added := (IndexBuilder.ofFields fields).admitted steps
    added.map (·.1) = List.range added.length ∧
      added.map (·.2) = IndexBuilder.accepted (.ofList fields) steps ∧
      (∃ tokens, (Snapshot.ofSteps fields steps id).readField field = .ok tokens ∧
        tokens.Perm (added.flatMap fun d =>
          (d.2.tokensOf field).flatten.map (·.kept options d.1))) ∧
      Snapshot.ofSteps fields (steps.filter (IndexBuilder.isEffective (.ofList fields))) id =
        Snapshot.ofSteps fields steps id := by
  have hadded := (IndexBuilder.holds_ofFields fields).admitted_eq steps
  have hoptions : declaredOptions (.ofList fields) field = options := by
    rw [declaredOptions, hdeclared, Option.getD_some]
  intro added
  have heq : added = ((IndexBuilder.accepted (.ofList fields) steps).zipIdx 0).map
      fun d => (d.2, d.1) := hadded
  refine ⟨?_, ?_, ?_, ?_⟩
  · rw [heq, List.map_map, List.length_map, List.length_zipIdx, List.range_eq_range']
    exact List.zipIdx_map_snd ..
  · rw [heq, List.map_map]
    exact List.zipIdx_map_fst ..
  · obtain ⟨tokens, hread, hperm⟩ :=
      (IndexBuilder.holds_build fields steps id).exists_readField field (hoptions ▸ hpositions)
    refine ⟨tokens.flatten, by rw [Snapshot.readField, hread]; rfl, ?_⟩
    rw [IndexBuilder.flatten_ofSteps, hoptions] at hperm
    rw [heq, List.flatMap_map]
    exact hperm
  · rw [Snapshot.ofSteps, Snapshot.ofSteps,
      IndexBuilder.run_filter_isEffective steps (IndexBuilder.holds_ofFields fields)]

/-- Steps that close a segment twice, refuse a document and have a payload without bytes. -/
def stepsWithRefusal : List BuilderStep :=
  [.add [("body", [⟨"b", 1, some [7]⟩, ⟨"a", 0, some []⟩, ⟨"b", 0, none⟩])], .commit, .commit,
    .add [("body", [⟨"a", 0, none⟩]), ("title", [])], .add [("body", [⟨"b", 2, some [8, 9]⟩])]]

theorem keeps_what_was_added_with_refusal :
    ((Dictionary.ofList [("body", IndexOptions.payloads)]).get? "body" = some .payloads ∧
      IndexOptions.payloads.hasPositions = true) ∧
    ((IndexBuilder.ofFields [("body", .payloads)]).admitted stepsWithRefusal).map (·.1) = [0, 1] ∧
    ∃ tokens,
      (Snapshot.ofSteps [("body", .payloads)] stepsWithRefusal 5).readField "body" = .ok tokens ∧
      tokens.Perm [⟨0, "b", 1, some [7]⟩, ⟨0, "a", 0, none⟩, ⟨0, "b", 0, none⟩,
        ⟨1, "b", 2, some [8, 9]⟩] := by
  have hdeclared : (Dictionary.ofList [("body", IndexOptions.payloads)]).get? "body" =
      some .payloads := by decide
  obtain ⟨hids, -, ⟨tokens, hread, hperm⟩, -⟩ :=
    keeps_what_was_added [("body", .payloads)] stepsWithRefusal 5 "body" hdeclared rfl
  have hadded : (IndexBuilder.ofFields [("body", .payloads)]).admitted stepsWithRefusal =
      [(0, [("body", [⟨"b", 1, some [7]⟩, ⟨"a", 0, some []⟩, ⟨"b", 0, none⟩])]),
        (1, [("body", [⟨"b", 2, some [8, 9]⟩])])] := by decide +kernel
  rw [hadded] at hids hperm
  exact ⟨⟨hdeclared, rfl⟩, hadded ▸ hids, tokens, hread, hperm⟩

end TextSearch
