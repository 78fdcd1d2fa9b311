import Mathlib.Data.List.Forall2
import TextSearch.Proofs.Index.Fields

/-!
# Runs of the builder

An index is built by adding documents and by closing segments in any order. The
documents that were not refused make up the parts between the closings, and
`IndexBuilder.holds_build` says that the snapshot holds these parts, one in each
segment, and nothing else.
-/

namespace TextSearch

open SegmentBuffer

/-- A step in building an index. -/
inductive BuilderStep where
  /-- Add a document. -/
  | add (doc : Document)
  /-- Close the open segment. -/
  | commit

namespace Document

/-- The non-empty lists of tokens that a document has for a field. -/
def tokensOf (field : String) (doc : Document) : List (List Token) :=
  (doc.filter fun f => f.1 == field && !f.2.isEmpty).map (·.2)

/-- Whether a document names no field twice. -/
def NamesOnce (doc : Document) : Prop := (doc.map (·.1)).Nodup

instance : DecidablePred NamesOnce := fun doc => inferInstanceAs (Decidable (doc.map (·.1)).Nodup)

end Document

/-- What the documents of a segment add to a field, each under its number in the segment. -/
def additions (field : String) (docs : List Document) : List (Nat × List Token) :=
  docs.zipIdx.flatMap fun d => (d.1.tokensOf field).map (d.2, ·)

/-- What a field was declared to store. -/
def declaredOptions (declared : Dictionary IndexOptions) (field : String) : IndexOptions :=
  (declared.get? field).getD default

theorem additions_append_singleton (field : String) (docs : List Document) (doc : Document) :
    additions field (docs ++ [doc]) =
      additions field docs ++ (doc.tokensOf field).map (docs.length, ·) := by
  rw [additions, List.zipIdx_append, List.flatMap_append, ← additions]
  simp

/-- A segment under construction holds documents. -/
structure SegmentBuffer.Holds (declared : Dictionary IndexOptions) (docs : List Document)
    (b : SegmentBuffer) : Prop where
  /-- Every document was counted. -/
  docCount : b.docCount = docs.length
  /-- Every field holds what the documents have for it. -/
  fields : ∀ field, FieldHolds (declaredOptions declared field) (additions field docs)
    (b.fields.get? field)

namespace SegmentBuffer

theorem holds_empty (declared : Dictionary IndexOptions) : Holds declared [] empty :=
  ⟨rfl, fun _ => rfl⟩

/-- The fields of a document under construction, after some of them were added. -/
theorem get?_addField (options : IndexOptions) (field key : String) (tokens : List Token)
    (b : SegmentBuffer) :
    (b.addField options field tokens).fields.get? key =
      if key = field ∧ tokens ≠ [] then some (extend options b.docCount tokens (b.fields.get? key))
      else b.fields.get? key := by
  rw [addField]
  cases tokens with
  | nil => simp
  | cons t tokens =>
    simp only [List.isEmpty_cons, Bool.false_eq_true, if_false, Dictionary.get?_alter]
    by_cases hkey : key = field
    · simp [hkey]
    · simp [hkey]

theorem docCount_addField (options : IndexOptions) (field : String) (tokens : List Token)
    (b : SegmentBuffer) : (b.addField options field tokens).docCount = b.docCount := by
  rw [addField]
  split <;> rfl

/-- Adding the fields of a document adds to each field what the document has for it. -/
theorem fieldHolds_foldl_addField {declared : Dictionary IndexOptions} (key : String) :
    ∀ (fields : List (String × IndexOptions × List Token)) {b : SegmentBuffer}
      {added : List (Nat × List Token)},
      (∀ f ∈ fields, f.2.1 = declaredOptions declared f.1) →
      FieldHolds (declaredOptions declared key) added (b.fields.get? key) →
      FieldHolds (declaredOptions declared key)
        (added ++ (Document.tokensOf key (fields.map fun f => (f.1, f.2.2))).map (b.docCount, ·))
        ((fields.foldl (fun s f => s.addField f.2.1 f.1 f.2.2) b).fields.get? key)
  | [], b, added, _, h => by simpa [Document.tokensOf] using h
  | (field, options, tokens) :: fields, b, added, hoptions, h => by
    obtain ⟨hfirst, hrest⟩ := List.forall_mem_cons.1 hoptions
    have hone : FieldHolds (declaredOptions declared key)
        (added ++ (Document.tokensOf key [(field, tokens)]).map (b.docCount, ·))
        ((b.addField options field tokens).fields.get? key) := by
      rw [get?_addField]
      by_cases hkey : key = field ∧ tokens ≠ []
      · obtain ⟨rfl, htokens⟩ := hkey
        have hoptions : options = declaredOptions declared key := hfirst
        have hlist : Document.tokensOf key [(key, tokens)] = [tokens] := by
          simp [Document.tokensOf, htokens]
        rw [if_pos ⟨rfl, htokens⟩, hlist, hoptions]
        exact holds_extend h _ tokens
      · have hlist : Document.tokensOf key [(field, tokens)] = [] := by
          by_cases hfield : key = field
          · have htokens : tokens = [] := by simpa [hfield] using hkey
            simp [Document.tokensOf, htokens]
          · simp [Document.tokensOf, Ne.symm hfield]
        rw [if_neg hkey, hlist]
        simpa using h
    have hall := fieldHolds_foldl_addField key fields hrest hone
    rw [docCount_addField] at hall
    rw [List.foldl_cons]
    have hsplit : Document.tokensOf key (((field, options, tokens) :: fields).map
          fun f => (f.1, f.2.2)) =
        Document.tokensOf key [(field, tokens)] ++
          Document.tokensOf key (fields.map fun f => (f.1, f.2.2)) := by
      rw [Document.tokensOf, Document.tokensOf, Document.tokensOf, ← List.map_append,
        ← List.filter_append]
      rfl
    rw [hsplit, List.map_append, ← List.append_assoc]
    exact hall

end SegmentBuffer

namespace IndexBuilder

/-- A step of the builder. A document that is refused leaves it as it is. -/
def step (b : IndexBuilder) : BuilderStep → IndexBuilder
  | .add doc =>
    match b.addDocument doc with
    | .ok (_, b') => b'
    | .error _ => b
  | .commit => b.commit

/-- Steps of the builder, one after the other. -/
def run (b : IndexBuilder) (steps : List BuilderStep) : IndexBuilder := steps.foldl step b

/-- Whether every field of a document was declared. -/
def accepts (declared : Dictionary IndexOptions) (doc : Document) : Bool :=
  doc.all fun f => declared.contains f.1

/-- The documents of the closed segments, and those of the open one. -/
structure Parts where
  /-- The documents of the closed segments. -/
  closed : List (List Document)
  /-- The documents of the open segment. -/
  current : List Document

namespace Parts

/-- What a step does to the parts. -/
def step (declared : Dictionary IndexOptions) (p : Parts) : BuilderStep → Parts
  | .add doc => if accepts declared doc then { p with current := p.current ++ [doc] } else p
  | .commit => if p.current = [] then p else ⟨p.closed ++ [p.current], []⟩

/-- The parts that steps make, from the first one on. -/
def ofSteps (declared : Dictionary IndexOptions) (steps : List BuilderStep) : Parts :=
  steps.foldl (step declared) ⟨[], []⟩

/-- The parts of the snapshot, none of them empty. -/
def all (p : Parts) : List (List Document) :=
  if p.current = [] then p.closed else p.closed ++ [p.current]

theorem flatten_all (p : Parts) : p.all.flatten = p.closed.flatten ++ p.current := by
  rw [all]
  split
  · next h => rw [h, List.append_nil]
  · rw [List.flatten_append, List.flatten_singleton]

end Parts

/-- The documents that are not refused, in the order in which they are added. -/
def accepted (declared : Dictionary IndexOptions) (steps : List BuilderStep) : List Document :=
  steps.filterMap fun
    | .add doc => if accepts declared doc then some doc else none
    | .commit => none

theorem accepts_of_mem_accepted {declared : Dictionary IndexOptions} {steps : List BuilderStep}
    {doc : Document} (h : doc ∈ accepted declared steps) : accepts declared doc = true := by
  obtain ⟨s, -, hs⟩ := List.mem_filterMap.1 h
  cases s with
  | add doc' =>
    simp only [Option.ite_none_right_eq_some, Option.some.injEq] at hs
    obtain ⟨haccepts, rfl⟩ := hs
    exact haccepts
  | commit => cases hs

/-- The parts of a run are the accepted documents, in their order. -/
theorem flatten_ofSteps (declared : Dictionary IndexOptions) (steps : List BuilderStep) :
    (Parts.ofSteps declared steps).all.flatten = accepted declared steps := by
  have hfold : ∀ (steps : List BuilderStep) (p : Parts),
      (steps.foldl (Parts.step declared) p).all.flatten =
        p.all.flatten ++ accepted declared steps := by
    intro steps
    induction steps with
    | nil => intro p; simp [accepted]
    | cons s steps ih =>
      intro p
      rw [List.foldl_cons, ih]
      cases s with
      | add doc =>
        cases hdoc : accepts declared doc with
        | true => simp [Parts.step, Parts.flatten_all, accepted, hdoc]
        | false => simp [Parts.step, accepted, hdoc]
      | commit =>
        have hsame : (Parts.step declared p .commit).all.flatten = p.all.flatten := by
          rw [Parts.flatten_all, Parts.flatten_all, Parts.step]
          split
          · rfl
          · simp
        rw [hsame]
        rfl
  have hnone : (⟨[], []⟩ : Parts).all.flatten = [] := rfl
  rw [Parts.ofSteps, hfold, hnone, List.nil_append]

/-- No part of a run is empty. -/
theorem ne_nil_of_mem_ofSteps {declared : Dictionary IndexOptions} {steps : List BuilderStep}
    {docs : List Document} (h : docs ∈ (Parts.ofSteps declared steps).all) : docs ≠ [] := by
  have hfold : ∀ (steps : List BuilderStep) (p : Parts), (∀ docs ∈ p.closed, docs ≠ []) →
      ∀ docs ∈ (steps.foldl (Parts.step declared) p).closed, docs ≠ [] := by
    intro steps
    induction steps with
    | nil => exact fun p hp => hp
    | cons s steps ih =>
      intro p hp
      rw [List.foldl_cons]
      refine ih _ ?_
      cases s with
      | add doc =>
        rw [Parts.step]
        split <;> exact hp
      | commit =>
        rw [Parts.step]
        split
        · exact hp
        · next hne =>
          intro docs hdocs
          rcases List.mem_append.1 hdocs with hdocs | hdocs
          · exact hp docs hdocs
          · rwa [List.mem_singleton.1 hdocs]
  have hclosed := hfold steps ⟨[], []⟩ (by simp)
  rw [Parts.all] at h
  split at h
  · exact hclosed docs h
  · next hne =>
    rcases List.mem_append.1 h with hdocs | hdocs
    · exact hclosed docs hdocs
    · rwa [List.mem_singleton.1 hdocs]

/-- A builder holds the documents of parts. -/
structure Holds (declared : Dictionary IndexOptions) (p : Parts) (b : IndexBuilder) : Prop where
  /-- The fields are as they were declared. -/
  fields : b.declared = declared
  /-- The closed segments hold the closed parts. -/
  finished : List.Forall₂ (SegmentBuffer.Holds declared) p.closed b.finished
  /-- The open segment holds the open part. -/
  current : SegmentBuffer.Holds declared p.current b.current

theorem holds_ofFields (fields : List (String × IndexOptions)) :
    Holds (.ofList fields) ⟨[], []⟩ (ofFields fields) :=
  ⟨rfl, .nil, SegmentBuffer.holds_empty _⟩

/-- A document is refused if one of its fields was not declared, and resolved otherwise. -/
theorem resolve_cases (b : IndexBuilder) (doc : Document) :
    (accepts b.declared doc = false ∧ ∃ f, b.resolve doc = .error f) ∨
      (accepts b.declared doc = true ∧
        b.resolve doc = .ok (doc.map fun f => (f.1, declaredOptions b.declared f.1, f.2))) := by
  induction doc with
  | nil => exact .inr ⟨rfl, rfl⟩
  | cons f doc ih =>
    obtain ⟨field, tokens⟩ := f
    have hcons : b.resolve ((field, tokens) :: doc) =
        (b.declared.get? field).elim (.error (.undeclaredField field)) fun options =>
          (b.resolve doc).map fun rest => (field, options, tokens) :: rest := by
      simp only [resolve, List.mapM_cons]
      cases b.declared.get? field with
      | none => rfl
      | some options =>
        generalize List.mapM (m := Except Fault) _ doc = rest
        cases rest <;> rfl
    have haccepts : accepts b.declared ((field, tokens) :: doc) =
        ((b.declared.get? field).isSome && accepts b.declared doc) := rfl
    rw [hcons, haccepts]
    cases hoptions : b.declared.get? field with
    | none => exact .inl ⟨rfl, _, rfl⟩
    | some options =>
      rcases ih with ⟨hrefused, f, hf⟩ | ⟨haccepted, hresolve⟩
      · exact .inl ⟨by rw [hrefused]; rfl, f, by rw [hf]; rfl⟩
      · refine .inr ⟨by rw [haccepted]; rfl, ?_⟩
        rw [hresolve, List.map_cons, declaredOptions, hoptions]
        rfl

/-- The fields of a document are added one after the other, if it is not refused. -/
theorem step_add (b : IndexBuilder) (doc : Document) :
    b.step (.add doc) =
      if accepts b.declared doc then
        { b with current :=
          { (doc.map fun f => (f.1, declaredOptions b.declared f.1, f.2)).foldl
              (fun s f => s.addField f.2.1 f.1 f.2.2) b.current with
            docCount := b.current.docCount + 1 } }
      else b := by
  rw [step, addDocument]
  rcases b.resolve_cases doc with ⟨hrefused, f, hf⟩ | ⟨haccepted, hresolve⟩
  · rw [hf, hrefused]
    rfl
  · rw [hresolve, haccepted]
    rfl

/-- A step of the builder does to the parts that it holds what it should. -/
theorem Holds.step {declared : Dictionary IndexOptions} {p : Parts} {b : IndexBuilder}
    (h : Holds declared p b) (s : BuilderStep) : Holds declared (p.step declared s) (b.step s) := by
  cases s with
  | add doc =>
    rw [Parts.step, step_add, h.fields]
    by_cases haccepts : accepts declared doc = true
    · rw [if_pos haccepts, if_pos haccepts]
      refine ⟨rfl, h.finished, ?_, fun key => ?_⟩
      · rw [List.length_append]
        exact congrArg (· + 1) h.current.docCount
      · have hoptions : ∀ f ∈ doc.map fun f => (f.1, declaredOptions declared f.1, f.2),
            f.2.1 = declaredOptions declared f.1 := by
          intro f hf
          obtain ⟨f', _, rfl⟩ := List.mem_map.1 hf
          rfl
        have hfields := fieldHolds_foldl_addField key _ hoptions (h.current.fields key)
        have hsame : (doc.map fun f => (f.1, declaredOptions declared f.1, f.2)).map
            (fun f => (f.1, f.2.2)) = doc := by
          rw [List.map_map]
          exact List.map_id doc
        rw [hsame, h.current.docCount, ← additions_append_singleton] at hfields
        exact hfields
    · rw [if_neg haccepts, if_neg haccepts]
      exact h
  | commit =>
    rw [Parts.step, IndexBuilder.step, commit, h.current.docCount]
    by_cases hempty : p.current = []
    · rw [if_pos hempty, if_pos (List.length_eq_zero_iff.2 hempty)]
      exact h
    · rw [if_neg hempty, if_neg (mt List.length_eq_zero_iff.1 hempty)]
      exact ⟨h.fields, List.rel_append h.finished (.cons h.current .nil),
        SegmentBuffer.holds_empty _⟩

/-- The id that a document gets is the number of documents before it. -/
theorem Holds.id_eq {declared : Dictionary IndexOptions} {p : Parts} {b b' : IndexBuilder}
    (h : Holds declared p b) {doc : Document} {id : Nat} (hadd : b.addDocument doc = .ok (id, b')) :
    id = p.all.flatten.length := by
  have hbase : b.base = p.closed.flatten.length := by
    rw [base]
    have hfinished := h.finished
    generalize b.finished = bs at hfinished
    generalize p.closed = docs at hfinished
    induction hfinished with
    | nil => rfl
    | cons hb _ ih =>
      rw [List.map_cons, total_cons, ih, hb.docCount, List.flatten_cons, List.length_append]
  rw [addDocument] at hadd
  rcases b.resolve_cases doc with ⟨-, f, hf⟩ | ⟨-, hresolve⟩
  · rw [hf] at hadd
    cases hadd
  · rw [hresolve] at hadd
    cases hadd
    rw [hbase, h.current.docCount, Parts.flatten_all, List.length_append]

/-- A run of the builder holds the parts that its steps make. -/
theorem holds_run (fields : List (String × IndexOptions)) (steps : List BuilderStep) :
    Holds (.ofList fields) (Parts.ofSteps (.ofList fields) steps) ((ofFields fields).run steps) := by
  have hfold : ∀ (steps : List BuilderStep) {p : Parts} {b : IndexBuilder},
      Holds (.ofList fields) p b →
      Holds (.ofList fields) (steps.foldl (Parts.step (.ofList fields)) p) (b.run steps) := by
    intro steps
    induction steps with
    | nil => exact fun h => h
    | cons s steps ih => exact fun h => ih (h.step s)
  exact hfold steps (holds_ofFields fields)

end IndexBuilder

/-! ### Snapshots -/

/-- A segment holds documents. -/
structure Segment.Holds (declared : Dictionary IndexOptions) (docs : List Document)
    (g : Segment) : Prop where
  /-- Every document was counted. -/
  maxDoc : g.maxDoc = docs.length
  /-- Every field holds what the documents have for it. -/
  fields : ∀ field, FieldHolds (declaredOptions declared field) (additions field docs)
    (g.fields.get? field)

/-- Segments hold parts one by one, each numbered after those before it. -/
inductive SegmentsHold (declared : Dictionary IndexOptions) (snapshot : Nat) :
    Nat → Nat → List (List Document) → List Segment → Prop
  /-- No segments. -/
  | nil {ord docBase : Nat} : SegmentsHold declared snapshot ord docBase [] []
  /-- A segment in front of others. -/
  | cons {ord docBase : Nat} {docs : List Document} {parts : List (List Document)} {g : Segment}
    {gs : List Segment} (hord : g.ord = ord) (hsnapshot : g.snapshot = snapshot)
    (hbase : g.docBase = docBase) (hholds : g.Holds declared docs)
    (hrest : SegmentsHold declared snapshot (ord + 1) (docBase + docs.length) parts gs) :
    SegmentsHold declared snapshot ord docBase (docs :: parts) (g :: gs)

/-- A snapshot holds the documents of parts, one part in each segment. -/
def Snapshot.Holds (declared : Dictionary IndexOptions) (parts : List (List Document))
    (s : Snapshot) : Prop := SegmentsHold declared s.id 0 0 parts s.segments

namespace IndexBuilder

theorem holds_freeze {declared : Dictionary IndexOptions} {parts : List (List Document)}
    {bs : List SegmentBuffer} (h : List.Forall₂ (SegmentBuffer.Holds declared) parts bs)
    (id : Nat) : ∀ ord docBase : Nat,
      SegmentsHold declared id ord docBase parts (freeze id ord docBase bs) := by
  induction h with
  | nil => exact fun _ _ => .nil
  | cons hb _ ih =>
    intro ord docBase
    refine .cons rfl rfl rfl ⟨hb.docCount, hb.fields⟩ ?_
    rw [hb.docCount]
    exact ih _ _

end IndexBuilder

/-- The snapshot of an index with declared fields that was built in steps. -/
def Snapshot.ofSteps (fields : List (String × IndexOptions)) (steps : List BuilderStep)
    (id : Nat) : Snapshot := ((IndexBuilder.ofFields fields).run steps).build id

namespace IndexBuilder

/-- The snapshot of a run holds the parts that its steps make. -/
theorem holds_build (fields : List (String × IndexOptions)) (steps : List BuilderStep) (id : Nat) :
    (Snapshot.ofSteps fields steps id).Holds (.ofList fields)
      (Parts.ofSteps (.ofList fields) steps).all := by
  have h := holds_run fields steps
  have hcommit := h.step .commit
  have hall : ((Parts.ofSteps (.ofList fields) steps).step (.ofList fields) .commit).closed =
      (Parts.ofSteps (.ofList fields) steps).all := by
    rw [Parts.step, Parts.all]
    split <;> rfl
  rw [Snapshot.Holds, Snapshot.ofSteps, build]
  have hfinished := hcommit.finished
  rw [hall] at hfinished
  exact holds_freeze hfinished id 0 0

end IndexBuilder

end TextSearch
