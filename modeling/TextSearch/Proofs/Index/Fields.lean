import TextSearch.Index.Builder
import TextSearch.Proofs.Dictionary

/-!
# What fields hold

The postings of a field are what was added to it: for every document a list of
tokens, in the order in which they were added. `SegmentBuffer.holds_extend` says
that adding one more list of tokens does just that.
-/

namespace TextSearch

namespace SegmentBuffer

/-- What a field keeps of those tokens that have a text. -/
def occurrencesOf (options : IndexOptions) (tokens : List Token) (text : String) :
    List Occurrence :=
  (tokens.filter fun t => t.text == text).map (keep options)

/-- The posting of a document for a text, if its tokens have the text. -/
def termPosting? (options : IndexOptions) (doc : Nat) (tokens : List Token) (text : String) :
    Option Posting :=
  (nonEmpty? (occurrencesOf options tokens text)).map (posting options doc)

theorem get?_group (options : IndexOptions) (tokens : List Token) (text : String) :
    (group options tokens).get? text = nonEmpty? (occurrencesOf options tokens text) := by
  have hfold : ∀ (tokens : List Token) (d : Dictionary (List Occurrence)) (os : List Occurrence),
      d.get? text = nonEmpty? os →
      (tokens.foldl (fun d t => d.alter t.text fun os => os.getD [] ++ [keep options t]) d).get?
        text = nonEmpty? (os ++ occurrencesOf options tokens text) := by
    intro tokens
    induction tokens with
    | nil =>
      intro d os h
      simpa [occurrencesOf] using h
    | cons t tokens ih =>
      intro d os h
      rw [List.foldl_cons]
      by_cases ht : t.text = text
      · have hone : (d.alter t.text fun os => os.getD [] ++ [keep options t]).get? text =
            nonEmpty? (os ++ [keep options t]) := by
          rw [Dictionary.get?_alter, if_pos ht.symm, ht, h, getD_nonEmpty?, nonEmpty?_concat]
        rw [ih _ _ hone]
        simp [occurrencesOf, ht]
      · have hone : (d.alter t.text fun os => os.getD [] ++ [keep options t]).get? text =
            nonEmpty? os := by
          rw [Dictionary.get?_alter, if_neg (Ne.symm ht), h]
        rw [ih _ _ hone]
        simp [occurrencesOf, ht]
  exact hfold tokens .empty [] rfl

end SegmentBuffer

open SegmentBuffer

/-- A field holds what was added to it: lists of tokens, each for a document. -/
structure FieldPostings.Holds (options : IndexOptions) (added : List (Nat × List Token))
    (f : FieldPostings) : Prop where
  /-- The field stores what it was declared to store. -/
  stored : f.options = options
  /-- The postings of every text are those of the added lists. -/
  terms : ∀ text, f.terms.get? text =
    nonEmpty? (added.filterMap fun a => termPosting? options a.1 a.2 text)
  /-- Every added list was counted. -/
  docCount : f.docCount = added.length
  /-- Every token was counted. -/
  tokenCount : f.tokenCount = total (added.map (·.2.length))

namespace SegmentBuffer

/-- The postings of a text once a document was added. -/
theorem get?_extend (options : IndexOptions) (doc : Nat) (tokens : List Token)
    (f : Option FieldPostings) (text : String) :
    (extend options doc tokens f).terms.get? text =
      ((termPosting? options doc tokens text).elim (f.bind (·.terms.get? text)) fun p =>
        some (((f.bind (·.terms.get? text)).getD []) ++ [p])) := by
  have hfold := Dictionary.get?_foldl_alter
    (fun (os : List Occurrence) (ps : Option (List Posting)) =>
      ps.getD [] ++ [posting options doc os]) text (group options tokens).entries
    (f.getD ⟨options, .empty, 0, 0⟩).terms (group options tokens).ascending
  have hbase : (f.getD ⟨options, .empty, 0, 0⟩).terms.get? text = f.bind (·.terms.get? text) := by
    cases f <;> rfl
  have hgroup : (group options tokens).entries.lookup text =
      nonEmpty? (occurrencesOf options tokens text) := get?_group options tokens text
  rw [hbase, hgroup] at hfold
  rw [termPosting?]
  cases hos : nonEmpty? (occurrencesOf options tokens text) with
  | none =>
    rw [hos] at hfold
    exact hfold
  | some os =>
    rw [hos] at hfold
    exact hfold

/-- What a field of a segment holds; the segment lacks a field to which nothing was added. -/
def FieldHolds (options : IndexOptions) (added : List (Nat × List Token))
    (f : Option FieldPostings) : Prop :=
  f.elim (added = []) fun f => added ≠ [] ∧ f.Holds options added

theorem FieldHolds.cases {options : IndexOptions} {added : List (Nat × List Token)}
    {f : Option FieldPostings} (h : FieldHolds options added f) :
    (f = none ∧ added = []) ∨ ∃ f', f = some f' ∧ added ≠ [] ∧ f'.Holds options added := by
  cases f with
  | none => exact .inl ⟨rfl, h⟩
  | some f => exact .inr ⟨f, rfl, h⟩

theorem FieldHolds.get?_terms {options : IndexOptions} {added : List (Nat × List Token)}
    {f : Option FieldPostings} (h : FieldHolds options added f) (text : String) :
    f.bind (·.terms.get? text) =
      nonEmpty? (added.filterMap fun a => termPosting? options a.1 a.2 text) := by
  rcases h.cases with ⟨rfl, rfl⟩ | ⟨f, rfl, -, hholds⟩
  · rfl
  · exact hholds.terms text

/-- Adding the tokens of a document adds them to what the field holds. -/
theorem holds_extend {options : IndexOptions} {added : List (Nat × List Token)}
    {f : Option FieldPostings} (h : FieldHolds options added f) (doc : Nat)
    (tokens : List Token) :
    FieldHolds options (added ++ [(doc, tokens)]) (some (extend options doc tokens f)) := by
  refine ⟨by simp, ?stored, ?terms, ?docCount, ?tokenCount⟩
  case stored =>
    cases f with
    | none => rfl
    | some f => exact h.2.stored
  case terms =>
    intro text
    rw [get?_extend, h.get?_terms, List.filterMap_append]
    cases hp : termPosting? options doc tokens text with
    | none => simp [hp]
    | some p => simp [hp]
  case docCount =>
    rw [List.length_append]
    cases f with
    | none =>
      have hnone : added = [] := h
      rw [hnone]
      rfl
    | some f => exact congrArg (· + 1) h.2.docCount
  case tokenCount =>
    rw [List.map_append, total_append]
    cases f with
    | none =>
      have hnone : added = [] := h
      rw [hnone]
      simp [extend]
    | some f => simpa [extend] using h.2.tokenCount

end SegmentBuffer

end TextSearch
