import TextSearch.Proofs.Cursor.SpanTree
import TextSearch.Proofs.Index.Contents
import TextSearch.Proofs.Span.Combinations
import TextSearch.Query.Basic
import TextSearch.Span.Stepper

/-!
# Satisfaction

What a query asks for, said of a single document: its tokens decide whether it
has a term, how often, and at which places, and from that whether it satisfies a
query. Nothing here speaks of segments, cursors or dictionaries. That searches find
the documents that satisfy their query is proved elsewhere.
-/

namespace TextSearch

namespace Document

/-- The occurrences of a term, with what its field keeps of them. -/
def occurrences (declared : Dictionary IndexOptions) (doc : Document) (t : Term) :
    List Occurrence :=
  ((doc.tokens t.field).filter fun token => token.text == t.text).map
    (SegmentBuffer.keep (declaredOptions declared t.field))

/-- How often a term occurs, as far as its field counts that: a field that stores nothing but
documents reads as one occurrence. -/
def frequency (declared : Dictionary IndexOptions) (doc : Document) (t : Term) : Nat :=
  if declaredOptions declared t.field = .documents then 1 else (doc.occurrences declared t).length

/-- Whether a term occurs, and often enough where a minimum is asked for. -/
def reaches (declared : Dictionary IndexOptions) (doc : Document) (least : Option Threshold)
    (t : Term) : Bool :=
  !(doc.occurrences declared t).isEmpty &&
    least.all fun least => decide (least.value ≤ doc.frequency declared t)

/-- The texts that a document has in a field, each once. -/
def texts (field : String) (doc : Document) : List String :=
  ((doc.tokens field).map (·.text)).dedup

/-- The places of a term that occurs often enough: a position for every occurrence, with its
payload or without. -/
def termPlaces (declared : Dictionary IndexOptions) (doc : Document) (payloads : Bool)
    (least : Option Threshold) (t : Term) : List Span :=
  if (declaredOptions declared t.field).hasPositions && doc.reaches declared least t then
    (doc.occurrences declared t).map fun o =>
      Span.ofOccurrence (if payloads then o else o.withoutPayload)
  else []

end Document

namespace Occur

/-- Whether a clause that plays a part leaves a document in, given whether the document satisfies
the clause. -/
def allows : Occur → Bool → Bool
  | must, satisfied => satisfied
  | should, _ => true
  | mustNot, satisfied => !satisfied

/-- Whether a clause that plays a part speaks for a document. -/
def backs : Occur → Bool → Bool
  | must, _ => true
  | should, satisfied => satisfied
  | mustNot, _ => false

/-- Whether a boolean combination is satisfied, given which of its clauses are: all of them leave
the document in, and some clause speaks for it. -/
def admits (clauses : List (Occur × Bool)) : Bool :=
  (clauses.all fun c => c.1.allows c.2) && clauses.any fun c => c.1.backs c.2

end Occur

namespace Query

mutual

/-- The places of a span query in a document. Payloads can be seen only below a check of
payloads. -/
def places (declared : Dictionary IndexOptions) (doc : Document) (payloads : Bool) :
    Query → List Span
  | spanTerm t => doc.termPlaces declared payloads none t
  | frequentSpanTerm t least _ => doc.termPlaces declared payloads (some least) t
  | spanMultiTerm m =>
    ((doc.texts m.field).filter m.selects).flatMap fun text =>
      doc.termPlaces declared payloads m.least ⟨m.field, text⟩
  | spanOr _ clauses => (placesAll declared doc payloads clauses).flatten
  | spanNear _ clauses slop inOrder =>
    Span.combinations slop inOrder (placesAll declared doc payloads clauses)
  | withoutPayload q => (places declared doc true q).filter (·.hasEmptyPayload)
  | frequentSpan q least =>
    let ss := places declared doc payloads q
    if least.value ≤ ss.length then ss else []
  | _ => []

/-- The places of several span queries. -/
def placesAll (declared : Dictionary IndexOptions) (doc : Document) (payloads : Bool) :
    List Query → List (List Span)
  | [] => []
  | q :: rest => places declared doc payloads q :: placesAll declared doc payloads rest

end

mutual

/-- Whether a document satisfies a query that defers nothing. -/
def satisfiedBy (declared : Dictionary IndexOptions) (doc : Document) : Query → Bool
  | term t => doc.reaches declared none t
  | markedTerm t _ => doc.reaches declared none t
  | frequentTerm t least _ => doc.reaches declared (some least) t
  | multiTerm m =>
    (doc.texts m.field).any fun text =>
      m.selects text && doc.reaches declared m.least ⟨m.field, text⟩
  | boost q _ => satisfiedBy declared doc q
  | boolean clauses => Occur.admits (clausesSatisfiedBy declared doc clauses)
  | nothing => false
  | q => !(q.places declared doc false).isEmpty

/-- Which clauses a document satisfies. -/
def clausesSatisfiedBy (declared : Dictionary IndexOptions) (doc : Document) :
    List (Occur × Query) → List (Occur × Bool)
  | [] => []
  | (o, q) :: rest => (o, satisfiedBy declared doc q) :: clausesSatisfiedBy declared doc rest

end

mutual

/-- Whether a query has no deferred query in it. -/
def defersNothing : Query → Bool
  | deferred .. => false
  | boost q _ => q.defersNothing
  | boolean clauses => clausesDeferNothing clauses
  | spanOr _ clauses => allDeferNothing clauses
  | spanNear _ clauses _ _ => allDeferNothing clauses
  | withoutPayload q => q.defersNothing
  | frequentSpan q _ => q.defersNothing
  | _ => true

/-- Whether no clause has a deferred query in it. -/
def clausesDeferNothing : List (Occur × Query) → Bool
  | [] => true
  | (_, q) :: rest => q.defersNothing && clausesDeferNothing rest

/-- Whether no query of several has a deferred query in it. -/
def allDeferNothing : List Query → Bool
  | [] => true
  | q :: rest => q.defersNothing && allDeferNothing rest

end

end Query

/-! ### What documents say about terms -/

open SegmentBuffer

namespace Document

variable {declared : Dictionary IndexOptions} {doc : Document} {t : Term}

/-- A document has a posting for the terms that occur in it. -/
theorem posting?_eq (declared : Dictionary IndexOptions) (doc : Document) (t : Term) :
    doc.posting? declared t = (nonEmpty? (doc.occurrences declared t)).map
      (posting (declaredOptions declared t.field) 0) := rfl

theorem frequency_posting {os : List Occurrence} (hos : doc.occurrences declared t = os) :
    (posting (declaredOptions declared t.field) 0 os).frequency = doc.frequency declared t := by
  rw [frequency, hos]
  cases declaredOptions declared t.field with
  | documents => rfl
  | frequencies => rfl
  | positions => exact List.length_mergeSort os
  | payloads => exact List.length_mergeSort os

/-- How often a term occurs can be read off its posting. -/
theorem frequency_of_posting? {p : Posting} (h : doc.posting? declared t = some p) :
    p.frequency = doc.frequency declared t := by
  obtain ⟨os, hos, rfl⟩ := Option.map_eq_some_iff.1 h
  exact frequency_posting (nonEmpty?_eq_some_iff.1 hos).1

/-- Whether a term is frequent enough in a document can be read off its posting. -/
theorem any_passes_posting? (declared : Dictionary IndexOptions) (doc : Document) (t : Term)
    (least : Option Threshold) :
    (doc.posting? declared t).any (passes least.toList) = doc.reaches declared least t := by
  rw [posting?_eq, reaches]
  cases hos : doc.occurrences declared t with
  | nil => rfl
  | cons o os =>
    have hfrequency := frequency_posting hos
    rw [nonEmpty?_cons, Option.map_some, Option.any_some]
    cases least with
    | none => rfl
    | some least => simp [passes, hfrequency]

/-- The places of a term can be read off its posting. -/
theorem postingSpans_perm_termPlaces (declared : Dictionary IndexOptions) (doc : Document)
    (detail : Detail) (least : Option Threshold) (t : Term) :
    ((((doc.posting? declared t).filter (passes least.toList)).map
      (SpanCursor.postingSpans detail)).getD []).Perm
        (doc.termPlaces declared detail.hasPayloads least t) := by
  have hreaches := doc.any_passes_posting? declared t least
  rw [posting?_eq] at hreaches ⊢
  rw [termPlaces, ← hreaches]
  cases hos : doc.occurrences declared t with
  | nil => simp
  | cons o os =>
    rw [nonEmpty?_cons, Option.map_some, Option.any_some, Option.filter_some]
    by_cases hpasses : passes least.toList
        (posting (declaredOptions declared t.field) 0 (o :: os)) = true
    · rw [if_pos hpasses, Option.map_some, Option.getD_some, hpasses, Bool.and_true]
      refine (Span.sorted_perm _).trans ?_
      have hlist : ∀ os : List Occurrence,
          ((os.mergeSort fun a b => decide (a.position ≤ b.position))).Perm os :=
        fun os => List.mergeSort_perm os _
      have hread : ∀ ps os : List Occurrence, ps.Perm os →
          ((if detail.hasPayloads then ps else ps.map (·.withoutPayload)).map
            Span.ofOccurrence).Perm (os.map fun o =>
              Span.ofOccurrence (if detail.hasPayloads then o else o.withoutPayload)) := by
        intro ps os hperm
        cases detail.hasPayloads with
        | true => exact hperm.map _
        | false =>
          simp only [Bool.false_eq_true, if_false, List.map_map]
          exact hperm.map _
      cases declaredOptions declared t.field with
      | documents => exact hread [] [] .nil
      | frequencies => exact hread [] [] .nil
      | positions => exact hread _ _ (hlist (o :: os))
      | payloads => exact hread _ _ (hlist (o :: os))
    · rw [if_neg hpasses, Bool.eq_false_iff.2 hpasses, Bool.and_false]
      exact .nil

/-- The texts of a document are those of the terms that occur in it. -/
theorem mem_texts {declared : Dictionary IndexOptions} {doc : Document} {field text : String} :
    text ∈ doc.texts field ↔ doc.occurrences declared ⟨field, text⟩ ≠ [] := by
  rw [texts, List.mem_dedup, occurrences, ne_eq, List.map_eq_nil_iff, List.filter_eq_nil_iff]
  simp

/-- A term that does not occur has no places. -/
theorem mem_texts_of_termPlaces {payloads : Bool} {least : Option Threshold} {field text : String}
    (h : doc.termPlaces declared payloads least ⟨field, text⟩ ≠ []) : text ∈ doc.texts field := by
  have hmem : text ∈ doc.texts field ↔ doc.occurrences declared ⟨field, text⟩ ≠ [] := mem_texts
  refine hmem.2 fun hnil => h ?_
  rw [termPlaces, hnil]
  split <;> rfl

end Document

end TextSearch
