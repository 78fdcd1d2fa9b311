import TextSearch.Proofs.Cursor.Documents
import TextSearch.Proofs.Search.Opening

/-!
# Documents whatever the scores

Which documents of a segment a query visits depends on the segment alone: not on whether
scores are needed, on how they are computed, or on what the snapshot knows beyond the
segment. Main statement: `Query.sameDocs_trail?`.
-/

namespace TextSearch

open Trail

namespace TrailParts

variable {R S : Type}

/-- Parts whose trails visit the same documents, one by one. -/
structure SameDocs (p : TrailParts R) (q : TrailParts S) : Prop where
  /-- What has to match. -/
  required : List.Forall₂ Trail.SameDocs p.required q.required
  /-- What may match. -/
  optional : List.Forall₂ Trail.SameDocs p.optional q.optional
  /-- What must not match. -/
  prohibited : List.Forall₂ Trail.SameDocs p.prohibited q.prohibited

theorem SameDocs.add {p : TrailParts R} {q : TrailParts S} (h : SameDocs p q) (o : Occur)
    {t : Trail (Merit R)} {u : Trail (Merit S)} (htu : Trail.SameDocs t u) :
    SameDocs (p.add o t) (q.add o u) := by
  cases o with
  | must => exact ⟨.cons htu h.required, h.optional, h.prohibited⟩
  | should => exact ⟨h.required, .cons htu h.optional, h.prohibited⟩
  | mustNot => exact ⟨h.required, h.optional, .cons htu h.prohibited⟩

theorem sameDocs_showing {β γ δ ε : Type} {t : Trail β} {u : Trail γ} (h : Trail.SameDocs t u)
    (f : β → δ) (f' : γ → ε) : Trail.SameDocs (t.showing f) (u.showing f') := by
  rwa [Trail.SameDocs, docs_showing, docs_showing]

variable [ScoreNumber R] [ScoreNumber S]

theorem sameDocs_anyOf {ts : List (Trail (Merit R))} {us : List (Trail (Merit S))}
    (h : List.Forall₂ Trail.SameDocs ts us) : Option.Rel Trail.SameDocs (anyOf ts) (anyOf us) := by
  match ts, us, h with
  | [], [], .nil => exact .none
  | [_], [_], .cons htu .nil => exact .some htu
  | _ :: _ :: _, _ :: _ :: _, h => exact .some (sameDocs_showing (Trail.SameDocs.union h) _ _)

theorem sameDocs_allOf {ts : List (Trail (Merit R))} {us : List (Trail (Merit S))}
    (h : List.Forall₂ Trail.SameDocs ts us) : Option.Rel Trail.SameDocs (allOf ts) (allOf us) := by
  match ts, us, h with
  | [], [], .nil => exact .none
  | [_], [_], .cons htu .nil => exact .some htu
  | _ :: _ :: _, _ :: _ :: _, h => exact .some (sameDocs_showing (Trail.SameDocs.meet h) _ _)

/-- What is required visits the same documents with its optional companion as without. -/
theorem SameDocs.positive {p : TrailParts R} {q : TrailParts S} (h : SameDocs p q)
    (scored scored' : Bool) :
    Option.Rel Trail.SameDocs (p.positive scored) (q.positive scored') := by
  have hrequired := sameDocs_allOf h.required
  have hoptional := sameDocs_anyOf h.optional
  rw [TrailParts.positive, TrailParts.positive]
  generalize allOf p.required = rt at hrequired
  generalize allOf q.required = ru at hrequired
  generalize anyOf p.optional = ot at hoptional
  generalize anyOf q.optional = ou at hoptional
  cases hrequired with
  | none => exact hoptional
  | some htu =>
    cases hoptional with
    | none => exact .some htu
    | some => cases scored <;> cases scored' <;> simpa [Trail.SameDocs] using htu

theorem SameDocs.combine {p : TrailParts R} {q : TrailParts S} (h : SameDocs p q)
    (scored scored' : Bool) :
    Option.Rel Trail.SameDocs (p.combine scored) (q.combine scored') := by
  have hpositive := h.positive scored scored'
  rw [TrailParts.combine, TrailParts.combine]
  generalize p.positive scored = pt at hpositive
  generalize q.positive scored' = qt at hpositive
  cases hpositive with
  | none => exact .none
  | some htu =>
    have hprohibited := h.prohibited
    generalize p.prohibited = ns at hprohibited
    generalize q.prohibited = ms at hprohibited
    cases hprohibited with
    | nil => exact .some htu
    | cons hnm hrest => exact .some (htu.without (.cons hnm hrest))

end TrailParts

namespace Query

variable {R S : Type} [ScoreNumber R] [ScoreNumber S]

theorem sameDocs_termTrail? (s s' : Snapshot) (g : Segment) (scored scored' : Bool) (b : R) (b' : S)
    (t : Term) (gates : List Threshold) : Option.Rel Trail.SameDocs
      (termTrail? s g scored b t gates) (termTrail? s' g scored' b' t gates) := by
  rw [termTrail?, termTrail?]
  cases g.postings? t with
  | none => exact .none
  | some ps => exact .some (TrailParts.sameDocs_showing rfl _ _)

omit [ScoreNumber R] [ScoreNumber S] in
theorem sameDocs_spans {g : Segment} {q : Query} {t : Option (Trail (Merit R))}
    {u : Option (Trail (Merit S))} {f : SpanSource → List Span → Merit R}
    {f' : SpanSource → List Span → Merit S}
    (ht : t = (q.spanSource? g .positions).map fun source => source.2.showing (f source))
    (hu : u = (q.spanSource? g .positions).map fun source => source.2.showing (f' source)) :
    Option.Rel Trail.SameDocs t u := by
  rw [ht, hu]
  cases q.spanSource? g .positions with
  | none => exact .none
  | some source => exact .some (TrailParts.sameDocs_showing rfl _ _)

mutual

/-- Which documents a query visits depends neither on whether scores are needed nor on how they
are computed, nor on what the snapshot knows beyond the segment. -/
theorem sameDocs_trail? (s s' : Snapshot) (g : Segment) :
    ∀ (q : Query) (scored scored' : Bool) (b : R) (b' : S),
      Option.Rel Trail.SameDocs (q.trail? s g scored b) (q.trail? s' g scored' b')
  | .term t, _, _, _, _ => sameDocs_termTrail? s s' g _ _ _ _ t []
  | .markedTerm t _, _, _, _, _ => sameDocs_termTrail? s s' g _ _ _ _ t []
  | .frequentTerm t least _, _, _, _, _ => sameDocs_termTrail? s s' g _ _ _ _ t [least]
  | .boost q _, scored, scored', _, _ => sameDocs_trail? s s' g q scored scored' _ _
  | .boolean clauses, scored, scored', b, b' => by
    have hparts := sameDocs_trailParts? s s' g clauses scored scored' b b'
    rw [trail?, trail?]
    generalize trailParts? s g scored b clauses = p at hparts
    generalize trailParts? s' g scored' b' clauses = p' at hparts
    cases hparts with
    | none => exact .none
    | some h => exact h.combine scored scored'
  | .spanTerm _, _, _, _, _ => sameDocs_spans rfl rfl
  | .frequentSpanTerm _ _ _, _, _, _, _ => sameDocs_spans rfl rfl
  | .spanOr _ _, _, _, _, _ => sameDocs_spans rfl rfl
  | .spanNear _ _ _ _, _, _, _, _ => sameDocs_spans rfl rfl
  | .withoutPayload _, _, _, _, _ => sameDocs_spans rfl rfl
  | .frequentSpan _ _, _, _, _, _ => sameDocs_spans rfl rfl
  | .multiTerm _, _, _, _, _ => .none
  | .spanMultiTerm _, _, _, _, _ => .none
  | .deferred _ _, _, _, _, _ => .none
  | .nothing, _, _, _, _ => .none

/-- The same for clauses, part by part. -/
theorem sameDocs_trailParts? (s s' : Snapshot) (g : Segment) :
    ∀ (clauses : List (Occur × Query)) (scored scored' : Bool) (b : R) (b' : S),
      Option.Rel TrailParts.SameDocs (trailParts? s g scored b clauses)
        (trailParts? s' g scored' b' clauses)
  | [], _, _, _, _ => .some ⟨.nil, .nil, .nil⟩
  | (o, q) :: rest, scored, scored', b, b' => by
    have hfirst := sameDocs_trail? s s' g q (if o = .mustNot then false else scored)
      (if o = .mustNot then false else scored') b b'
    have hrest := sameDocs_trailParts? s s' g rest scored scored' b b'
    rw [trailParts?, trailParts?]
    generalize q.trail? s g (if o = .mustNot then false else scored) b = t at hfirst
    generalize q.trail? s' g (if o = .mustNot then false else scored') b' = u at hfirst
    generalize trailParts? s g scored b rest = p at hrest
    generalize trailParts? s' g scored' b' rest = p' at hrest
    cases hfirst with
    | none =>
      by_cases ho : o = .must
      · simp only [if_pos ho]
        exact .none
      · simp only [if_neg ho]
        exact hrest
    | some htu =>
      cases hrest with
      | none => exact .none
      | some h => exact .some (h.add o htu)

end

end Query

end TextSearch
