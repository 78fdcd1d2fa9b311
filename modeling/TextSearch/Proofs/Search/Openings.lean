import TextSearch.Proofs.Search.Opening

/-!
# Openings

Opening a bound query in a segment may fail, where places are asked for that are not
stored, or find that the segment cannot have any of its documents. `Query.opening` says
which of these is the case from the query and the segment alone, and
`Weighing.opening_of_yields_weight` that it is right, whether scores are needed or not.
-/

namespace TextSearch

/-! ### What can be opened -/

/-- Whether the places of a term can be opened in a segment; where the field has no places that is
a fault. -/
def Segment.opensPlaces (g : Segment) (t : Term) : Except Fault Bool :=
  if (g.entry? t).isSome then
    if (g.options? t.field).any (·.hasPositions) then .ok true else .error (.spansNotIndexed t)
  else .ok false

namespace Query

mutual

/-- Whether the places of a grounded query can be opened in a segment, unless that fails. -/
def spanOpening (g : Segment) : Query → Except Fault Bool
  | spanTerm t => g.opensPlaces t
  | frequentSpanTerm t _ _ => g.opensPlaces t
  | spanOr _ qs => spanOpeningAny g qs
  | spanNear _ qs _ _ => spanOpeningAll g qs
  | withoutPayload q => spanOpening g q
  | frequentSpan q _ => spanOpening g q
  | _ => .ok false

/-- Whether the places of some of several queries can be opened; all of them are tried. -/
def spanOpeningAny (g : Segment) : List Query → Except Fault Bool
  | [] => .ok false
  | q :: rest => do
    let first ← spanOpening g q
    let others ← spanOpeningAny g rest
    pure (first || others)

/-- Whether the places of all of several queries can be opened, up to the first one that has
none. -/
def spanOpeningAll (g : Segment) : List Query → Except Fault Bool
  | [] => .ok true
  | q :: rest => do
    match ← spanOpening g q with
    | false => pure false
    | true => spanOpeningAll g rest

end

mutual

/-- Whether a grounded query can be opened in a segment, unless that fails. -/
def opening (g : Segment) : Query → Except Fault Bool
  | term t => .ok (g.entry? t).isSome
  | markedTerm t _ => .ok (g.entry? t).isSome
  | frequentTerm t _ _ => .ok (g.entry? t).isSome
  | boost q _ => opening g q
  | boolean clauses => (·.getD false) <$> clausesOpening g clauses
  | q => q.spanOpening g

/-- Whether some clause that does not exclude can be opened in a segment; nothing where a clause
that has to match cannot be. -/
def clausesOpening (g : Segment) : List (Occur × Query) → Except Fault (Option Bool)
  | [] => .ok (some false)
  | (o, q) :: rest => do
    match ← opening g q with
    | false => if o = .must then pure none else clausesOpening g rest
    | true => pure ((← clausesOpening g rest).map fun others => o != .mustNot || others)

end

theorem opening_of_sought? (g : Segment) {q : Query} {t : Term} {least : Option Threshold}
    (h : q.sought? = some (t, least)) : q.opening g = .ok (g.entry? t).isSome := by
  cases q <;> cases h <;> rfl

theorem opening_of_isSpan (g : Segment) {q : Query} (h : q.isSpan = true) :
    q.opening g = q.spanOpening g := by
  cases q <;> first | rfl | cases h

end Query

namespace Weighing

variable {s : Snapshot} {counted : Bool}

theorem isSome_openTerm (hs : s.Numbered) {g : Segment} (hg : g ∈ s.segments) {t : Term}
    {l : TermLookup} (hserves : LookupCache.Serves s t counted l) (least : Option Threshold)
    (detail : Detail) :
    Option.isSome <$> SpanWeight.openTerm t l least g detail = g.opensPlaces t := by
  rw [SpanWeight.openTerm, hserves.1.get hs hg, Segment.opensPlaces]
  rcases g.entry?_cases t with ⟨-, hentry⟩ | ⟨ps, entry, f, -, hentry, hf, hpostings⟩
  · rw [hentry]
    rfl
  · have hoptions : g.options? t.field = some f.options := by
      rw [Segment.options?, hf]
      rfl
    rw [hentry, hoptions]
    cases hpositions : f.options.hasPositions with
    | false => simp [bind, Except.bind, hpositions, Functor.map, Except.map]
    | true =>
      have hsupports : f.options.supports (detail.max .positions) = true := by
        cases detail <;> simp [IndexOptions.supports, Detail.max, hpositions]
      simp [bind, Except.bind, hpositions, hpostings, hsupports, Functor.map, Except.map, pure,
        Except.pure]

/-- A weight can be opened where its query says, to any detail. -/
def OpensAs (s : Snapshot) (q : Query) (w : SpanWeight) : Prop :=
  ∀ g ∈ s.segments, ∀ detail, Option.isSome <$> w.spans g detail = q.spanOpening g

theorem opening_spansAny {g : Segment} {detail : Detail} {ws : List SpanWeight} {qs : List Query}
    (h : List.Forall₂ (fun w q => Option.isSome <$> w.spans g detail = Query.spanOpening g q) ws qs) :
    (fun cs => !cs.isEmpty) <$> SpanWeight.spansAny g detail ws = Query.spanOpeningAny g qs := by
  induction h with
  | nil => rfl
  | @cons w q ws qs hw _ ih =>
    rw [SpanWeight.spansAny, Query.spanOpeningAny, ← hw, ← ih]
    cases w.spans g detail with
    | error => rfl
    | ok opened =>
      cases SpanWeight.spansAny g detail ws with
      | error => rfl
      | ok cs => cases opened <;> rfl

theorem opening_spansAll {g : Segment} {detail : Detail} {ws : List SpanWeight} {qs : List Query}
    (h : List.Forall₂ (fun w q => Option.isSome <$> w.spans g detail = Query.spanOpening g q) ws qs) :
    Option.isSome <$> SpanWeight.spansAll g detail ws = Query.spanOpeningAll g qs := by
  induction h with
  | nil => rfl
  | @cons w q ws qs hw _ ih =>
    rw [SpanWeight.spansAll, Query.spanOpeningAll, ← hw, ← ih]
    cases w.spans g detail with
    | error => rfl
    | ok opened =>
      cases opened with
      | none => rfl
      | some c =>
        cases SpanWeight.spansAll g detail ws with
        | error => rfl
        | ok cs => cases cs <;> rfl

theorem opensAs_union {qs : List Query} {ws : List SpanWeight}
    (h : List.Forall₂ (fun w q => OpensAs s q w) ws qs) (q : Query) (field : String) :
    OpensAs s (.spanOr field qs) (.union q field ws) := by
  intro g hg detail
  rw [Query.spanOpening, ← opening_spansAny (h.imp fun _ _ hw => hw g hg detail), SpanWeight.spans]
  cases SpanWeight.spansAny g detail ws with
  | error => rfl
  | ok cs =>
    rcases cs with _ | ⟨_, _ | ⟨_, _⟩⟩ <;> rfl

theorem opensAs_near {qs : List Query} {ws : List SpanWeight}
    (h : List.Forall₂ (fun w q => OpensAs s q w) ws qs) (q : Query) (field : String)
    (slop : UInt32) (inOrder : Bool) :
    OpensAs s (.spanNear field qs slop inOrder) (.near q field ws slop inOrder) := by
  intro g hg detail
  rw [Query.spanOpening, ← opening_spansAll (h.imp fun _ _ hw => hw g hg detail), SpanWeight.spans]
  cases SpanWeight.spansAll g detail ws with
  | error => rfl
  | ok cs => cases cs <;> rfl

theorem opensAs_filtered {q r : Query} {w : SpanWeight} (h : OpensAs s q w) (q' : Query)
    (filter : SpanFilter) (hopening : ∀ g, r.spanOpening g = q.spanOpening g) :
    OpensAs s r (.filtered q' w filter) := by
  intro g hg detail
  rw [hopening, ← h g hg (if filter = .emptyPayload then detail.max .payloads else detail),
    SpanWeight.spans]
  cases w.spans g (if filter = .emptyPayload then detail.max .payloads else detail) with
  | error => rfl
  | ok opened => cases opened <;> rfl

theorem closed_opensAs (hs : s.Numbered) : ClosedSpans s counted (OpensAs s) where
  term hserves _ hg detail := isSome_openTerm hs hg hserves none detail
  frequentTerm hserves _ hg detail := isSome_openTerm hs hg hserves (some _) detail
  union hall := opensAs_union hall _ _
  near hall := opensAs_near hall _ _ _ _
  withoutPayload hinner := opensAs_filtered hinner _ _ fun _ => rfl
  frequentSpan hinner := opensAs_filtered hinner _ _ fun _ => rfl

/-- Binding a span query gives a weight that can be opened where the query says. -/
theorem opensAs_of_yields_spanWeight (hs : s.Numbered) (q : Query) {c c' : LookupCache}
    {w : SpanWeight} (hq : q.Honest s) (hc : c.Sound s)
    (h : Yields (spanWeight s counted q) c w c') : OpensAs s q w :=
  (spanWeight_induction (closed_opensAs hs) q hq hc h).1

end Weighing

variable {R : Type} [ScoreNumber R]

/-! ### Matchers -/

namespace TrailParts

theorem isSome_anyOf (ts : List (Trail (Merit R))) : (anyOf ts).isSome = !ts.isEmpty := by
  match ts with
  | [] => rfl
  | [_] => rfl
  | _ :: _ :: _ => rfl

theorem isSome_allOf (ts : List (Trail (Merit R))) : (allOf ts).isSome = !ts.isEmpty := by
  match ts with
  | [] => rfl
  | [_] => rfl
  | _ :: _ :: _ => rfl

/-- A combination comes to something if some clause does that does not exclude. -/
theorem isSome_combine (p : TrailParts R) (scored : Bool) :
    (p.combine scored).isSome = (!p.required.isEmpty || !p.optional.isEmpty) := by
  rw [combine, Option.isSome_map, positive, ← isSome_allOf, ← isSome_anyOf]
  cases allOf p.required <;> cases anyOf p.optional <;> rfl

end TrailParts

namespace MatcherParts

omit [ScoreNumber R] in
/-- Whether some part does not exclude. -/
def hasPositive (p : MatcherParts R) : Bool := !p.required.isEmpty || !p.optional.isEmpty

omit [ScoreNumber R] in
theorem hasPositive_add (p : MatcherParts R) (o : Occur) (m : Matcher R) :
    (p.add o m).hasPositive = (o != .mustNot || p.hasPositive) := by
  cases o <;> simp [hasPositive, add]

/-- Matchers that follow trails can be combined if one of them does not exclude. -/
theorem isSome_combine {p : MatcherParts R} {q : TrailParts R} (h : Walks p q) (scored : Bool) :
    Option.isSome <$> p.combine scored = .ok p.hasPositive := by
  obtain ⟨o, ho, hrel⟩ := rel_combine h scored
  have hsome : o.isSome = (q.combine scored).isSome := by
    generalize q.combine scored = t at hrel
    cases hrel <;> rfl
  have hempty : ∀ {ms : List (Matcher R)} {ts : List (Trail (Merit R))},
      List.Forall₂ Matcher.Walks ms ts → ms.isEmpty = ts.isEmpty := by
    intro ms ts h
    cases h <;> rfl
  rw [ho, hasPositive, hempty h.required, hempty h.optional, ← TrailParts.isSome_combine q scored,
    ← hsome]
  rfl

end MatcherParts

namespace Weighing

variable {s : Snapshot}

omit [ScoreNumber R] in
theorem opening_term (hs : s.Numbered) {g : Segment} (hg : g ∈ s.segments) {t : Term}
    {l : TermLookup} {counted : Bool} (hserves : LookupCache.Serves s t counted l) (q : Query)
    (scorer : Option (BM25 R)) (least : Option Threshold) :
    Option.isSome <$> (Weight.term q t l scorer least).matcher g = .ok (g.entry? t).isSome := by
  rw [Weight.matcher, Weight.openTerm, hserves.1.get hs hg]
  rcases g.entry?_cases t with ⟨-, hentry⟩ | ⟨ps, entry, f, -, hentry, -, hpostings⟩
  · rw [hentry]
    rfl
  · have hsupports : f.options.supports .frequencies = true := rfl
    rw [hentry]
    simp only [bind, Except.bind, hpostings, hsupports, if_true, pure, Except.pure]
    rfl

theorem opening_spans (hs : s.Numbered) (hsound : ∀ g ∈ s.segments, g.Sound) {q : Query}
    {scored : Bool} {w : SpanWeight} (hw : Spans s scored q w) {g : Segment} (hg : g ∈ s.segments)
    (q' : Query) (scorer : Option (BM25 R)) :
    Option.isSome <$> (Weight.spans q' w scorer).matcher g = q.spanOpening g := by
  have hbound := hw.bound hs hsound
  obtain ⟨hq, c, c', hc, hyields⟩ := hw
  rw [← opensAs_of_yields_spanWeight hs q hq hc hyields g hg .positions, Weight.matcher,
    Weight.openSpans]
  cases hopened : w.spans g .positions with
  | error => rfl
  | ok opened =>
    have hrel := hbound.opens g hg _ opened hopened
    generalize q.spanSource? g .positions = source at hrel
    cases hrel with
    | none => rfl
    | some hwalks =>
      obtain ⟨m, hm, -⟩ := Matcher.walks_ofSpans hwalks scorer
      simp only [bind, Except.bind, hm]
      rfl

omit [ScoreNumber R] in
/-- Bound clauses can be opened where the clauses say if each of them can. -/
theorem clausesOpening_of_forall₂ {g : Segment} {clauses : List (Occur × Query)}
    {ws : List (Occur × Weight R)}
    (h : List.Forall₂ (fun c w => c.1 = w.1 ∧ Option.isSome <$> w.2.matcher g = c.2.opening g)
      clauses ws) :
    (Option.map MatcherParts.hasPositive) <$> Weight.parts g ws =
      Query.clausesOpening g clauses := by
  induction h with
  | nil => rfl
  | @cons c w rest ws hfirst _ ih =>
    obtain ⟨o, q⟩ := c
    obtain ⟨o', w⟩ := w
    obtain ⟨rfl, hw⟩ := hfirst
    have hw : Option.isSome <$> w.matcher g = q.opening g := hw
    rw [Weight.parts, Query.clausesOpening, ← hw, ← ih]
    cases w.matcher g with
    | error => rfl
    | ok opened =>
      cases opened with
      | none =>
        by_cases ho : o = .must
        · simp [ho, bind, Except.bind, Functor.map, Except.map, pure, Except.pure]
        · simp [ho, bind, Except.bind, Functor.map, Except.map]
      | some m =>
        cases Weight.parts g ws with
        | error => rfl
        | ok parts =>
          cases parts with
          | none => rfl
          | some p =>
            have hadd := MatcherParts.hasPositive_add p o m
            simp [bind, Except.bind, Functor.map, Except.map, pure, Except.pure, hadd]

theorem opening_boolean {g : Segment} {scored : Bool} {boost : R}
    {clauses : List (Occur × Query)} {ws : List (Occur × Weight R)}
    (hopens : OpensParts s g scored boost clauses ws)
    (hopening : (Option.map MatcherParts.hasPositive) <$> Weight.parts g ws =
      Query.clausesOpening g clauses) (q : Query) :
    Option.isSome <$> (Weight.boolean q ws scored).matcher g =
      (Query.boolean clauses).opening g := by
  rw [Weight.matcher, Query.opening, ← hopening]
  cases hparts : Weight.parts g ws with
  | error => rfl
  | ok opened =>
    have hrel := hopens opened hparts
    cases opened with
    | none => rfl
    | some p =>
      generalize Query.trailParts? s g scored boost clauses = tp at hrel
      cases hrel with
      | some hwalks => exact MatcherParts.isSome_combine hwalks scored

theorem closed_opening (hs : s.Numbered) (hsound : ∀ g ∈ s.segments, g.Sound) :
    Closed s fun scored boost q (w : Weight R) => ∀ g ∈ s.segments,
      Opens s g scored boost q w ∧ Option.isSome <$> w.matcher g = q.opening g where
  term hsought hserves g hg := by
    refine ⟨(closed_opens hs hsound).term hsought hserves g hg, ?_⟩
    rw [opening_term hs hg hserves, Query.opening_of_sought? g hsought]
  spans hspan hw g hg := by
    refine ⟨(closed_opens hs hsound).spans hspan hw g hg, ?_⟩
    rw [opening_spans hs hsound hw hg, Query.opening_of_isSpan g hspan]
  boost hw := hw
  boolean hall g hg := by
    have hopens := opensParts_of_forall₂ (hall.imp fun _ _ h => ⟨h.1, (h.2 g hg).1⟩)
    have hopening := clausesOpening_of_forall₂ (hall.imp fun _ _ h => ⟨h.1, (h.2 g hg).2⟩)
    exact ⟨opens_boolean hopens _, opening_boolean hopens hopening _⟩
  nothing g hg := ⟨(closed_opens hs hsound).nothing g hg, rfl⟩

/-- Binding a query gives a weight that can be opened where the query says, whether scores are
needed or not. -/
theorem opening_of_yields_weight (hs : s.Numbered) (hsound : ∀ g ∈ s.segments, g.Sound) (q : Query)
    {scored : Bool} {boost : R} {c c' : LookupCache} {w : Weight R} (hq : q.Honest s)
    (hc : c.Sound s) (h : Yields (weight s scored boost q) c w c') :
    ∀ g ∈ s.segments, Option.isSome <$> w.matcher g = q.opening g :=
  fun g hg => ((weight_induction (closed_opening hs hsound) hs hsound q hq hc h).1 g hg).2

end Weighing

end TextSearch
