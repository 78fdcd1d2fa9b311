import TextSearch.Proofs.Cursor.PayloadFilters
import TextSearch.Proofs.Search.OpenedCursors
import TextSearch.Proofs.Search.ScreenedGrounding
import TextSearch.Proofs.Search.Yields

/-!
# Payload checks of joined queries

A check of payloads may be made of a union or a proximity, or of each of its clauses. Grounding
takes the two hand in hand, they look the same terms up, and the cursors that they open in a
segment cannot be told apart: `Searcher.check_distributes`. That takes posting lists in which no
document comes twice. One that names a field twice does, and then a union that is checked visits
it twice where the checks of the clauses have already walked on.
-/

namespace TextSearch

/-! ### Comparing what looks terms up -/

namespace Weighing

variable {α β γ δ : Type} {rel : α → β → Prop} {rel' : γ → δ → Prop}

/-- Two actions look up alike, whatever has been looked up before, and concur. -/
def Concurs (rel : α → β → Prop) (m : Weighing α) (m' : Weighing β) : Prop :=
  ∀ c, (m.run.run c).2 = (m'.run.run c).2 ∧ Concur rel (m.run.run c).1 (m'.run.run c).1

theorem concurs_pure {a : α} {b : β} (h : rel a b) : Concurs rel (pure a) (pure b) :=
  fun _ => ⟨rfl, .ok h⟩

theorem concurs_refl {rel : α → α → Prop} (h : ∀ a, rel a a) (m : Weighing α) :
    Concurs rel m m := fun _ => ⟨rfl, concur_refl h _⟩

theorem concurs_lift {x : Except Fault α} {y : Except Fault β} (h : Concur rel x y) :
    Concurs rel (x : Weighing α) (y : Weighing β) := by
  cases h with
  | ok hab => exact concurs_pure hab
  | error e e' => exact fun _ => ⟨rfl, .error e e'⟩

/-- Actions concur if their first parts do, and then what follows. -/
theorem Concurs.bind {m : Weighing α} {m' : Weighing β} (h : Concurs rel m m') {f : α → Weighing γ}
    {f' : β → Weighing δ} (hf : ∀ a b, rel a b → Concurs rel' (f a) (f' b)) :
    Concurs rel' (m >>= f) (m' >>= f') := by
  intro c
  obtain ⟨hcache, hconcur⟩ := h c
  rw [run_bind, run_bind]
  rcases hm : m.run.run c with ⟨x, c₁⟩
  rcases hm' : m'.run.run c with ⟨y, c₁'⟩
  rw [hm, hm'] at hcache hconcur
  simp only at hcache hconcur
  subst hcache
  cases hconcur with
  | ok hab => exact hf _ _ hab c₁
  | error e e' => exact ⟨rfl, .error e e'⟩

end Weighing

/-! ### Weights that are checked one by one -/

namespace SpanWeight

variable {g : Segment} {detail : Detail}

/-- A weight, and a check of it. -/
def Checks (w w' : SpanWeight) : Prop := ∃ q, w' = filtered q w .emptyPayload

variable {ws ws' : List SpanWeight}

theorem spans_checked (q : Query) (w : SpanWeight) : (filtered q w .emptyPayload).spans g detail =
    Option.map (·.filtered .emptyPayload) <$> w.spans g (detail.max .payloads) := by
  rw [spans, if_pos rfl]
  cases w.spans g (detail.max .payloads) <;> rfl

/-- Checked operands of a union are opened as filtered cursors of the operands. -/
theorem spansAny_checked (h : List.Forall₂ Checks ws ws') : spansAny g detail ws' =
    List.map (·.filtered .emptyPayload) <$> spansAny g (detail.max .payloads) ws := by
  induction h with
  | nil => rfl
  | @cons w w' ws ws' hw _ ih =>
    obtain ⟨q, rfl⟩ := hw
    rw [spansAny, spansAny, spans_checked, ih]
    cases w.spans g (detail.max .payloads) with
    | error => rfl
    | ok c =>
      cases spansAny g (detail.max .payloads) ws with
      | error => rfl
      | ok cs => cases c <;> rfl

/-- Checked operands of a proximity are opened as filtered cursors of the operands. -/
theorem spansAll_checked (h : List.Forall₂ Checks ws ws') : spansAll g detail ws' =
    Option.map (List.map (·.filtered .emptyPayload)) <$>
      spansAll g (detail.max .payloads) ws := by
  induction h with
  | nil => rfl
  | @cons w w' ws ws' hw _ ih =>
    obtain ⟨q, rfl⟩ := hw
    rw [spansAll, spansAll, spans_checked, ih]
    cases w.spans g (detail.max .payloads) with
    | error => rfl
    | ok c =>
      cases c with
      | none => rfl
      | some c =>
        cases spansAll g (detail.max .payloads) ws with
        | error => rfl
        | ok cs => cases cs <;> rfl

end SpanWeight

namespace SpanJoin

variable {g : Segment}

/-- The query for joined clauses on a field. -/
def query : SpanJoin → String → List Query → Query
  | union, field, qs => .spanOr field qs
  | proximity slop inOrder, field, qs => .spanNear field qs slop inOrder

/-- Join clauses again that have changed. -/
def built : SpanJoin → String → List Query → Except Fault Query
  | union, field, qs => Query.spanUnion field qs
  | proximity slop inOrder, _, qs => Query.spanProximity qs slop inOrder

/-- The weight of joined clauses on a field. -/
def weight : SpanJoin → Query → String → List SpanWeight → SpanWeight
  | union, q, field, ws => .union q field ws
  | proximity slop inOrder, q, field, ws => .near q field ws slop inOrder

variable (j : SpanJoin)

/-- A check of a weight of joined clauses, and the weight of the clauses checked one by one, open
cursors that cannot be told apart, or none, or both fail. -/
theorem concur_spans (hsound : g.Sound) (honce : g.NamesOnce) {ws ws' : List SpanWeight}
    (h : List.Forall₂ SpanWeight.Checks ws ws') (q q' q'' : Query) (field : String)
    (detail : Detail) :
    Concur (Option.Rel SpanCursor.Indistinct)
      ((SpanWeight.filtered q (j.weight q' field ws) .emptyPayload).spans g detail)
      ((j.weight q'' field ws').spans g detail) := by
  have hsome : ∀ cs : List SpanCursor, (∀ c ∈ cs, c.Fresh) → Option.Rel SpanCursor.Indistinct
      (some ((j.cursor cs).filtered .emptyPayload))
      (some (j.cursor (cs.map (·.filtered .emptyPayload)))) := fun cs hcs =>
    .some (j.indistinct hcs)
  have hclosed := SpanCursor.closed_fresh hsound honce
  rw [SpanWeight.spans_checked]
  cases j with
  | union =>
    rw [weight, weight, SpanWeight.spans, SpanWeight.spans, SpanWeight.spansAny_checked h]
    cases hopened : SpanWeight.spansAny g (detail.max .payloads) ws with
    | error e => exact .error e e
    | ok cs =>
      have hfresh := SpanWeight.closed_spansAny hclosed ws hopened
      cases cs with
      | nil => exact .ok .none
      | cons c others =>
        cases others with
        | nil =>
          -- one operand stands for its union, so that the filter is the same on both sides
          obtain ⟨width, t, hwalks, -⟩ :=
            (hfresh c (List.mem_singleton_self c)).filtered .emptyPayload
          exact .ok (.some (SpanCursor.indistinct_of_walks hwalks hwalks))
        | cons d others => exact .ok (hsome _ hfresh)
  | proximity slop inOrder =>
    rw [weight, weight, SpanWeight.spans, SpanWeight.spans, SpanWeight.spansAll_checked h]
    cases hopened : SpanWeight.spansAll g (detail.max .payloads) ws with
    | error e => exact .error e e
    | ok opened =>
      cases opened with
      | none => exact .ok .none
      | some cs => exact .ok (hsome _ (SpanWeight.closed_spansAll hclosed ws hopened))

/-! ### Binding -/

theorem spanWeight_query (s : Snapshot) (counted : Bool) (field : String) (qs : List Query) :
    Weighing.spanWeight s counted (j.query field qs) = (do
      pure (j.weight (j.query field qs) field (← Weighing.spanWeights s counted qs))) := by
  cases j <;> rfl

/-- Checks of queries look up what the queries look up. -/
theorem concurs_spanWeights (s : Snapshot) (counted : Bool) (qs : List Query) :
    Weighing.Concurs (List.Forall₂ SpanWeight.Checks) (Weighing.spanWeights s counted qs)
      (Weighing.spanWeights s counted (qs.map .withoutPayload)) := by
  induction qs with
  | nil => exact Weighing.concurs_pure .nil
  | cons q qs ih =>
    have hfirst : Weighing.Concurs SpanWeight.Checks (Weighing.spanWeight s counted q)
        (Weighing.spanWeight s counted (.withoutPayload q)) := by
      have hself : Weighing.Concurs (fun w w' => w = w') (Weighing.spanWeight s counted q)
          (Weighing.spanWeight s counted q) := Weighing.concurs_refl (fun _ => rfl) _
      rw [Weighing.spanWeight.eq_def s counted (.withoutPayload q),
        ← bind_pure (Weighing.spanWeight s counted q)]
      refine hself.bind fun w w' heq => ?_
      subst heq
      exact Weighing.concurs_pure ⟨_, rfl⟩
    rw [List.map_cons, Weighing.spanWeights, Weighing.spanWeights]
    exact hfirst.bind fun w w' hw => ih.bind fun ws ws' hws => Weighing.concurs_pure (.cons hw hws)

/-! ### Grounding -/

/-- A check of joined clauses on a field, and the same clauses joined after a check of each. -/
def Distributed (field : String) (q q' : Query) : Prop :=
  ∃ qs : List Query, (∀ c ∈ qs, c.Built ∧ c.spanField? = some field) ∧
    q = .withoutPayload (j.query field qs) ∧ q' = j.query field (qs.map .withoutPayload)

variable {field : String}

theorem built_eq_ok {qs : List Query} (hfield : ∀ q ∈ qs, q.spanField? = some field)
    (hsome : qs ≠ []) : j.built field qs = .ok (j.query field qs) := by
  cases j with
  | union => exact Query.spanUnion_eq_ok.2 ⟨hfield, rfl⟩
  | proximity slop inOrder =>
    exact Query.spanProximity_eq_ok.2 ⟨hsome, field, hfield, rfl⟩

theorem spanField?_query (qs : List Query) : (j.query field qs).spanField? = some field := by
  cases j <;> rfl

/-- Two clauses of which one is a check of the other. -/
def CheckOn (field : String) (q q' : Query) : Prop :=
  q.Built ∧ q.spanField? = some field ∧ q' = .withoutPayload q

theorem map_withoutPayload {qs qs' : List Query} (h : List.Forall₂ (CheckOn field) qs qs') :
    (∀ q ∈ qs, q.Built ∧ q.spanField? = some field) ∧ qs' = qs.map .withoutPayload := by
  induction h with
  | nil => exact ⟨List.forall_mem_nil _, rfl⟩
  | cons hq _ ih =>
    obtain ⟨hbuilt, hfield, rfl⟩ := hq
    obtain ⟨hall, rfl⟩ := ih
    exact ⟨List.forall_mem_cons.2 ⟨⟨hbuilt, hfield⟩, hall⟩, rfl⟩

variable (s : Searcher)

theorem groundStep_withoutPayload (q : Query) : s.groundStep (.withoutPayload q) = (do
    match ← s.groundStep q with
    | none => pure none
    | some q => some <$> q.exactSpan) :=
  Searcher.groundStep.eq_def s (.withoutPayload q)

/-- Joined clauses are joined again from their steps. -/
theorem groundStep_query (qs : List Query) : s.groundStep (j.query field qs) = (do
    match ← changeAll s.groundStep qs with
    | none => pure none
    | some qs => some <$> j.built field qs) := by
  cases j with
  | union => exact s.groundStep_spanOr field qs
  | proximity slop inOrder => exact s.groundStep_spanNear field qs slop inOrder

/-- A check of joined clauses is made again of the clauses that are joined from their steps. -/
theorem groundStep_check (qs : List Query) :
    s.groundStep (.withoutPayload (j.query field qs)) = (do
      match ← changeAll s.groundStep qs with
      | none => pure none
      | some qs => some <$> (j.built field qs >>= Query.exactSpan)) := by
  rw [groundStep_withoutPayload, groundStep_query]
  cases changeAll s.groundStep qs with
  | error => rfl
  | ok o =>
    cases o with
    | none => rfl
    | some qs =>
      show (some <$> j.built field qs) >>= _ = some <$> (j.built field qs >>= Query.exactSpan)
      cases j.built field qs <;> rfl

/-- A check of a clause takes a step with the clause, and stays a check of it. -/
theorem concur_step_check {q : Query} (hq : q.Built) (hfield : q.spanField? = some field) :
    Concur (Option.Rel (CheckOn field)) (s.groundStep q) (s.groundStep (.withoutPayload q)) := by
  rw [groundStep_withoutPayload]
  cases ho : s.groundStep q with
  | error e => exact .error e e
  | ok o =>
    cases o with
    | none => exact .ok .none
    | some next =>
      obtain ⟨hbuilt, hkeeps⟩ := Searcher.StepsTo.built (s := s) ⟨some next, ho, rfl⟩ hq
      have hfield' := hkeeps field hfield
      have hcheck : next.exactSpan = .ok (.withoutPayload next) :=
        Query.exactSpan_eq_ok.2 ⟨⟨field, hfield'⟩, rfl⟩
      show Concur _ _ (some <$> next.exactSpan)
      rw [hcheck]
      exact .ok (.some ⟨hbuilt, hfield', rfl⟩)

/-- Clauses that are checked can be joined again if the clauses can. -/
theorem concur_built {qs qs' : List Query} (h : List.Forall₂ (CheckOn field) qs qs') :
    Concur (j.Distributed field) (j.built field qs >>= Query.exactSpan) (j.built field qs') := by
  obtain ⟨hall, rfl⟩ := map_withoutPayload h
  cases hqs : qs with
  | nil =>
    cases j with
    | union => exact .ok ⟨[], List.forall_mem_nil _, rfl, rfl⟩
    | proximity slop inOrder => exact .error _ _
  | cons first rest =>
    have hsome : qs ≠ [] := by simp [hqs]
    have hsome' : qs.map Query.withoutPayload ≠ [] := by simp [hqs]
    have hfields : ∀ q ∈ qs, q.spanField? = some field := fun q hq => (hall q hq).2
    have hfields' : ∀ q ∈ qs.map Query.withoutPayload, q.spanField? = some field :=
      List.forall_mem_map.2 hfields
    have hcheck : (j.query field qs).exactSpan = .ok (.withoutPayload (j.query field qs)) :=
      Query.exactSpan_eq_ok.2 ⟨⟨field, j.spanField?_query qs⟩, rfl⟩
    rw [← hqs, j.built_eq_ok hfields hsome, j.built_eq_ok hfields' hsome']
    show Concur _ (j.query field qs).exactSpan _
    rw [hcheck]
    exact .ok ⟨qs, hall, rfl, rfl⟩

/-- A step of grounding is taken hand in hand. -/
theorem concur_groundStep {q q' : Query} (h : j.Distributed field q q') :
    Concur (Option.Rel (j.Distributed field)) (s.groundStep q) (s.groundStep q') := by
  obtain ⟨qs, hqs, rfl, rfl⟩ := h
  have hparts : List.Forall₂ (fun q q' => CheckOn field q q' ∧
      Concur (Option.Rel (CheckOn field)) (s.groundStep q) (s.groundStep q'))
      qs (qs.map .withoutPayload) := by
    rw [List.forall₂_map_right_iff]
    refine List.forall₂_same.2 fun q hq => ?_
    obtain ⟨hbuilt, hfield⟩ := hqs q hq
    exact ⟨⟨hbuilt, hfield, rfl⟩, concur_step_check s hbuilt hfield⟩
  rw [groundStep_check, groundStep_query]
  exact concur_rebuilt (concur_changeAll hparts) rfl rfl (fun _ => rfl) (fun _ => rfl)
    fun _ _ => j.concur_built

theorem concur_groundWithin (given given' : Query) (passes : Nat) {q q' : Query}
    (h : j.Distributed field q q') :
    Concur (Option.Rel (j.Distributed field)) (s.groundWithin given passes q)
      (s.groundWithin given' passes q') := by
  induction passes generalizing q q' with
  | zero => exact .error _ _
  | succ passes ih =>
    rw [Searcher.groundWithin, Searcher.groundWithin]
    refine (j.concur_groundStep s h).bind fun o o' hrel => ?_
    cases hrel with
    | none => exact .ok .none
    | some hnext => exact (ih hnext).bind fun _ _ hlast => .ok (.some (rel_getD hlast hnext))

theorem concur_grounded {q q' : Query} (h : j.Distributed field q q') :
    Concur (j.Distributed field) (s.grounded q) (s.grounded q') :=
  (j.concur_groundWithin s q q' s.settings.maxPasses h).map fun _ _ hrel => rel_getD hrel h

end SpanJoin

namespace Searcher

/-- Ground a span query, look its terms up, and open a cursor over its spans in a segment. -/
def openSpans (s : Searcher) (counted : Bool) (g : Segment) (detail : Detail) (q : Query) :
    Weighing (Option SpanCursor) := do
  let w ← Weighing.spanWeight s.snapshot counted (← s.grounded q)
  w.spans g detail

/-- What was distributed is opened alike in a segment that lists no document twice. -/
theorem concurs_openSpans (s : Searcher) (j : SpanJoin) {field : String} {q q' : Query}
    (h : j.Distributed field q q') {g : Segment} (hsound : g.Sound) (honce : g.NamesOnce)
    (counted : Bool) (detail : Detail) :
    Weighing.Concurs (Option.Rel SpanCursor.Indistinct) (s.openSpans counted g detail q)
      (s.openSpans counted g detail q') := by
  have hweights : ∀ r r', j.Distributed field r r' → Weighing.Concurs
      (fun w w' : SpanWeight =>
        Concur (Option.Rel SpanCursor.Indistinct) (w.spans g detail) (w'.spans g detail))
      (Weighing.spanWeight s.snapshot counted r) (Weighing.spanWeight s.snapshot counted r') := by
    rintro _ _ ⟨qs, -, rfl, rfl⟩
    rw [Weighing.spanWeight, j.spanWeight_query, j.spanWeight_query, bind_assoc]
    refine (SpanJoin.concurs_spanWeights s.snapshot counted qs).bind fun ws ws' hws => ?_
    rw [pure_bind]
    exact Weighing.concurs_pure (j.concur_spans hsound honce hws _ _ _ field detail)
  unfold openSpans
  refine (Weighing.concurs_lift (j.concur_grounded s h)).bind fun r r' hr => ?_
  exact (hweights r r' hr).bind fun w w' hw => Weighing.concurs_lift hw

open IndexBuilder (accepted)

/-- Checking payloads of a union or of a proximity, and joining the checked clauses: in every
segment of an index whose documents name no field twice, both fail, or both come to a cursor, or
to none. The two cursors answer every run of moves alike, with the same documents and spans. What
is looked up is the same too. -/
theorem check_distributes (fields : List (String × IndexOptions)) (steps : List BuilderStep)
    (id : Nat) (settings : Settings)
    (hcount : (accepted (.ofList fields) steps).length ≤ endOfDocs)
    (honce : ∀ doc ∈ accepted (.ofList fields) steps, doc.NamesOnce) (j : SpanJoin)
    {field : String} {qs : List Query} (hqs : ∀ q ∈ qs, q.Built ∧ q.spanField? = some field)
    {g : Segment} (hg : g ∈ (Snapshot.ofSteps fields steps id).segments) (counted : Bool)
    (detail : Detail) :
    Weighing.Concurs (Option.Rel SpanCursor.Indistinct)
      (openSpans ⟨.ofSteps fields steps id, settings⟩ counted g detail
        (.withoutPayload (j.query field qs)))
      (openSpans ⟨.ofSteps fields steps id, settings⟩ counted g detail
        (j.query field (qs.map .withoutPayload))) := by
  have hholds := IndexBuilder.holds_build fields steps id
  rw [← IndexBuilder.flatten_ofSteps] at hcount honce
  obtain ⟨docs, hdocs, hsegment⟩ := hholds.exists_part g hg
  have hnames : g.NamesOnce := hsegment.pairwise_postingsOf fun doc hdoc =>
    honce doc (List.mem_flatten_of_mem hdocs hdoc)
  exact concurs_openSpans _ j ⟨qs, hqs, rfl, rfl⟩ (hholds.sound hcount g hg) hnames counted detail

/-- A proximity of a term and of a selection of terms, in two segments. -/
theorem check_distributes_selected :
    let fields : List (String × IndexOptions) := [("body", .payloads)]
    let steps : List BuilderStep :=
      [.add [("body", [⟨"quick", 0, none⟩, ⟨"fast", 0, some [1]⟩, ⟨"fox", 1, none⟩])], .commit,
        .add [("body", [⟨"fox", 0, none⟩, ⟨"fast", 1, none⟩, ⟨"four", 2, some [2]⟩])]]
    let qs : List Query :=
      [.spanTerm ⟨"body", "fast"⟩, .spanMultiTerm ⟨"body", .beginning "fo", none⟩]
    (accepted (.ofList fields) steps).length ≤ endOfDocs ∧
      (∀ doc ∈ accepted (.ofList fields) steps, doc.NamesOnce) ∧
      (∀ q ∈ qs, q.Built ∧ q.spanField? = some "body") ∧
      ∀ g ∈ (Snapshot.ofSteps fields steps 0).segments,
        Weighing.Concurs (Option.Rel SpanCursor.Indistinct)
          (openSpans ⟨.ofSteps fields steps 0, default⟩ true g .positions
            (.withoutPayload (.spanNear "body" qs 1 false)))
          (openSpans ⟨.ofSteps fields steps 0, default⟩ true g .positions
            (.spanNear "body" (qs.map .withoutPayload) 1 false)) := by
  intro fields steps qs
  have hcount : (accepted (.ofList fields) steps).length ≤ endOfDocs := by decide +kernel
  have honce : ∀ doc ∈ accepted (.ofList fields) steps, doc.NamesOnce := by decide +kernel
  have hqs : ∀ q ∈ qs, q.Built ∧ q.spanField? = some "body" := by
    simp only [qs, List.forall_mem_cons]
    exact ⟨⟨.atom rfl, rfl⟩, ⟨.atom rfl, rfl⟩, List.forall_mem_nil _⟩
  exact ⟨hcount, honce, hqs, fun g hg => check_distributes fields steps 0 default hcount honce
    (.proximity 1 false) hqs hg true .positions⟩

/-- What two moves show of the cursor that a query is opened with in each segment. -/
def firstSights (s : Searcher) (q : Query) : List (Option (List (Option (Nat × List Span)))) :=
  s.snapshot.segments.map fun g =>
    ((s.openSpans true g .positions q).run.run .empty).1.toOption.join.bind fun c =>
      (watch SpanCursor.moved SpanCursor.sight [.next, .next] c).toOption

/-- A document that names a field twice is visited twice by a union that is checked, and once by
the union of the checks, as the first entry has no occurrence of the first term that passes. -/
theorem check_distributes_not_named_twice :
    let s : Searcher := ⟨.ofSteps [("body", .payloads)] [.add
      [("body", [⟨"a", 0, some [1]⟩, ⟨"b", 1, none⟩]), ("body", [⟨"a", 2, none⟩])]] 0, default⟩
    let qs : List Query := [.spanTerm ⟨"body", "a"⟩, .spanTerm ⟨"body", "b"⟩]
    s.firstSights (.withoutPayload (.spanOr "body" qs)) =
        [some [some (0, [⟨1, 2, []⟩]), some (0, [⟨2, 3, []⟩])]] ∧
      s.firstSights (.spanOr "body" (qs.map .withoutPayload)) =
        [some [some (0, [⟨1, 2, []⟩, ⟨2, 3, []⟩]), none]] := by
  intro s qs
  constructor
  · cbv
  · cbv

end Searcher

end TextSearch
