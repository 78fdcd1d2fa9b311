import TextSearch.Proofs.Cursor.Comparison
import TextSearch.Proofs.Outcome
import TextSearch.Proofs.Search.Places

/-!
# The cursors that are opened

Whatever entry it is opened with, a posting list of a segment is that of some term, and the
cursor of a span weight is made of such lists. `SpanWeight.closed_spans` is the induction along the
way in which it is made. It takes no lookup to be what it claims to be.
-/

namespace TextSearch

/-- What is opened with an entry, stale or not, is the list of postings of some term. -/
theorem Segment.exists_postings?_of_postings {g : Segment} {t : Term} {entry : TermEntry}
    {detail : Detail} {cursor : PostingCursor} (h : g.postings t entry detail = .ok cursor) :
    ∃ u ps, g.postings? u = some ps ∧ cursor = .ofList ps detail := by
  unfold Segment.postings at h
  cases hf : g.fields.get? t.field with
  | none => simp [hf] at h
  | some f =>
    simp only [hf] at h
    split at h
    · cases hps : f.postingsAt? entry.ordinal with
      | none => simp [hps] at h
      | some ps =>
        simp only [hps, Except.ok.injEq] at h
        obtain ⟨⟨text, ps⟩, hentry, rfl⟩ := Option.map_eq_some_iff.1 hps
        refine ⟨⟨t.field, text⟩, ps, ?_, h.symm⟩
        rw [Segment.postings?, hf]
        exact f.terms.get?_of_getElem? hentry
    · cases h

/-- A gate around a list stands with the gates of its cursor. -/
theorem PostingCursor.gatedBy_ofList (ps : List Posting) (detail : Detail)
    (least : Option Threshold) :
    (PostingCursor.ofList ps detail).gatedBy least = ⟨.ofList ps detail, least.toList⟩ := by
  cases least <;> rfl

/-- What holds of the cursors over the posting lists of a segment, and of filters, unions and
proximities of cursors of which it holds. -/
structure SpanCursor.Closed (g : Segment) (P : SpanCursor → Prop) : Prop where
  /-- The places in a posting list, behind gates. -/
  postings : ∀ {t : Term} {ps : List Posting} {detail : Detail}, g.postings? t = some ps →
    detail.hasPositions = true → ∀ gates, P (.ofPostings ⟨.ofList ps detail, gates⟩)
  /-- A cursor behind a filter. -/
  filtered : ∀ {c : SpanCursor}, P c → ∀ filter, P (c.filtered filter)
  /-- The union of cursors. -/
  anyOf : ∀ {cs : List SpanCursor}, (∀ c ∈ cs, P c) → P (.anyOf cs)
  /-- Cursors near each other. -/
  nearby : ∀ {cs : List SpanCursor}, (∀ c ∈ cs, P c) → ∀ slop inOrder, P (.nearby cs slop inOrder)

namespace SpanWeight

variable {g : Segment} {P : SpanCursor → Prop}

theorem closed_openTerm (hP : SpanCursor.Closed g P) {t : Term} {lookup : TermLookup}
    {least : Option Threshold} {detail : Detail} {c : SpanCursor}
    (h : openTerm t lookup least g detail = .ok (some c)) : P c := by
  obtain ⟨found, -, h⟩ := except_bind_eq_ok.1 h
  cases found with
  | none => cases h
  | some entry =>
    simp only at h
    split at h
    · obtain ⟨cursor, hcursor, h⟩ := except_bind_eq_ok.1 h
      cases h
      have hpos : (detail.max .positions).hasPositions = true := by cases detail <;> rfl
      obtain ⟨u, ps, hps, rfl⟩ := Segment.exists_postings?_of_postings hcursor
      rw [PostingCursor.gatedBy_ofList]
      exact hP.postings hps hpos _
    · cases h

mutual

/-- What is closed under joining cursors holds of every cursor that a span weight opens. -/
theorem closed_spans (hP : SpanCursor.Closed g P) : ∀ (w : SpanWeight) {detail : Detail}
    {c : SpanCursor}, w.spans g detail = .ok (some c) → P c
  | term _ _ _ _, _, _, h => closed_openTerm hP h
  | union _ _ subs, _, _, h => by
    obtain ⟨cs, hcs, h⟩ := except_bind_eq_ok.1 h
    have hall := closed_spansAny hP subs hcs
    match cs with
    | [] => cases h
    | [c] =>
      cases h
      exact hall _ (List.mem_singleton_self _)
    | c :: d :: cs =>
      cases h
      exact hP.anyOf hall
  | near _ _ subs slop inOrder, _, _, h => by
    obtain ⟨opened, hopened, h⟩ := except_bind_eq_ok.1 h
    cases opened with
    | none => cases h
    | some cs =>
      cases h
      exact hP.nearby (closed_spansAll hP subs hopened) slop inOrder
  | filtered _ inner filter, _, _, h => by
    obtain ⟨opened, hopened, h⟩ := except_bind_eq_ok.1 h
    cases opened with
    | none => cases h
    | some c =>
      cases h
      exact hP.filtered (closed_spans hP inner hopened) filter

theorem closed_spansAny (hP : SpanCursor.Closed g P) : ∀ (ws : List SpanWeight) {detail : Detail}
    {cs : List SpanCursor}, spansAny g detail ws = .ok cs → ∀ c ∈ cs, P c
  | [], _, _, h => by
    cases h
    exact List.forall_mem_nil _
  | w :: ws, _, _, h => by
    obtain ⟨opened, hopened, h⟩ := except_bind_eq_ok.1 h
    obtain ⟨cs, hcs, h⟩ := except_bind_eq_ok.1 h
    have hall := closed_spansAny hP ws hcs
    cases opened with
    | none =>
      cases h
      exact hall
    | some c =>
      cases h
      exact List.forall_mem_cons.2 ⟨closed_spans hP w hopened, hall⟩

theorem closed_spansAll (hP : SpanCursor.Closed g P) : ∀ (ws : List SpanWeight) {detail : Detail}
    {cs : List SpanCursor}, spansAll g detail ws = .ok (some cs) → ∀ c ∈ cs, P c
  | [], _, _, h => by
    cases h
    exact List.forall_mem_nil _
  | w :: ws, _, _, h => by
    obtain ⟨opened, hopened, h⟩ := except_bind_eq_ok.1 h
    cases opened with
    | none => cases h
    | some c =>
      obtain ⟨rest, hrest, h⟩ := except_bind_eq_ok.1 h
      cases rest with
      | none => cases h
      | some cs =>
        cases h
        exact List.forall_mem_cons.2 ⟨closed_spans hP w hopened, closed_spansAll hP ws hrest⟩

end

end SpanWeight

/-- In a segment that lists no document twice, no opened cursor visits one twice. -/
theorem SpanCursor.closed_fresh {g : Segment} (hsound : g.Sound) (honce : g.NamesOnce) :
    Closed g Fresh where
  postings {t ps detail} hps hpos gates := by
    have hascending := honce t
    rw [Segment.postingsOf, hps, Option.getD_some] at hascending
    have hbounded : ∀ p ∈ ps, p.doc < endOfDocs := fun p hp =>
      (hsound.trail t ps hps).bounded p.visit (List.mem_map_of_mem hp)
    exact fresh_ofPostings hpos hascending hbounded gates
  filtered hc filter := hc.filtered filter
  anyOf hcs := fresh_anyOf hcs
  nearby hcs slop inOrder := fresh_nearby hcs slop inOrder

end TextSearch
