import TextSearch.Proofs.Cursor.Alike
import TextSearch.Proofs.Cursor.SpanRuns

/-!
# Comparing span cursors

Cursors in front of trails that are alike answer every run of moves alike, whatever trees they
are: `SpanCursor.Alongside.moved` compares single moves. A trail that visits no document
twice and none for nothing is known from what it lists in each document (`Trail.alike_of_listed`),
so two cursors are compared document by document, without regard to how they move.
-/

namespace TextSearch

namespace Trail

variable {β γ : Type}

/-- Trails that show the same on the same visits are the same. -/
theorem Alike.eq {t u : Trail β} (h : Alike (· = ·) t u) : t = u := by
  induction h with
  | nil => rfl
  | @cons v w _ _ hvw _ ih =>
    obtain ⟨d, b⟩ := v
    obtain ⟨d', b'⟩ := w
    obtain ⟨hdoc, hshown⟩ := hvw
    simp only at hdoc hshown
    rw [hdoc, hshown, ih]

/-- A trail that visits no document twice is known from its documents and what it lists there. -/
theorem Simple.eq_map_docs {t : Trail (List β)} (h : t.Simple) :
    t = t.docs.map fun d => ⟨d, t.listed d⟩ := by
  have hvisit : ∀ v ∈ t, (⟨v.doc, t.listed v.doc⟩ : Visit (List β)) = v := by
    intro v hv
    rw [listed, at?_of_mem h.once hv, Option.getD_some]
  rw [docs, List.map_map]
  exact (List.map_id t).symm.trans (List.map_congr_left fun v hv => (hvisit v hv).symm)

/-- Tidy trails that list related things in every document are alike. -/
theorem alike_of_listed {P : List β → List γ → Prop} {t : Trail (List β)} {u : Trail (List γ)}
    (ht : t.Tidy) (hu : u.Tidy) (hnil : ∀ bs cs, P bs cs → (bs = [] ↔ cs = []))
    (hlisted : ∀ d, P (t.listed d) (u.listed d)) : Alike P t u := by
  have hmem : ∀ d, d ∈ t.docs ↔ d ∈ u.docs := by
    intro d
    rw [ht.mem_docs_iff, hu.mem_docs_iff]
    exact not_congr (hnil _ _ (hlisted d))
  have hdocs : t.docs = u.docs := by
    have ht' : t.docs = u.docs.toFinset.sort :=
      ht.docs_eq_sort fun d => by rw [hmem, List.mem_toFinset]
    have hu' : u.docs = u.docs.toFinset.sort :=
      hu.docs_eq_sort fun d => by rw [List.mem_toFinset]
    exact ht'.trans hu'.symm
  rw [ht.eq_map_docs, hu.eq_map_docs, ← hdocs, Alike, List.forall₂_map_left_iff,
    List.forall₂_map_right_iff]
  exact List.forall₂_same.2 fun d _ => ⟨rfl, hlisted d⟩

theorem Alike.since {P : β → γ → Prop} {t : Trail β} {u : Trail γ} (h : Alike P t u) (d : Nat) :
    Alike P (t.since d) (u.since d) := by
  induction h with
  | nil => exact .nil
  | cons hvw hrest ih =>
    rw [since_cons, since_cons, hvw.1]
    split
    · exact ih
    · exact .cons hvw hrest

end Trail

/-- Places in trails that are alike: in front of both, or on visits that are alike. -/
inductive Place.Alike {β γ : Type} (P : β → γ → Prop) : Place β → Place γ → Prop
  | before {t : Trail β} {u : Trail γ} (h : Trail.Alike P t u) : Alike P (.before t) (.before u)
  | on {v : Visit β} {w : Visit γ} {t : Trail β} {u : Trail γ} (hdoc : v.doc = w.doc)
    (hshown : P v.shown w.shown) (h : Trail.Alike P t u) : Alike P (.on v t) (.on w u)

theorem Place.Alike.left {β γ : Type} {P : β → γ → Prop} {p : Place β} {q : Place γ}
    (h : Place.Alike P p q) (move : Move) : Trail.Alike P (p.left move) (q.left move) := by
  have hpending : Trail.Alike P p.pending q.pending := by
    cases h with
    | before h => exact h
    | on hdoc hshown h => exact .cons ⟨hdoc, hshown⟩ h
  cases move with
  | next =>
    cases h with
    | before h => exact h
    | on hdoc hshown h => exact h
  | skipTo target => exact hpending.since target

namespace SpanCursor

variable {P : List Span → List Span → Prop} {width width' : UInt32} {c c' : SpanCursor}

/-- Two cursors stand at places that are alike, or both have found nothing. -/
inductive Alongside (P : List Span → List Span → Prop) (width width' : UInt32)
    (c c' : SpanCursor) : Prop
  /-- The cursors stand at places that are alike. -/
  | walking {place place' : Place (List Span)} (h : c.Walks width place)
    (h' : c'.Walks width' place') (halike : place.Alike P place')
  /-- The cursors are spent. -/
  | spent (h : c.Spent) (h' : c'.Spent)

/-- The moves of two cursors have the same answer. Where they find a document it is the same one,
and what they show there is related. -/
structure AnswersAlike (P : List Span → List Span → Prop) (width width' : UInt32)
    (outcome outcome' : Bool × SpanCursor) : Prop where
  found_eq : outcome.1 = outcome'.1
  doc_eq : outcome.1 = true → outcome.2.doc = outcome'.2.doc
  spans : outcome.1 = true → P outcome.2.spans outcome'.2.spans
  /-- As many positions of a span go without a gap as before the move. -/
  widths : outcome.1 = true →
    outcome.2.compactLength = width ∧ outcome'.2.compactLength = width'

/-- Cursors at places that are alike answer a move alike, and are at such places afterwards. -/
theorem Alongside.moved (h : Alongside P width width' c c') (move : Move) :
    ∃ outcome outcome', c.moved move = .ok outcome ∧ c'.moved move = .ok outcome' ∧
      AnswersAlike P width width' outcome outcome' ∧
      Alongside P width width' outcome.2 outcome'.2 := by
  have hnothing : ∀ b b' : SpanCursor,
      AnswersAlike P width width' (false, b) (false, b') := fun b b' =>
    { found_eq := rfl
      doc_eq := fun hfound => by cases hfound
      spans := fun hfound => by cases hfound
      widths := fun hfound => by cases hfound }
  cases h with
  | spent h h' =>
    obtain ⟨b, hb, hspent⟩ := h.moved move
    obtain ⟨b', hb', hspent'⟩ := h'.moved move
    exact ⟨_, _, hb, hb', hnothing b b', .spent hspent hspent'⟩
  | @walking place place' h h' halike =>
    obtain ⟨⟨found, b⟩, hb, harrived⟩ := h.moved move
    obtain ⟨⟨found', b'⟩, hb', harrived'⟩ := h'.moved move
    have hleft := halike.left move
    refine ⟨_, _, hb, hb', ?_⟩
    generalize place.left move = t at harrived hleft
    generalize place'.left move = u at harrived' hleft
    cases hleft with
    | nil =>
      have hfound : found = false := harrived
      have hfound' : found' = false := harrived'
      subst hfound hfound'
      exact ⟨hnothing b b', .spent (h.spent_of_moved hb) (h'.spent_of_moved hb')⟩
    | cons hvw hrest =>
      obtain ⟨hfound, hwalks⟩ := harrived
      obtain ⟨hfound', hwalks'⟩ := harrived'
      have hanswers : AnswersAlike P width width' (found, b) (found', b') :=
        { found_eq := hfound.trans hfound'.symm
          doc_eq := fun _ => by rw [hwalks.doc, hwalks'.doc, hvw.1]
          spans := fun _ => by rw [hwalks.spans, hwalks'.spans]; exact hvw.2
          widths := fun _ => ⟨hwalks.2, hwalks'.2⟩ }
      exact ⟨hanswers, .walking hwalks hwalks' (.on hvw.1 hvw.2 hrest)⟩

/-- Cursors in front of trails that are alike answer every run of moves alike. -/
theorem forall₂_watch_of_alike {t u : Trail (List Span)} (h : c.Walks width (.before t))
    (h' : c'.Walks width' (.before u)) (halike : Trail.Alike P t u) {β : Type}
    {see : Bool × SpanCursor → β} {T : β → β → Prop}
    (hsee : ∀ outcome outcome', AnswersAlike P width width' outcome outcome' →
      T (see outcome) (see outcome')) (moves : List Move) :
    ∃ shown shown', watch SpanCursor.moved see moves c = .ok shown ∧
      watch SpanCursor.moved see moves c' = .ok shown' ∧ List.Forall₂ T shown shown' := by
  refine forall₂_watch (S := Alongside P width width') (fun move b b' hS => ?_)
    (.walking h h' (.before halike)) moves
  obtain ⟨outcome, outcome', hb, hb', hanswers, hS'⟩ := hS.moved move
  exact ⟨outcome, outcome', hb, hb', hsee _ _ hanswers, hS'⟩

/-! ### Cursors that visit no document twice -/

/-- A cursor in front of a trail that visits no document twice. -/
def Fresh (c : SpanCursor) : Prop := ∃ width t, c.Walks width (.before t) ∧ t.Simple

/-- Cursors in front of trails of some kind, each with its trail. -/
theorem exists_sources {kind : Trail (List Span) → Prop} {cs : List SpanCursor}
    (h : ∀ c ∈ cs, ∃ width t, c.Walks width (.before t) ∧ kind t) :
    ∃ sources : List (UInt32 × Trail (List Span)),
      List.Forall₂ (fun c source => Walks source.1 c (.before source.2)) cs sources ∧
        ∀ t ∈ sources.map (·.2), kind t := by
  induction cs with
  | nil => exact ⟨[], .nil, List.forall_mem_nil _⟩
  | cons c cs ih =>
    obtain ⟨⟨width, t, hwalks, hkind⟩, hcs⟩ := List.forall_mem_cons.1 h
    obtain ⟨sources, hsources, hall⟩ := ih hcs
    exact ⟨(width, t) :: sources, .cons hwalks hsources, List.forall_mem_cons.2 ⟨hkind, hall⟩⟩

theorem fresh_ofPostings {detail : Detail} (hpos : detail.hasPositions = true) {ps : List Posting}
    (hascending : ps.Pairwise fun p q => p.doc < q.doc) (hbounded : ∀ p ∈ ps, p.doc < endOfDocs)
    (gates : List Threshold) : (ofPostings ⟨.ofList ps detail, gates⟩).Fresh := by
  have hsound := Posting.sound_trail hascending hbounded
  have hsimple : (gatedVisits gates ps).Simple :=
    ⟨hsound.sublist (List.filter_sublist.map _), Trail.nodup_docs_gatedVisits hascending gates⟩
  exact ⟨_, _, walks_ofPostings hpos (PostingCursor.walks_ofList hsound detail gates),
    hsimple.showing _⟩

theorem Fresh.filtered (h : c.Fresh) (filter : SpanFilter) : (c.filtered filter).Fresh := by
  obtain ⟨width, t, hwalks, hsimple⟩ := h
  exact ⟨_, _, walks_filtered hwalks filter,
    (Trail.tidy_choosing hsimple.sound hsimple.once _).toSimple⟩

theorem fresh_anyOf {cs : List SpanCursor} (h : ∀ c ∈ cs, c.Fresh) : (anyOf cs).Fresh := by
  obtain ⟨sources, hwalks, hsimple⟩ := exists_sources h
  exact ⟨_, _, walks_anyOf hwalks, (Trail.simple_union hsimple).showing _⟩

theorem fresh_nearby {cs : List SpanCursor} (h : ∀ c ∈ cs, c.Fresh) (slop : UInt32)
    (inOrder : Bool) : (nearby cs slop inOrder).Fresh := by
  obtain ⟨sources, hwalks, hsimple⟩ := exists_sources h
  exact ⟨_, _, walks_nearby hwalks slop inOrder,
    (SpanProximity.tidy_matched hsimple slop inOrder).toSimple⟩

end SpanCursor

end TextSearch
