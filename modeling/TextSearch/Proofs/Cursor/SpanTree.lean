import TextSearch.Proofs.Cursor.Posting
import TextSearch.Proofs.Cursor.Proximity
import TextSearch.Proofs.Cursor.SpanUnion
import TextSearch.Span.Cursor

/-!
# Walking trees of span cursors

The relation between a tree of span cursors and its trail is built up by height,
as the operations are. Main statements: `SpanCursor.Walks.next` and
`SpanCursor.Walks.skipTo`, for trees of any height.
-/

namespace TextSearch.SpanCursor

/-- The spans of a posting that is read to a detail. -/
def postingSpans (detail : Detail) (p : Posting) : List Span :=
  Span.sorted ((p.read detail).map Span.ofOccurrence)

theorem postingSpans_ne_nil {p : Posting} (h : p.occurrences.getD [] ≠ []) (detail : Detail) :
    postingSpans detail p ≠ [] := by
  intro hnil
  have hlength := congrArg List.length hnil
  rw [postingSpans, Span.sorted, List.length_mergeSort, List.length_map] at hlength
  refine h (List.length_eq_zero_iff.1 ?_)
  cases hdetail : detail.hasPayloads <;> simpa [Posting.read, hdetail] using hlength

/-- A cursor over the occurrences of a term walks the spans of the postings. -/
inductive TermWalks (c : PostingCursor) (ss : List Span) : Place (List Span) → Prop
  /-- The cursor has not moved. -/
  | before {detail : Detail} {t : Trail Posting} (hpos : detail.hasPositions = true)
    (hcursor : PostingCursor.Walks detail c (.before t)) :
    TermWalks c ss (.before (t.showing (postingSpans detail)))
  /-- The cursor stands on a posting. -/
  | on {detail : Detail} {v : Visit Posting} {t : Trail Posting}
    (hpos : detail.hasPositions = true) (hcursor : PostingCursor.Walks detail c (.on v t))
    (hspans : postingSpans detail v.shown = ss) :
    TermWalks c ss (.on ⟨v.doc, ss⟩ (t.showing (postingSpans detail)))

/-- A tree of at most a height walks a trail. -/
def WalksTo : Nat → SpanCursor → Place (List Span) → Prop
  | 0, _, _ => False
  | _ + 1, term c ss, place => TermWalks c ss place
  | height + 1, sieve s, place => SpanSieve.Walks (WalksTo height) s place
  | height + 1, union u, place => SpanUnion.Walks (WalksTo height) u place
  | height + 1, proximity p, place => SpanProximity.Walks (WalksTo height) p.subs.length p place

/-- A tree of at most a height walks a trail, and so many positions of each of its spans go
without a gap. -/
def WalksAs (height : Nat) (width : UInt32) (c : SpanCursor) (place : Place (List Span)) : Prop :=
  WalksTo height c place ∧ c.compactLength = width

/-! ### The operations of one height -/

@[simp] theorem doc_stepper (height : Nat) : (stepper height).doc = doc := by
  cases height <;> rfl

@[simp] theorem spans_stepper (height : Nat) : (stepper height).spans = spans := by
  cases height <;> rfl

@[simp] theorem remaining_stepper (height : Nat) : (stepper height).remaining = remaining := by
  cases height <;> rfl

theorem arrives_wrapped {α : Type} {wrap : α → SpanCursor} {R : α → Place (List Span) → Prop}
    {S : SpanCursor → Place (List Span) → Prop} (hwrap : ∀ c p, R c p → S (wrap c) p)
    {outcome : Except Fault (Bool × α)} {t : Trail (List Span)} (h : Arrives R outcome t) :
    Arrives S (wrapped wrap outcome) t := by
  obtain ⟨⟨found, c⟩, rfl, harrived⟩ := h
  refine ⟨(found, wrap c), rfl, ?_⟩
  cases t with
  | nil => exact harrived
  | cons v t => exact ⟨harrived.1, hwrap _ _ harrived.2⟩

/-- A moved posting cursor is read where it has arrived. -/
theorem arrives_loaded {detail : Detail} (hpos : detail.hasPositions = true)
    {move : Bool × PostingCursor} {t : Trail Posting}
    (h : Arrived (PostingCursor.Walks detail) move t) (height : Nat) :
    Arrives (WalksAs (height + 1) 1) (loaded move) (t.showing (postingSpans detail)) := by
  obtain ⟨found, c⟩ := move
  cases t with
  | nil =>
    have hfound : found = false := h
    subst hfound
    exact ⟨_, rfl, rfl⟩
  | cons v t =>
    obtain ⟨hfound, hc⟩ := h
    have hfound : found = true := hfound
    subst hfound
    have hload : loaded (true, c) = .ok (true, term c (postingSpans detail v.shown)) := by
      simp only [loaded, hc.occurrences hpos, bind, Except.bind, if_true]
      rfl
    exact ⟨_, hload, rfl, .on hpos hc rfl, rfl⟩

theorem TermWalks.next {c : PostingCursor} {ss : List Span} {place : Place (List Span)}
    (h : TermWalks c ss place) (height : Nat) :
    Arrives (WalksAs (height + 1) 1) (loaded c.next) place.ahead := by
  cases h with
  | before hpos hcursor => exact arrives_loaded hpos hcursor.next height
  | on hpos hcursor hspans => exact arrives_loaded hpos hcursor.next height

theorem TermWalks.skipTo {c : PostingCursor} {ss : List Span} {place : Place (List Span)}
    (h : TermWalks c ss place) (target height : Nat) :
    Arrives (WalksAs (height + 1) 1) (loaded (c.skipTo target)) (place.pending.since target) := by
  cases h with
  | before hpos hcursor =>
    rw [Place.pending_before, ← Trail.showing_since]
    exact arrives_loaded hpos (hcursor.skipTo target) height
  | @on detail v t hpos hcursor hspans =>
    have hpending : Place.pending (.on ⟨v.doc, ss⟩ (t.showing (postingSpans detail))) =
        Trail.showing (postingSpans detail) (v :: t) := by
      rw [Trail.showing_cons, hspans]
      rfl
    rw [hpending, ← Trail.showing_since]
    exact arrives_loaded hpos (hcursor.skipTo target) height

theorem TermWalks.sound {c : PostingCursor} {ss : List Span} {place : Place (List Span)}
    (h : TermWalks c ss place) : place.pending.Sound := by
  cases h with
  | before hpos hcursor => exact hcursor.sound.showing _
  | @on detail v t hpos hcursor hspans =>
    have hsound := hcursor.sound.showing (postingSpans detail)
    rwa [Place.pending_on, Trail.showing_cons, hspans] at hsound

theorem TermWalks.length_ahead_le {c : PostingCursor} {ss : List Span} {place : Place (List Span)}
    (h : TermWalks c ss place) : place.ahead.length ≤ c.remaining := by
  cases h with
  | before hpos hcursor => simpa [Trail.showing] using hcursor.remaining
  | on hpos hcursor hspans => simpa [Trail.showing] using hcursor.remaining

/-- As many visits lie ahead of a union as its operands can make at most. -/
theorem length_merged_le {R : SpanCursor → Place (List Span) → Prop}
    (hR : ∀ c p, R c p → p.ahead.length ≤ c.remaining) {subs : List (Bool × SpanCursor)}
    {ts : List (Trail (List Span))}
    (hsubs : List.Forall₂ (fun c t => R c.2 (.before t) ∨ Arrived R c t) subs ts) :
    (SpanUnion.merged ts).length ≤ remainingMarked subs := by
  rw [SpanUnion.merged, Trail.showing, List.length_map]
  refine Nat.le_trans (Trail.length_union_le ts) ?_
  induction hsubs with
  | nil => exact Nat.le_refl _
  | @cons c t subs ts hc _ ih =>
    obtain ⟨marked, c⟩ := c
    have hlength : t.length ≤ (if marked then 1 else 0) + c.remaining := by
      rcases hc with hbefore | harrived
      · have := hR _ _ hbefore
        simp only [Place.ahead_before] at this
        omega
      · cases t with
        | nil => exact Nat.zero_le _
        | cons v t =>
          have hmarked : marked = true := harrived.1
          have := hR _ _ harrived.2
          simp only [Place.ahead_on] at this
          simp only [hmarked, if_true, List.length_cons]
          omega
    simp only [Trail.visits, List.map_cons, total_cons, remainingMarked] at ih ⊢
    omega

theorem length_matched_le {R : SpanCursor → Place (List Span) → Prop}
    (hR : ∀ c p, R c p → p.ahead.length ≤ c.remaining) {slop : UInt32} {inOrder : Bool}
    {c : SpanCursor} {rest : List SpanCursor} {p : Place (List Span)} (hc : R c p)
    (others : List (Trail (List Span))) :
    (SpanProximity.matched slop inOrder (p.ahead :: others)).length ≤
      remainingAll (c :: rest) := by
  have hlength := Nat.le_trans (Trail.length_choosing_le (Span.near slop inOrder) _)
    (Trail.length_meet_le p.ahead others)
  have := hR c p hc
  rw [SpanProximity.matched, remainingAll]
  omega

theorem arrives_wrapped_proximity {height : Nat} {q : SpanProximity SpanCursor}
    {outcome : Except Fault (Bool × SpanProximity SpanCursor)} {t : Trail (List Span)}
    (h : Arrives (SpanProximity.Walks (WalksTo height) q.subs.length) outcome t) :
    Arrives (WalksAs (height + 1) (proximity q).compactLength) (wrapped proximity outcome) t := by
  refine arrives_wrapped (fun c p hc => ⟨?_, ?_⟩) h
  · have hc' : SpanProximity.Walks (WalksTo height) c.subs.length c p := by
      rwa [hc.length_subs]
    exact hc'
  · rw [compactLength, compactLength, hc.length_subs]

theorem arrives_next {height : Nat} (ih : (stepper height).Follows (WalksTo height))
    {c : SpanCursor} {p : Place (List Span)} (h : WalksTo (height + 1) c p) :
    Arrives (WalksAs (height + 1) c.compactLength) ((stepper (height + 1)).next c) p.ahead := by
  cases c with
  | term c ss => exact TermWalks.next h height
  | sieve s =>
    exact arrives_wrapped (S := WalksAs (height + 1) 1) (fun _ _ hs => ⟨hs, rfl⟩)
      (SpanSieve.Walks.next ih h)
  | union u =>
    exact arrives_wrapped (S := WalksAs (height + 1) 1) (fun _ _ hu => ⟨hu, rfl⟩)
      (SpanUnion.Walks.next ih h)
  | proximity q => exact arrives_wrapped_proximity (SpanProximity.Walks.next ih h)

theorem arrives_skipTo {height : Nat} (ih : (stepper height).Follows (WalksTo height))
    {c : SpanCursor} {p : Place (List Span)} (target : Nat) (h : WalksTo (height + 1) c p) :
    Arrives (WalksAs (height + 1) c.compactLength) ((stepper (height + 1)).skipTo target c)
      (p.pending.since target) := by
  cases c with
  | term c ss => exact TermWalks.skipTo h target height
  | sieve s =>
    exact arrives_wrapped (S := WalksAs (height + 1) 1) (fun _ _ hs => ⟨hs, rfl⟩)
      (SpanSieve.Walks.skipTo ih h target)
  | union u =>
    exact arrives_wrapped (S := WalksAs (height + 1) 1) (fun _ _ hu => ⟨hu, rfl⟩)
      (SpanUnion.Walks.skipTo ih h target)
  | proximity q => exact arrives_wrapped_proximity (SpanProximity.Walks.skipTo ih h target)

theorem sound_walksTo {height : Nat} (ih : (stepper height).Follows (WalksTo height))
    {c : SpanCursor} {p : Place (List Span)} (h : WalksTo (height + 1) c p) : p.pending.Sound := by
  cases c with
  | term c ss => exact TermWalks.sound h
  | sieve s => exact SpanSieve.Walks.sound ih h
  | union u => exact SpanUnion.Walks.sound ih h
  | proximity p => exact SpanProximity.Walks.sound ih h

theorem length_ahead_le {height : Nat} (ih : (stepper height).Follows (WalksTo height))
    {c : SpanCursor} {p : Place (List Span)} (h : WalksTo (height + 1) c p) :
    p.ahead.length ≤ c.remaining := by
  have hremaining : ∀ c p, WalksTo height c p → p.ahead.length ≤ c.remaining := by
    intro c p hc
    simpa using ih.remaining hc
  cases c with
  | term c ss => exact TermWalks.length_ahead_le h
  | sieve s =>
    have := SpanSieve.Walks.length_ahead_le ih h
    simpa [remaining] using this
  | union u =>
    cases h with
    | before hstarted hsubs => exact length_merged_le hremaining (hsubs.imp fun _ _ => .inl)
    | on hstarted hsubs hmerged =>
      have hle := length_merged_le hremaining (hsubs.imp fun _ _ => .inr)
      rw [hmerged, List.length_cons] at hle
      exact Nat.le_of_succ_le hle
  | proximity q =>
    cases h with
    | @before ts hwidth hstarted hsubs =>
      obtain ⟨subs, slop, inOrder, started, current, ss⟩ := q
      cases hsubs with
      | nil => exact Nat.le_refl _
      | cons hc _ => exact length_matched_le hremaining hc _
    | @on v lead others hwidth hstarted hsubs hmatched =>
      obtain ⟨subs, slop, inOrder, started, current, ss⟩ := q
      cases hsubs with
      | cons hc _ => exact length_matched_le hremaining (p := .on v lead) hc _

theorem doc_walksTo {height : Nat} (ih : (stepper height).Follows (WalksTo height))
    {c : SpanCursor} {v : Visit (List Span)} {t : Trail (List Span)}
    (h : WalksTo (height + 1) c (.on v t)) : c.doc = v.doc := by
  match c, h with
  | term _ _, .on hpos hcursor hspans => exact hcursor.doc
  | sieve ⟨_, _, _⟩, .on hinner hkept hsome =>
    rw [doc]
    simpa using ih.doc hinner
  | union _, .on hstarted hsubs hmerged => rfl
  | proximity _, .on hwidth hstarted hsubs hmatched => rfl

theorem spans_walksTo {height : Nat} {c : SpanCursor} {v : Visit (List Span)}
    {t : Trail (List Span)} (h : WalksTo (height + 1) c (.on v t)) : c.spans = v.shown := by
  match c, h with
  | term _ _, .on hpos hcursor hspans => rfl
  | sieve _, .on hinner hkept hsome => rfl
  | union _, .on hstarted hsubs hmerged => rfl
  | proximity _, .on hwidth hstarted hsubs hmatched => rfl

/-- The operations of every height walk the trails of the trees of that height. -/
theorem follows_stepper (height : Nat) : (stepper height).Follows (WalksTo height) := by
  induction height with
  | zero => exact ⟨False.elim, False.elim, False.elim, False.elim, False.elim, fun _ => False.elim⟩
  | succ height ih =>
    refine ⟨?doc, ?spans, sound_walksTo ih, ?remaining, ?next, ?skipTo⟩
    case doc =>
      intro c v t h
      rw [doc_stepper, doc_walksTo ih h]
    case spans =>
      intro c v t h
      rw [spans_stepper, spans_walksTo h]
    case remaining =>
      intro c p h
      rw [remaining_stepper]
      exact length_ahead_le ih h
    case next =>
      intro c p h
      exact (arrives_next ih h).mono fun _ _ hc => hc.1
    case skipTo =>
      intro c p target h
      exact (arrives_skipTo ih target h).mono fun _ _ hc => hc.1

/-! ### Trees of any height -/

theorem height_le_heightMarked {marked : Bool} {c : SpanCursor} :
    ∀ {subs : List (Bool × SpanCursor)}, (marked, c) ∈ subs → c.height ≤ heightMarked subs
  | (_, _) :: rest, h => by
    rw [heightMarked]
    rcases List.mem_cons.1 h with he | h
    · cases he
      exact Nat.le_max_left ..
    · exact Nat.le_trans (height_le_heightMarked h) (Nat.le_max_right ..)

theorem height_le_heightAll {c : SpanCursor} :
    ∀ {subs : List SpanCursor}, c ∈ subs → c.height ≤ heightAll subs
  | _ :: rest, h => by
    rw [heightAll]
    rcases List.mem_cons.1 h with rfl | h
    · exact Nat.le_max_left ..
    · exact Nat.le_trans (height_le_heightAll h) (Nat.le_max_right ..)

/-- Any height will do that is not below that of the tree. -/
theorem WalksTo.adjust {height : Nat} : ∀ {height' : Nat} {c : SpanCursor}
    {place : Place (List Span)}, WalksTo height c place → c.height ≤ height' →
      WalksTo height' c place := by
  induction height with
  | zero => exact fun h => h.elim
  | succ height ih =>
    intro height' c place h hle
    match height', c, h, hle with
    | 0, term _ _, _, hle => simp [SpanCursor.height] at hle
    | 0, sieve ⟨_, _, _⟩, _, hle => simp [SpanCursor.height] at hle
    | 0, union ⟨_, _, _, _⟩, _, hle => simp [SpanCursor.height] at hle
    | 0, proximity ⟨_, _, _, _, _, _⟩, _, hle => simp [SpanCursor.height] at hle
    | height' + 1, term c ss, h, _ => exact h
    | height' + 1, sieve ⟨inner, _, _⟩, h, hle =>
      exact SpanSieve.Walks.mono h fun p hp => ih hp (Nat.le_of_succ_le_succ hle)
    | height' + 1, union ⟨subs, _, _, _⟩, h, hle =>
      refine SpanUnion.Walks.mono h fun c hc p hp => ih hp ?_
      exact Nat.le_trans (height_le_heightMarked hc) (Nat.le_of_succ_le_succ hle)
    | height' + 1, proximity ⟨subs, _, _, _, _, _⟩, h, hle =>
      refine SpanProximity.Walks.mono h fun c hc p hp => ih hp ?_
      exact Nat.le_trans (height_le_heightAll hc) (Nat.le_of_succ_le_succ hle)

/-- A tree walks a trail, and so many positions of each of its spans go without a gap. -/
def Walks (width : UInt32) (c : SpanCursor) (place : Place (List Span)) : Prop :=
  WalksTo c.height c place ∧ c.compactLength = width

theorem walks_of_walksTo (height : Nat) {c : SpanCursor} {place : Place (List Span)}
    (h : WalksTo height c place) : Walks c.compactLength c place :=
  ⟨h.adjust (Nat.le_refl _), rfl⟩

theorem WalksAs.walks {height : Nat} {width : UInt32} {c : SpanCursor} {place : Place (List Span)}
    (h : WalksAs height width c place) : Walks width c place := ⟨h.1.adjust (Nat.le_refl _), h.2⟩

namespace Walks

variable {width : UInt32} {c : SpanCursor} {place : Place (List Span)}

/-- A tree of a height that is walked has operands of a lower one. -/
theorem exists_height (h : Walks width c place) :
    ∃ height, c.height = height + 1 ∧ WalksTo (height + 1) c place := by
  have hwalks := h.1
  cases hheight : c.height with
  | zero =>
    rw [hheight] at hwalks
    exact hwalks.elim
  | succ height =>
    rw [hheight] at hwalks
    exact ⟨height, rfl, hwalks⟩

theorem doc {v : Visit (List Span)} {t : Trail (List Span)} (h : Walks width c (.on v t)) :
    c.doc = v.doc := by
  simpa using (follows_stepper c.height).doc h.1

theorem spans {v : Visit (List Span)} {t : Trail (List Span)} (h : Walks width c (.on v t)) :
    c.spans = v.shown := by
  simpa using (follows_stepper c.height).spans h.1

theorem sound (h : Walks width c place) : place.pending.Sound :=
  (follows_stepper c.height).sound h.1

theorem remaining (h : Walks width c place) : place.ahead.length ≤ c.remaining := by
  simpa using (follows_stepper c.height).remaining h.1

/-- The next document of a tree is that of the next visit of its trail. -/
theorem next (h : Walks width c place) : Arrives (Walks width) c.next place.ahead := by
  obtain ⟨height, hheight, hwalks⟩ := h.exists_height
  rw [SpanCursor.next, hheight, ← h.2]
  exact (arrives_next (follows_stepper height) hwalks).mono fun _ _ => WalksAs.walks

/-- A skip of a tree leaves out the visits of its trail before the target. -/
theorem skipTo (h : Walks width c place) (target : Nat) :
    Arrives (Walks width) (c.skipTo target) (place.pending.since target) := by
  obtain ⟨height, hheight, hwalks⟩ := h.exists_height
  rw [SpanCursor.skipTo, hheight, ← h.2]
  exact (arrives_skipTo (follows_stepper height) target hwalks).mono fun _ _ => WalksAs.walks

end Walks

/-! ### Making trees -/

theorem walksTo_of_walks {cs : List SpanCursor} {sources : List (UInt32 × Trail (List Span))}
    (h : List.Forall₂ (fun c source => Walks source.1 c (.before source.2)) cs sources) :
    List.Forall₂ (fun c t => WalksTo (heightAll cs) c (.before t)) cs (sources.map (·.2)) := by
  rw [List.forall₂_map_right_iff]
  exact forall₂_imp_of_mem h fun c hc source hwalks =>
    hwalks.1.adjust (height_le_heightAll hc)

/-- A cursor over the occurrences of a term walks those postings that pass its gates. -/
theorem walks_ofPostings {detail : Detail} (hpos : detail.hasPositions = true)
    {c : PostingCursor} {t : Trail Posting} (h : PostingCursor.Walks detail c (.before t)) :
    Walks 1 (ofPostings c) (.before (t.showing (postingSpans detail))) :=
  ⟨TermWalks.before hpos h, rfl⟩

theorem walks_filtered {width : UInt32} {c : SpanCursor} {t : Trail (List Span)}
    (h : Walks width c (.before t)) (filter : SpanFilter) :
    Walks 1 (c.filtered filter) (.before (t.choosing filter.keep)) :=
  walks_of_walksTo (c.height + 1) (.before h.1)

theorem walks_anyOf {cs : List SpanCursor} {sources : List (UInt32 × Trail (List Span))}
    (h : List.Forall₂ (fun c source => Walks source.1 c (.before source.2)) cs sources) :
    Walks 1 (anyOf cs) (.before (SpanUnion.merged (sources.map (·.2)))) := by
  have hsubs : List.Forall₂ (fun c t => WalksTo (heightAll cs) c.2 (.before t))
      (cs.map fun c => (false, c)) (sources.map (·.2)) :=
    List.forall₂_map_left_iff.2 (walksTo_of_walks h)
  exact walks_of_walksTo (heightAll cs + 1) (.before rfl hsubs)

theorem walks_nearby {cs : List SpanCursor} {sources : List (UInt32 × Trail (List Span))}
    (h : List.Forall₂ (fun c source => Walks source.1 c (.before source.2)) cs sources)
    (slop : UInt32) (inOrder : Bool) :
    Walks sources.length.toUInt32 (nearby cs slop inOrder)
      (.before (SpanProximity.matched slop inOrder (sources.map (·.2)))) := by
  have hlength : (sources.map (·.2)).length = cs.length := by rw [List.length_map, h.length_eq]
  have hwalks : WalksTo (heightAll cs + 1) (nearby cs slop inOrder)
      (.before (SpanProximity.matched slop inOrder (sources.map (·.2)))) :=
    .before hlength rfl (walksTo_of_walks h) rfl
  rw [← h.length_eq]
  exact walks_of_walksTo _ hwalks

end TextSearch.SpanCursor
