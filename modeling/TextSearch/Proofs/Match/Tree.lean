import TextSearch.Proofs.Match.Exclusion
import TextSearch.Proofs.Match.Intersection
import TextSearch.Proofs.Match.Merit
import TextSearch.Proofs.Match.Preference
import TextSearch.Proofs.Match.Union
import TextSearch.Search.Execution

/-!
# Following trees of matchers

As with span cursors, the relation between a tree of matchers and its trail is
built up by height. Main statements: `Matcher.Walks.next` and
`Matcher.Walks.skipTo`, that the operations follow the trail, `Matcher.Walks.score`,
that the score shown is that of the trail, and `Matcher.Walks.hits`, that the hits
of a matcher are all visits of its trail.
-/

namespace TextSearch.Matcher

variable {R : Type} [ScoreNumber R]

/-- A tree of at most a height follows a trail. -/
def WalksTo : Nat → Matcher R → Trail (Merit R) → Prop
  | 0, _, _ => False
  | _ + 1, empty, t => t = []
  | _ + 1, postings m, t => PostingMatcher.Walks m t
  | _ + 1, spans m, t => SpanMatcher.Walks m t
  | height + 1, union m, t => MatchUnion.Walks (WalksTo height) Merit.sum m t
  | height + 1, intersection m, t => MatchIntersection.Walks (WalksTo height) Merit.sum m t
  | height + 1, exclusion m, t => MatchExclusion.Walks (WalksTo height) m t
  | height + 1, preference m, t => MatchPreference.Walks (WalksTo height) Merit.prefer m t

/-! ### The operations of one height -/

omit [ScoreNumber R] in
@[simp] theorem doc_stepper (height : Nat) : (stepper height).doc = doc (R := R) := by
  cases height <;> rfl

omit [ScoreNumber R] in
@[simp] theorem exhausted_stepper (height : Nat) :
    (stepper height).exhausted = exhausted (R := R) := by
  cases height <;> rfl

omit [ScoreNumber R] in
@[simp] theorem remaining_stepper (height : Nat) :
    (stepper height).remaining = remaining (R := R) := by
  cases height <;> rfl

omit [ScoreNumber R] in
theorem leaves_wrapped {α : Type} (wrap : α → Matcher R) {S : α → Trail (Merit R) → Prop}
    {T : Matcher R → Trail (Merit R) → Prop} (hwrap : ∀ m t, S m t → T (wrap m) t)
    {outcome : Except Fault (Bool × α)} {t : Trail (Merit R)} (h : Leaves S outcome t) :
    Leaves T (wrapped wrap outcome) t := by
  obtain ⟨m, rfl, hm⟩ := h
  exact ⟨wrap m, rfl, hwrap m t hm⟩

omit [ScoreNumber R] in
/-- As many visits lie ahead of a union as its matchers can make at most. -/
theorem length_union_le {S : Matcher R → Trail (Merit R) → Prop}
    (hS : ∀ m t, S m t → t.tail.length ≤ m.remaining) {ms : List (Matcher R)}
    {ts : List (Trail (Merit R))} (hsubs : List.Forall₂ S ms ts) :
    (Trail.union ts).length ≤ remainingAll ms + ms.length := by
  refine Nat.le_trans (Trail.length_union_le ts) ?_
  induction hsubs with
  | nil => exact Nat.le_refl _
  | cons hm _ ih =>
    have := hS _ _ hm
    simp only [Trail.visits, List.map_cons, total_cons, remainingAll, List.length_cons,
      List.length_tail] at ih this ⊢
    omega

omit [ScoreNumber R] in
theorem length_tail_meet_le {S : Matcher R → Trail (Merit R) → Prop}
    (hS : ∀ m t, S m t → t.tail.length ≤ m.remaining) {ms : List (Matcher R)}
    {v : Visit (Merit R)} {lead : Trail (Merit R)} {others : List (Trail (Merit R))} {d : Nat}
    (hsubs : List.Forall₂ S ms ((v :: lead) :: others))
    (hbegins : ∀ t ∈ (v :: lead) :: others, Trail.begins d t = true) :
    (Trail.meet ((v :: lead) :: others)).tail.length ≤ remainingAll ms := by
  obtain _ | ⟨hm, -⟩ := hsubs
  have := hS _ _ hm
  have := Trail.length_meet_le lead others
  rw [Trail.meet_of_begins hbegins, List.tail_cons, remainingAll]
  simp only [List.tail_cons] at *
  omega

section Levels

variable {height : Nat} (ih : (stepper height).Follows (WalksTo (R := R) height)) {m : Matcher R}
  {t : Trail (Merit R)}
include ih

theorem doc_walksTo (h : WalksTo (height + 1) m t) : m.doc = t.firstDoc := by
  match m, h with
  | empty, h => rw [show t = [] from h]; rfl
  | postings m, h => exact PostingMatcher.Walks.doc h
  | spans m, h => exact SpanMatcher.Walks.doc h
  | union m, h => exact MatchUnion.Walks.doc h
  | intersection m, h => exact MatchIntersection.Walks.doc h
  | exclusion m, h => exact MatchExclusion.Walks.doc h
  | preference ⟨required, optional⟩, h =>
    rw [doc]
    simpa using MatchPreference.Walks.doc ih h

theorem exhausted_walksTo (h : WalksTo (height + 1) m t) : m.exhausted = t.isEmpty := by
  match m, h with
  | empty, h => rw [show t = [] from h]; rfl
  | postings m, h => exact PostingMatcher.Walks.exhausted h
  | spans m, h => exact SpanMatcher.Walks.exhausted h
  | union m, h => exact MatchUnion.Walks.exhausted h
  | intersection m, h => exact MatchIntersection.Walks.exhausted h
  | exclusion m, h => exact MatchExclusion.Walks.exhausted h
  | preference ⟨required, optional⟩, h =>
    rw [exhausted]
    simpa using MatchPreference.Walks.exhausted ih h

theorem sound_walksTo (h : WalksTo (height + 1) m t) : t.Sound := by
  cases m with
  | empty => rw [show t = [] from h]; exact .nil
  | postings m => exact PostingMatcher.Walks.sound h
  | spans m => exact SpanMatcher.Walks.sound h
  | union m => exact MatchUnion.Walks.sound ih h
  | intersection m => exact MatchIntersection.Walks.sound ih h
  | exclusion m => exact MatchExclusion.Walks.sound ih h
  | preference m => exact MatchPreference.Walks.sound ih h

theorem length_tail_le (h : WalksTo (height + 1) m t) : t.tail.length ≤ m.remaining := by
  have hremaining : ∀ m t, WalksTo (R := R) height m t → t.tail.length ≤ m.remaining := by
    intro m t hm
    simpa using ih.remaining hm
  match m, h with
  | empty, h => rw [show t = [] from h]; exact Nat.zero_le _
  | postings m, h => exact PostingMatcher.Walks.remaining h
  | spans m, h => exact SpanMatcher.Walks.remaining h
  | union ⟨subs, current, exhausted, cost⟩, h =>
    have hwalks : MatchUnion.Walks (WalksTo height) Merit.sum
      ⟨subs, current, exhausted, cost⟩ t := h
    cases hwalks with
    | intro hsubs halive hcurrent hexhausted =>
      have := length_union_le hremaining hsubs
      simp only [Trail.showing, List.length_tail, List.length_map, remaining] at this ⊢
      omega
  | intersection ⟨subs, current, exhausted, cost⟩, h =>
    have hwalks : MatchIntersection.Walks (WalksTo height) Merit.sum
      ⟨subs, current, exhausted, cost⟩ t := h
    cases hwalks with
    | stopped hcurrent hexhausted => exact Nat.zero_le _
    | on hsubs hbegins hexhausted =>
      have := length_tail_meet_le hremaining hsubs hbegins
      rwa [remaining, Trail.showing, ← List.map_tail, List.length_map]
  | exclusion ⟨positive, negatives, _, _⟩, h =>
    rw [remaining]
    simpa using MatchExclusion.Walks.remaining ih h
  | preference ⟨required, optional⟩, h =>
    rw [remaining]
    simpa using MatchPreference.Walks.remaining ih h

theorem leaves_next (h : WalksTo (height + 1) m t) :
    Leaves (WalksTo (height + 1)) ((stepper (height + 1)).next m) t.tail := by
  cases m with
  | empty => rw [show t = [] from h]; exact ⟨empty, rfl, rfl⟩
  | postings m =>
    exact leaves_wrapped postings (T := WalksTo (height + 1)) (fun _ _ h => h)
      (PostingMatcher.Walks.next h)
  | spans m => exact leaves_wrapped spans (fun _ _ h => h) (SpanMatcher.Walks.next h)
  | union m => exact leaves_wrapped union (fun _ _ h => h) (MatchUnion.Walks.next ih h)
  | intersection m =>
    exact leaves_wrapped intersection (fun _ _ h => h) (MatchIntersection.Walks.next ih h)
  | exclusion m =>
    exact leaves_wrapped exclusion (fun _ _ h => h) (MatchExclusion.Walks.next ih h)
  | preference m =>
    exact leaves_wrapped preference (fun _ _ h => h) (MatchPreference.Walks.next ih h)

theorem leaves_skipTo (target : Nat) (h : WalksTo (height + 1) m t) :
    Leaves (WalksTo (height + 1)) ((stepper (height + 1)).skipTo target m) (t.since target) := by
  cases m with
  | empty => rw [show t = [] from h]; exact ⟨empty, rfl, rfl⟩
  | postings m =>
    exact leaves_wrapped postings (T := WalksTo (height + 1)) (fun _ _ h => h)
      (PostingMatcher.Walks.skipTo h target)
  | spans m => exact leaves_wrapped spans (fun _ _ h => h) (SpanMatcher.Walks.skipTo h target)
  | union m => exact leaves_wrapped union (fun _ _ h => h) (MatchUnion.Walks.skipTo ih h target)
  | intersection m =>
    exact leaves_wrapped intersection (fun _ _ h => h) (MatchIntersection.Walks.skipTo ih h target)
  | exclusion m =>
    exact leaves_wrapped exclusion (fun _ _ h => h) (MatchExclusion.Walks.skipTo ih h target)
  | preference m =>
    exact leaves_wrapped preference (fun _ _ h => h) (MatchPreference.Walks.skipTo ih h target)

end Levels

/-- The operations of every height follow the trails of the trees of that height. -/
theorem follows_stepper (height : Nat) :
    (stepper height).Follows (WalksTo (R := R) height) := by
  induction height with
  | zero => exact ⟨False.elim, False.elim, False.elim, False.elim, False.elim, fun _ => False.elim⟩
  | succ height ih =>
    refine ⟨?doc, ?exhausted, sound_walksTo ih, ?remaining, leaves_next ih, leaves_skipTo ih⟩
    case doc =>
      intro m t h
      rw [doc_stepper, doc_walksTo ih h]
    case exhausted =>
      intro m t h
      rw [exhausted_stepper, exhausted_walksTo ih h]
    case remaining =>
      intro m t h
      rw [remaining_stepper]
      exact length_tail_le ih h

/-! ### What is shown -/

/-- How often the current document matches and what it scores. -/
def merit (m : Matcher R) : Merit R := ⟨m.frequency, m.score⟩

/-- A relation under which a matcher stands on the first visit of its trail and shows it. -/
def Shows (S : Matcher R → Trail (Merit R) → Prop) : Prop :=
  ∀ {m v t}, S m (v :: t) → m.doc = v.doc ∧ m.merit = v.shown

/-- The matchers on a document show what their trails begin with there. -/
theorem meritsAt_eq {S : Matcher R → Trail (Merit R) → Prop} (hS : Shows S) (d : Nat)
    {ms : List (Matcher R)} {ts : List (Trail (Merit R))} (hsubs : List.Forall₂ S ms ts)
    (halive : ∀ t ∈ ts, t ≠ []) :
    frequenciesAt d ms = (Trail.heads d ts).map (·.frequency) ∧
      scoresAt d ms = (Trail.heads d ts).map (·.score) := by
  induction hsubs with
  | nil => exact ⟨rfl, rfl⟩
  | @cons m t ms ts hm _ ih =>
    obtain ⟨ht, hts⟩ := List.forall_mem_cons.1 halive
    obtain ⟨hfrequencies, hscores⟩ := ih hts
    cases t with
    | nil => exact absurd rfl ht
    | cons v t =>
      obtain ⟨hdoc, hmerit⟩ := hS hm
      rw [Trail.heads_cons_cons, frequenciesAt, scoresAt, hdoc, hfrequencies, hscores]
      by_cases hv : v.doc = d
      · rw [if_pos hv, if_pos hv, if_pos hv, ← hmerit]
        exact ⟨rfl, rfl⟩
      · rw [if_neg hv, if_neg hv, if_neg hv]
        exact ⟨rfl, rfl⟩

/-- Where all matchers are on a document, all of them show. -/
theorem merits_eq {S : Matcher R → Trail (Merit R) → Prop} (hS : Shows S) {d : Nat}
    {ms : List (Matcher R)} {ts : List (Trail (Merit R))} (hsubs : List.Forall₂ S ms ts)
    (hbegins : ∀ t ∈ ts, Trail.begins d t = true) :
    frequencies ms = (Trail.heads d ts).map (·.frequency) ∧
      scores ms = (Trail.heads d ts).map (·.score) := by
  induction hsubs with
  | nil => exact ⟨rfl, rfl⟩
  | @cons m t ms ts hm _ ih =>
    obtain ⟨ht, hts⟩ := List.forall_mem_cons.1 hbegins
    obtain ⟨hfrequencies, hscores⟩ := ih hts
    cases t with
    | nil => simp at ht
    | cons v t =>
      obtain ⟨hdoc, hmerit⟩ := hS hm
      have hv : v.doc = d := by simpa using ht
      rw [Trail.heads_cons_cons, frequencies, scores, hfrequencies, hscores, if_pos hv, ← hmerit]
      exact ⟨rfl, rfl⟩

theorem merit_union {S : Matcher R → Trail (Merit R) → Prop} (hS : Shows S)
    {m : MatchUnion (Matcher R)} {t : Trail (Merit R)} (h : MatchUnion.Walks S Merit.sum m t)
    {v : Visit (Merit R)} (hv : t.head? = some v) : (union m).merit = v.shown := by
  obtain ⟨ms, current, exhausted, cost⟩ := m
  cases h with
  | @intro ts hsubs halive hcurrent hexhausted =>
    cases hleast : Trail.leastDoc? ts with
    | none => simp [Trail.union_of_none hleast] at hv
    | some d =>
      rw [Trail.union_of_some hleast, Trail.firstDoc_cons] at hcurrent
      have hd : current = d := hcurrent
      obtain ⟨hfrequencies, hscores⟩ := meritsAt_eq hS d hsubs halive
      rw [Trail.union_of_some hleast, Trail.showing_cons, List.head?_cons] at hv
      cases hv
      rw [merit, frequency, score, hd, hfrequencies, hscores]
      rfl

theorem merit_intersection {S : Matcher R → Trail (Merit R) → Prop} (hS : Shows S)
    {m : MatchIntersection (Matcher R)} {t : Trail (Merit R)}
    (h : MatchIntersection.Walks S Merit.sum m t) {v : Visit (Merit R)}
    (hv : t.head? = some v) : (intersection m).merit = v.shown := by
  obtain ⟨ms, current, exhausted, cost⟩ := m
  cases h with
  | stopped hcurrent hexhausted => simp at hv
  | on hsubs hbegins hexhausted =>
    obtain ⟨hfrequencies, hscores⟩ := merits_eq hS hsubs hbegins
    rw [Trail.meet_of_begins hbegins, Trail.showing_cons, List.head?_cons] at hv
    cases hv
    rw [merit, frequency, score, hfrequencies, hscores]
    rfl

theorem merit_exclusion {S : Matcher R → Trail (Merit R) → Prop} (hS : Shows S)
    {m : MatchExclusion (Matcher R)} {t : Trail (Merit R)} (h : MatchExclusion.Walks S m t)
    {v : Visit (Merit R)} (hv : t.head? = some v) : (exclusion m).merit = v.shown := by
  obtain ⟨positive, negatives, current, exhausted⟩ := m
  cases h with
  | stopped hcurrent hexhausted => simp at hv
  | on hpositive hnegatives hcurrent hfree hexhausted =>
    rw [Trail.without_cons_of_not_mem hfree, List.head?_cons] at hv
    cases hv
    rw [← (hS hpositive).2, merit, frequency, score]
    rfl

theorem merit_preference {S : Matcher R → Trail (Merit R) → Prop} (hS : Shows S)
    (hend : ∀ m, S m [] → m.doc = endOfDocs) (hsound : ∀ m t, S m t → t.Sound)
    {m : MatchPreference (Matcher R)} {t : Trail (Merit R)}
    (h : MatchPreference.Walks S Merit.prefer m t) {v : Visit (Merit R)}
    (hv : t.head? = some v) : (preference m).merit = v.shown := by
  obtain ⟨required, optional⟩ := m
  cases h with
  | @intro r o hrequired hoptional hsynced =>
    cases r with
    | nil => simp at hv
    | cons u r =>
      rw [MatchPreference.accompanied_cons, List.head?_cons] at hv
      cases hv
      obtain ⟨hdoc, hmerit⟩ := hS hrequired
      have hbound := (hsound _ _ hrequired).bounded u (List.mem_cons_self ..)
      have hscore : (if optional.doc = u.doc then optional.score else ScoreNumber.zero) =
          (Trail.at? u.doc o).elim ScoreNumber.zero (·.score) := by
        cases o with
        | nil => rw [hend _ hoptional, if_neg (by omega)]; rfl
        | cons w o =>
          obtain ⟨hdoc', hmerit'⟩ := hS hoptional
          rw [hdoc', Trail.at?_cons]
          by_cases hw : w.doc = u.doc
          · rw [if_pos hw, if_pos hw, ← hmerit']
            rfl
          · have hle : u.doc ≤ w.doc := hsynced (by simp)
            have hnone : Trail.at? u.doc o = none := by
              rw [Trail.at?_eq_none_iff]
              intro hmem
              obtain ⟨x, hx, hxu⟩ := Trail.mem_docs.1 hmem
              have := (hsound _ _ hoptional).head_le (List.mem_cons_of_mem w hx)
              omega
            rw [if_neg hw, if_neg hw, hnone]
            rfl
      rw [merit, frequency, score, hdoc, hscore, Merit.prefer, ← hmerit]
      rfl

/-- A tree shows the first visit of its trail. -/
theorem shows_walksTo (height : Nat) : Shows (WalksTo (R := R) height) := by
  induction height with
  | zero => exact fun h => h.elim
  | succ height ih =>
    intro m v t h
    refine ⟨by simpa using (follows_stepper (height + 1)).doc h, ?_⟩
    cases m with
    | empty => exact absurd (show v :: t = [] from h) (by simp)
    | postings m =>
      have hwalks : PostingMatcher.Walks m (v :: t) := h
      rw [merit, frequency, score, hwalks.frequency, hwalks.score]
    | spans m =>
      have hwalks : SpanMatcher.Walks m (v :: t) := h
      rw [merit, frequency, score, hwalks.frequency, hwalks.score]
    | union m => exact merit_union ih h rfl
    | intersection m => exact merit_intersection ih h rfl
    | exclusion m => exact merit_exclusion ih h rfl
    | preference m =>
      have hfollows := follows_stepper (R := R) height
      refine merit_preference ih (fun m hm => ?_) (fun m t hm => hfollows.sound hm) h rfl
      simpa using hfollows.doc hm

/-! ### Trees of any height -/

omit [ScoreNumber R] in
theorem height_le_heightAll {m : Matcher R} :
    ∀ {ms : List (Matcher R)}, m ∈ ms → m.height ≤ heightAll ms
  | _ :: rest, h => by
    rw [heightAll]
    rcases List.mem_cons.1 h with rfl | h
    · exact Nat.le_max_left ..
    · exact Nat.le_trans (height_le_heightAll h) (Nat.le_max_right ..)

/-- Any height will do that is not below that of the tree. -/
theorem WalksTo.adjust {height : Nat} : ∀ {height' : Nat} {m : Matcher R} {t : Trail (Merit R)},
    WalksTo height m t → m.height ≤ height' → WalksTo height' m t := by
  induction height with
  | zero => exact fun h => h.elim
  | succ height ih =>
    intro height' m t h hle
    have hpos : 0 < m.height := by
      cases m <;> simp [Matcher.height]
    obtain ⟨height', rfl⟩ : ∃ n, height' = n + 1 := ⟨height' - 1, by omega⟩
    match m, h, hle with
    | empty, h, _ => exact h
    | postings m, h, _ => exact h
    | spans m, h, _ => exact h
    | union ⟨ms, _, _, _⟩, h, hle =>
      refine MatchUnion.Walks.mono h fun m hm t ht => ih ht ?_
      exact Nat.le_trans (height_le_heightAll hm) (Nat.le_of_succ_le_succ hle)
    | intersection ⟨ms, _, _, _⟩, h, hle =>
      refine MatchIntersection.Walks.mono h fun m hm t ht => ih ht ?_
      exact Nat.le_trans (height_le_heightAll hm) (Nat.le_of_succ_le_succ hle)
    | exclusion ⟨positive, negatives, _, _⟩, h, hle =>
      rw [Matcher.height] at hle
      have hmax := Nat.max_le.1 (Nat.le_of_succ_le_succ hle)
      exact MatchExclusion.Walks.mono h (fun t ht => ih ht hmax.1) fun m hm t ht =>
        ih ht (Nat.le_trans (height_le_heightAll hm) hmax.2)
    | preference ⟨required, optional⟩, h, hle =>
      rw [Matcher.height] at hle
      have hmax := Nat.max_le.1 (Nat.le_of_succ_le_succ hle)
      exact MatchPreference.Walks.mono h (fun t ht => ih ht hmax.1) fun t ht => ih ht hmax.2

/-- A tree follows a trail. -/
def Walks (m : Matcher R) (t : Trail (Merit R)) : Prop := WalksTo m.height m t

theorem walks_of_walksTo (height : Nat) {m : Matcher R} {t : Trail (Merit R)}
    (h : WalksTo height m t) : Walks m t := h.adjust (Nat.le_refl _)

/-- Trees follow trails as trees of any height that is great enough for all of them. -/
theorem walksTo_of_walks {ms : List (Matcher R)} {ts : List (Trail (Merit R))}
    (h : List.Forall₂ Walks ms ts) {height : Nat} (hheight : heightAll ms ≤ height) :
    List.Forall₂ (WalksTo height) ms ts :=
  forall₂_imp_of_mem h fun _ hm _ ht =>
    WalksTo.adjust ht (Nat.le_trans (height_le_heightAll hm) hheight)

namespace Walks

variable {m : Matcher R} {t : Trail (Merit R)}

theorem doc (h : Walks m t) : m.doc = t.firstDoc := by
  simpa using (follows_stepper m.height).doc h

theorem exhausted (h : Walks m t) : m.exhausted = t.isEmpty := by
  simpa using (follows_stepper m.height).exhausted h

theorem sound (h : Walks m t) : t.Sound := (follows_stepper m.height).sound h

theorem remaining (h : Walks m t) : t.tail.length ≤ m.remaining := by
  simpa using (follows_stepper m.height).remaining h

/-- The next document of a tree is that of the second visit of its trail. -/
theorem next (h : Walks m t) : Leaves Walks m.next t.tail :=
  ((follows_stepper m.height).next h).mono fun _ => walks_of_walksTo _

/-- A skip of a tree leaves out the visits of its trail before the target. -/
theorem skipTo (h : Walks m t) (target : Nat) :
    Leaves Walks (m.skipTo target) (t.since target) :=
  ((follows_stepper m.height).skipTo target h).mono fun _ => walks_of_walksTo _

theorem frequency {v : Visit (Merit R)} (h : Walks m (v :: t)) :
    m.frequency = v.shown.frequency :=
  congrArg Merit.frequency (shows_walksTo m.height h).2

theorem score {v : Visit (Merit R)} (h : Walks m (v :: t)) : m.score = v.shown.score :=
  congrArg Merit.score (shows_walksTo m.height h).2

end Walks

/-! ### Making trees -/

theorem walks_ofPostings {detail : Detail} {c : PostingCursor} {t : Trail Posting}
    (h : PostingCursor.Walks detail c (.before t)) (scorer : Option (BM25 R)) :
    Walks (ofPostings c scorer) (t.showing (Merit.ofPosting scorer)) :=
  PostingMatcher.walks_ofCursor h scorer

theorem walks_ofSpans {width : UInt32} {c : SpanCursor} {t : Trail (List Span)}
    (h : SpanCursor.Walks width c (.before t)) (scorer : Option (BM25 R)) :
    ∃ m, ofSpans c scorer = .ok m ∧ Walks m (t.showing (Merit.ofSpans scorer width)) := by
  obtain ⟨m, hm, hwalks⟩ := SpanMatcher.walks_ofCursor h scorer
  exact ⟨spans m, by rw [ofSpans, hm]; rfl, hwalks⟩

theorem walks_anyOf {ms : List (Matcher R)} {ts : List (Trail (Merit R))}
    (h : List.Forall₂ Walks ms ts) :
    Walks (anyOf ms) ((Trail.union ts).showing Merit.sum) := by
  have hwalks : MatchUnion.Walks _ Merit.sum _ _ :=
    MatchUnion.walks_ofSubs (follows_stepper (heightAll ms)) (walksTo_of_walks h (Nat.le_refl _))
  exact walks_of_walksTo (heightAll ms + 1) hwalks

theorem walks_allOf {ms : List (Matcher R)} {ts : List (Trail (Merit R))}
    (h : List.Forall₂ Walks ms ts) :
    ∃ m, allOf ms = .ok m ∧ Walks m ((Trail.meet ts).showing Merit.sum) := by
  obtain ⟨i, hi, hwalks⟩ : ∃ i, MatchIntersection.ofSubs (stepper (heightAll ms)) ms = .ok i ∧
      MatchIntersection.Walks (WalksTo (heightAll ms)) Merit.sum i
        ((Trail.meet ts).showing Merit.sum) :=
    MatchIntersection.walks_ofSubs (follows_stepper (heightAll ms))
      (walksTo_of_walks h (Nat.le_refl _))
  exact ⟨intersection i, by rw [allOf, hi]; rfl,
    walks_of_walksTo (heightAll ms + 1) hwalks⟩

theorem walks_excluding {m : Matcher R} {t : Trail (Merit R)} {ms : List (Matcher R)}
    {ns : List (Trail (Merit R))} (hpositive : Walks m t) (hnegatives : List.Forall₂ Walks ms ns) :
    ∃ m', m.excluding ms = .ok m' ∧ Walks m' (t.without ns) := by
  obtain ⟨e, he, hwalks⟩ := MatchExclusion.walks_ofSides
    (follows_stepper (max m.height (heightAll ms)))
    (WalksTo.adjust hpositive (Nat.le_max_left ..)) (walksTo_of_walks hnegatives (Nat.le_max_right ..))
  exact ⟨exclusion e, by rw [excluding, he]; rfl,
    walks_of_walksTo (max m.height (heightAll ms) + 1) hwalks⟩

theorem walks_preferring {m o : Matcher R} {required optional : Trail (Merit R)}
    (hrequired : Walks m required) (hoptional : Walks o optional) :
    ∃ m', m.preferring o = .ok m' ∧
      Walks m' (MatchPreference.accompanied Merit.prefer optional required) := by
  obtain ⟨p, hp, hwalks⟩ : ∃ p,
      MatchPreference.synced (stepper (max m.height o.height)) m o = .ok p ∧
      MatchPreference.Walks (WalksTo (max m.height o.height)) Merit.prefer p
        (MatchPreference.accompanied Merit.prefer optional required) :=
    MatchPreference.walks_synced (follows_stepper (max m.height o.height))
      (WalksTo.adjust hrequired (Nat.le_max_left ..)) (WalksTo.adjust hoptional (Nat.le_max_right ..))
  exact ⟨preference p, by rw [preferring, hp]; rfl,
    walks_of_walksTo (max m.height o.height + 1) hwalks⟩

/-! ### Hits -/

/-- The hits that a trail comes to. -/
def hitsOf (t : Trail (Merit R)) : List (Hit R) := t.map fun v => ⟨v.doc, v.shown.score⟩

theorem hitsWithin_eq (steps : Nat) {m : Matcher R} {t : Trail (Merit R)} (h : Walks m t)
    (hsteps : t.length < steps) : m.hitsWithin steps = .ok (hitsOf t) := by
  induction steps generalizing m t with
  | zero => exact absurd hsteps (Nat.not_lt_zero _)
  | succ steps ih =>
    rw [hitsWithin, h.exhausted]
    cases t with
    | nil => rfl
    | cons v t =>
      obtain ⟨m', hm', hwalks⟩ := h.next
      have hrest := ih hwalks (Nat.lt_of_succ_lt_succ hsteps)
      simp only [List.isEmpty_cons, Bool.false_eq_true, if_false, hm', bind, Except.bind, hrest]
      rw [h.doc, h.score]
      rfl

/-- A matcher has as its hits all visits of its trail. -/
theorem Walks.hits {m : Matcher R} {t : Trail (Merit R)} (h : Walks m t) :
    m.hits = .ok (hitsOf t) := by
  refine hitsWithin_eq _ h ?_
  have := h.remaining
  rw [List.length_tail] at this
  omega

end TextSearch.Matcher
