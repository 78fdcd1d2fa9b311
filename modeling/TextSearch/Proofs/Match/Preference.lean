import TextSearch.Proofs.Match.Walk

/-!
# Preferences of matchers

A preference follows the trail of its required side. What the optional side shows
on its first visit to a document is taken into account there, by a function that
the caller gives.
-/

namespace TextSearch.MatchPreference

variable {α β : Type} {ops : MatchStepper α} {R : α → Trail β → Prop} {prefer : β → Option β → β}

/-- A trail that takes into account what another one shows in the same documents. -/
def accompanied (prefer : β → Option β → β) (optional required : Trail β) : Trail β :=
  required.map fun v => ⟨v.doc, prefer v.shown (optional.at? v.doc)⟩

@[simp] theorem accompanied_nil (optional : Trail β) : accompanied prefer optional [] = [] := rfl

@[simp] theorem accompanied_cons (optional : Trail β) (v : Visit β) (t : Trail β) :
    accompanied prefer optional (v :: t) =
      ⟨v.doc, prefer v.shown (optional.at? v.doc)⟩ :: accompanied prefer optional t := rfl

@[simp] theorem docs_accompanied (optional required : Trail β) :
    (accompanied prefer optional required).docs = required.docs := by
  simp [Trail.docs, accompanied]

theorem accompanied_since (optional required : Trail β) (d : Nat) :
    accompanied prefer optional (required.since d) =
      (accompanied prefer optional required).since d := by
  rw [accompanied, accompanied, Trail.since, Trail.since, List.dropWhile_map]
  rfl

/-- The other trail may be skipped as far as the trail has come. -/
theorem accompanied_since_optional {required : Trail β} (h : required.Sound) (optional : Trail β) :
    accompanied prefer (optional.since required.firstDoc) required =
      accompanied prefer optional required := by
  refine List.map_congr_left fun v hv => ?_
  have hle : required.firstDoc ≤ v.doc := by
    cases required with
    | nil => cases hv
    | cons u t => exact h.head_le hv
  rw [Trail.at?_since hle]

/-- A preference follows its required side, and its optional side is not behind. -/
inductive Walks (R : α → Trail β → Prop) (prefer : β → Option β → β) :
    MatchPreference α → Trail β → Prop
  | intro {p : MatchPreference α} {required optional : Trail β} (hrequired : R p.required required)
    (hoptional : R p.optional optional)
    (hsynced : required ≠ [] → required.firstDoc ≤ optional.firstDoc) :
    Walks R prefer p (accompanied prefer optional required)

theorem Walks.mono {S : α → Trail β → Prop} {p : MatchPreference α} {t : Trail β}
    (hp : Walks R prefer p t) (hrequired : ∀ t, R p.required t → S p.required t)
    (hoptional : ∀ t, R p.optional t → S p.optional t) : Walks S prefer p t := by
  cases hp with
  | intro hreq hopt hsynced => exact .intro (hrequired _ hreq) (hoptional _ hopt) hsynced

/-- The optional side follows wherever the required side has come. -/
theorem walks_synced (h : ops.Follows R) {m o : α} {required optional : Trail β}
    (hrequired : R m required) (hoptional : R o optional) :
    ∃ p, synced ops m o = .ok p ∧ Walks R prefer p (accompanied prefer optional required) := by
  have hsound := h.sound hoptional
  simp only [synced, h.exhausted hrequired, h.exhausted hoptional, h.doc hrequired,
    h.doc hoptional]
  split
  · next hbehind =>
    obtain ⟨o', ho', hR⟩ := h.skipTo required.firstDoc hoptional
    refine ⟨⟨m, o'⟩, by simp only [ho', bind, Except.bind, Functor.map, Except.map], ?_⟩
    rw [← accompanied_since_optional (h.sound hrequired)]
    refine .intro hrequired hR fun hne => ?_
    exact hsound.le_firstDoc_since (Nat.le_of_lt ((h.sound hrequired).firstDoc_lt_iff.2 hne))
  · next hbehind =>
    refine ⟨⟨m, o⟩, rfl, .intro hrequired hoptional fun hne => ?_⟩
    cases optional with
    | nil => exact Nat.le_of_lt ((h.sound hrequired).firstDoc_lt_iff.2 hne)
    | cons v t =>
      refine Nat.le_of_not_lt fun hlt => hbehind ?_
      rw [Bool.and_eq_true, Bool.and_eq_true]
      exact ⟨⟨by simpa using hne, rfl⟩, decide_eq_true hlt⟩

theorem leaves_lead (h : ops.Follows R) {p : MatchPreference α}
    {move : α → Except Fault (Bool × α)} {left optional : Trail β}
    (hmove : Leaves R (move p.required) left) (hoptional : R p.optional optional) :
    Leaves (Walks R prefer) (p.lead ops move) (accompanied prefer optional left) := by
  obtain ⟨m', hm', hR⟩ := hmove
  obtain ⟨q, hq, hwalks⟩ : ∃ q, synced ops m' p.optional = .ok q ∧
      Walks R prefer q (accompanied prefer optional left) := walks_synced h hR hoptional
  refine ⟨q, ?_, hwalks⟩
  simp only [lead, hm', bind, Except.bind, hq]
  rw [accompanied, List.isEmpty_map]

namespace Walks

variable {p : MatchPreference α} {t : Trail β}

theorem doc (h : ops.Follows R) (hp : Walks R prefer p t) : ops.doc p.required = t.firstDoc := by
  cases hp with
  | @intro required optional hrequired hoptional hsynced =>
    rw [h.doc hrequired]
    cases required <;> rfl

theorem exhausted (h : ops.Follows R) (hp : Walks R prefer p t) :
    ops.exhausted p.required = t.isEmpty := by
  cases hp with
  | intro hrequired hoptional hsynced =>
    rw [h.exhausted hrequired, accompanied, List.isEmpty_map]

theorem sound (h : ops.Follows R) (hp : Walks R prefer p t) : t.Sound := by
  cases hp with
  | intro hrequired hoptional hsynced =>
    rw [Trail.sound_iff_docs, docs_accompanied, ← Trail.sound_iff_docs]
    exact h.sound hrequired

theorem remaining (h : ops.Follows R) (hp : Walks R prefer p t) :
    t.tail.length ≤ ops.remaining p.required := by
  cases hp with
  | intro hrequired hoptional hsynced =>
    simpa [accompanied] using h.remaining hrequired

theorem next (h : ops.Follows R) (hp : Walks R prefer p t) :
    Leaves (Walks R prefer) (p.next ops) t.tail := by
  cases hp with
  | @intro required optional hrequired hoptional hsynced =>
    have htail : (accompanied prefer optional required).tail =
        accompanied prefer optional required.tail := List.map_tail.symm
    rw [htail]
    exact leaves_lead h (h.next hrequired) hoptional

theorem skipTo (h : ops.Follows R) (hp : Walks R prefer p t) (target : Nat) :
    Leaves (Walks R prefer) (p.skipTo ops target) (t.since target) := by
  cases hp with
  | intro hrequired hoptional hsynced =>
    rw [← accompanied_since]
    exact leaves_lead h (h.skipTo target hrequired) hoptional

end Walks

end TextSearch.MatchPreference
