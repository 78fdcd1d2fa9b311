import TextSearch.Proofs.Cursor.Meeting
import TextSearch.Proofs.Cursor.Walk

/-!
# Alignment

A proximity cursor follows its first operand and brings the others up to it. A
pass skips every operand to a target that moves on with each operand beyond it.
`align_spec` says that passes end on the least document that all operands still
have, or find that there is none, within the number of steps they are given.
-/

namespace TextSearch

variable {α : Type} {ops : SpanStepper α} {R : α → Place (List Span) → Prop}

/-- A cursor stands on the first visit of a trail. -/
def Stands (R : α → Place (List Span) → Prop) (c : α) : Trail (List Span) → Prop
  | [] => False
  | v :: rest => R c (.on v rest)

theorem Arrived.stands {found : Bool} {c : α} {t : Trail (List Span)}
    (h : Arrived R (found, c) t) (hfound : found = true) : Stands R c t := by
  cases t with
  | nil => rw [hfound] at h; cases h
  | cons v t => exact h.2

namespace SpanStepper.Follows

theorem sound_of_stands (h : ops.Follows R) {c : α} {t : Trail (List Span)}
    (ht : Stands R c t) : t.Sound := by
  cases t with
  | nil => exact ht.elim
  | cons v t => exact h.sound ht

theorem sound_of_forall₂_stands (h : ops.Follows R) {cs : List α} {ts : List (Trail (List Span))}
    (hsubs : List.Forall₂ (Stands R) cs ts) : ∀ t ∈ ts, t.Sound := by
  induction hsubs with
  | nil => simp
  | cons hc _ ih => exact List.forall_mem_cons.2 ⟨h.sound_of_stands hc, ih⟩

end SpanStepper.Follows

namespace SpanProximity

/-- The number of visits that lie behind the first ones. -/
def visitsAhead (ts : List (Trail (List Span))) : Nat := total (ts.map fun t => t.length - 1)

/-- No trail begins with a document beyond the target. -/
def UpTo (target : Nat) (ts : List (Trail (List Span))) : Prop :=
  ∀ v t, v :: t ∈ ts → v.doc ≤ target

/-- Where a pass over operands has brought them if none of them ran out of documents. -/
structure Passed (R : α → Place (List Span) → Prop) (target : Nat)
    (ts : List (Trail (List Span))) (p : AlignmentPass α) (ts' : List (Trail (List Span))) :
    Prop where
  /-- The operands stand on the first visits of what is left of their trails. -/
  stands : List.Forall₂ (Stands R) p.subs ts'
  /-- They were skipped at most to the new target. -/
  skipped : List.Forall₂ (fun t t' => ∃ d ≤ p.target, t' = t.since d) ts ts'
  /-- The target only moves on. -/
  le_target : target ≤ p.target
  /-- The new target is not before any operand. -/
  upTo : UpTo p.target ts'
  /-- A pass that was aligned has left everything on the target. -/
  aligned : p.aligned = true → p.target = target ∧ ∀ t ∈ ts', Trail.begins target t = true
  /-- No visits are added. -/
  visits_le : visitsAhead ts' ≤ visitsAhead ts
  /-- If the target was not before any operand, a pass that was not aligned has skipped. -/
  visits_lt : UpTo target ts → p.aligned = false → visitsAhead ts' < visitsAhead ts

theorem pass_cons {target : Nat} {c : α} {move : Bool × α}
    (hmove : (if ops.doc c < target then ops.skipTo target c else .ok (true, c)) = .ok move)
    (rest : List α) :
    pass ops target (c :: rest) =
      if move.1 then
        (pass ops (max target (ops.doc move.2)) rest).map fun p =>
          { p with
            aligned := p.aligned && decide (ops.doc move.2 ≤ target)
            subs := move.2 :: p.subs }
      else .ok ⟨false, false, target, move.2 :: rest⟩ := by
  obtain ⟨found, c'⟩ := move
  by_cases hlt : ops.doc c < target
  · rw [if_pos hlt] at hmove
    cases found <;> simp only [pass, if_pos hlt, hmove, bind, Except.bind, Except.map]
  · rw [if_neg hlt] at hmove
    cases hmove
    simp only [pass, if_neg hlt, bind, Except.bind, Except.map]

/-- An operand is brought up to the target if it is behind it. -/
theorem arrives_broughtUp (h : ops.Follows R) {c : α} {v : Visit (List Span)}
    {t : Trail (List Span)} (hc : R c (.on v t)) (target : Nat) :
    Arrives R (if ops.doc c < target then ops.skipTo target c else .ok (true, c))
      (Trail.since target (v :: t)) := by
  rw [h.doc hc, Trail.since_cons]
  split
  · next hlt =>
    have harrives := h.skipTo target hc
    rwa [Place.pending_on, Trail.since_cons, if_pos hlt] at harrives
  · exact ⟨_, rfl, rfl, hc⟩

/-- A document of a trail that is not before the target is left by a skip. -/
theorem exists_mem_since {t : Trail (List Span)} (ht : t.Sound) {target e : Nat} (he : e ∈ t.docs)
    (hle : target ≤ e) : ∃ v ∈ t.since target, v.doc = e := by
  obtain ⟨v, hv, rfl⟩ := Trail.mem_docs.1 he
  exact ⟨v, ht.mem_since.2 ⟨hv, hle⟩, rfl⟩

/-- A pass over the operands after the first one, which has been brought up to the target, is a
pass over all of them. -/
theorem Passed.cons (h : ops.Follows R) {target : Nat} {c : α} {v w : Visit (List Span)}
    {t t' : Trail (List Span)} {ts ts' : List (Trail (List Span))} {p : AlignmentPass α}
    (htarget : target ≤ w.doc) (hsince : Trail.since target (v :: t) = w :: t')
    (hc : R c (.on w t')) (hpassed : Passed R w.doc ts p ts') :
    Passed R target ((v :: t) :: ts)
      { p with aligned := p.aligned && decide (ops.doc c ≤ target), subs := c :: p.subs }
      ((w :: t') :: ts') where
  stands := .cons hc hpassed.stands
  skipped := .cons ⟨target, Nat.le_trans htarget hpassed.le_target, hsince.symm⟩ hpassed.skipped
  le_target := Nat.le_trans htarget hpassed.le_target
  upTo := by
    intro u s hs
    rcases List.mem_cons.1 hs with hs | hs
    · cases hs
      exact hpassed.le_target
    · exact hpassed.upTo u s hs
  aligned := by
    intro haligned
    simp only [Bool.and_eq_true, decide_eq_true_eq, h.doc hc] at haligned
    obtain ⟨hsame, hbegins⟩ := hpassed.aligned haligned.1
    have hw : w.doc = target := Nat.le_antisymm haligned.2 htarget
    refine ⟨hsame.trans hw, fun s hs => ?_⟩
    rcases List.mem_cons.1 hs with rfl | hs
    · simpa using hw
    · rw [← hw]
      exact hbegins s hs
  visits_le := by
    have hlen : (w :: t').length ≤ (v :: t).length := by
      rw [← hsince]
      exact (Trail.since_sublist _ _).length_le
    have hle := hpassed.visits_le
    simp only [visitsAhead, List.map_cons, total_cons, List.length_cons] at hle hlen ⊢
    omega
  visits_lt := by
    intro hup hfalse
    have hle := hpassed.visits_le
    by_cases hlt : v.doc < target
    · -- the operand was behind the target, so at least one visit is gone
      have hdrop : (w :: t').length ≤ t.length := by
        rw [← hsince, Trail.since_cons, if_pos hlt]
        exact (Trail.since_sublist _ _).length_le
      simp only [visitsAhead, List.map_cons, total_cons, List.length_cons] at hle hdrop ⊢
      omega
    · -- the operand was on the target, so another one was not
      have hv : v.doc = target :=
        Nat.le_antisymm (hup v t (List.mem_cons_self ..)) (Nat.le_of_not_lt hlt)
      rw [Trail.since_cons, if_neg hlt] at hsince
      cases hsince
      have hrestUp : UpTo v.doc ts := fun u s hs => hv ▸ hup u s (List.mem_cons_of_mem _ hs)
      have hpfalse : p.aligned = false := by
        simpa [h.doc hc, hv] using hfalse
      have hfewer := hpassed.visits_lt hrestUp hpfalse
      simp only [visitsAhead, List.map_cons, total_cons, List.length_cons] at hfewer ⊢
      omega

/-- A pass either finds that no document is left which all operands have, or brings them
closer together without leaving such a document behind. -/
theorem pass_spec (h : ops.Follows R) (Common : Nat → Prop) {target : Nat} {subs : List α}
    {ts : List (Trail (List Span))} (hsubs : List.Forall₂ (Stands R) subs ts)
    (hcommon : ∀ e, Common e → target ≤ e ∧ ∀ t ∈ ts, e ∈ t.docs) :
    ∃ p, pass ops target subs = .ok p ∧
      ((p.alive = false ∧ ∀ e, ¬ Common e) ∨
        (p.alive = true ∧ (∀ e, Common e → p.target ≤ e) ∧ ∃ ts', Passed R target ts p ts')) := by
  induction hsubs generalizing target with
  | nil =>
    refine ⟨_, rfl, .inr ⟨rfl, fun e he => (hcommon e he).1, [], ?_⟩⟩
    exact
      { stands := .nil, skipped := .nil, le_target := Nat.le_refl _
        upTo := fun v t ht => by cases ht
        aligned := fun _ => ⟨rfl, fun t ht => by cases ht⟩
        visits_le := Nat.le_refl _
        visits_lt := fun _ hfalse => by cases hfalse }
  | @cons c t subs ts hc hrest ih =>
    cases t with
    | nil => exact hc.elim
    | cons v t =>
      have hsound : Trail.Sound (v :: t) := h.sound hc
      obtain ⟨⟨found, c'⟩, hmove, harrived⟩ := arrives_broughtUp h hc target
      have hleft : ∀ e, Common e → ∃ u ∈ Trail.since target (v :: t), u.doc = e := fun e he =>
        exists_mem_since hsound ((hcommon e he).2 _ (List.mem_cons_self ..)) (hcommon e he).1
      cases hsince : Trail.since target (v :: t) with
      | nil =>
        rw [hsince] at harrived hleft
        have hfound : found = false := harrived
        subst hfound
        refine ⟨⟨false, false, target, c' :: subs⟩, ?_, .inl ⟨rfl, fun e he => ?_⟩⟩
        · rw [pass_cons hmove]
          rfl
        · obtain ⟨u, hu, -⟩ := hleft e he
          cases hu
      | cons w t' =>
        have htarget : target ≤ w.doc := Trail.le_of_mem_since hsound (hsince ▸ List.mem_cons_self ..)
        rw [hsince] at harrived hleft
        obtain ⟨hfound, hc'⟩ := harrived
        have hfound : found = true := hfound
        subst hfound
        have hmax : max target (ops.doc c') = w.doc := by
          rw [h.doc hc']
          exact Nat.max_eq_right htarget
        have hsound' : Trail.Sound (w :: t') := h.sound hc'
        have hnext : ∀ e, Common e → w.doc ≤ e ∧ ∀ s ∈ ts, e ∈ s.docs := by
          intro e he
          obtain ⟨u, hu, rfl⟩ := hleft e he
          exact ⟨hsound'.head_le hu, fun s hs => (hcommon _ he).2 s (List.mem_cons_of_mem _ hs)⟩
        obtain ⟨p, hp, hcases⟩ := ih hnext
        refine ⟨{ p with aligned := p.aligned && decide (ops.doc c' ≤ target),
                         subs := c' :: p.subs }, ?_, ?_⟩
        · rw [pass_cons hmove]
          simp only [if_true, hmax, hp, Except.map]
        · rcases hcases with ⟨hdead, hnone⟩ | ⟨halive, hle, ts', hpassed⟩
          · exact .inl ⟨hdead, hnone⟩
          · exact .inr ⟨halive, hle, _, hpassed.cons h htarget hsince hc'⟩

/-- Where an alignment has brought the operands: on the least document that they all have. -/
structure Aligned (R : α → Place (List Span) → Prop) (ts : List (Trail (List Span)))
    (p : AlignmentPass α) : Prop where
  /-- The operands were skipped to the document. -/
  stands : List.Forall₂ (Stands R) p.subs (ts.map (Trail.since p.target))
  /-- Each of them stands on it. -/
  begins : ∀ t ∈ ts, Trail.begins p.target (t.since p.target) = true
  /-- No common document lies before it. -/
  least : ∀ e, (∀ t ∈ ts, e ∈ t.docs) → p.target ≤ e

theorem forall₂_since_trans {d e : Nat} {ts ts' : List (Trail (List Span))}
    (h : List.Forall₂ (fun t t' => ∃ c ≤ d, t' = Trail.since c t) ts ts') (hde : d ≤ e) :
    ts'.map (Trail.since e) = ts.map (Trail.since e) := by
  induction h with
  | nil => rfl
  | cons ht _ ih =>
    obtain ⟨c, hc, rfl⟩ := ht
    rw [List.map_cons, List.map_cons, ih, Trail.since_since (Nat.le_trans hc hde)]

theorem common_of_common_skipped {d : Nat} {ts ts' : List (Trail (List Span))}
    (h : List.Forall₂ (fun t t' => ∃ c ≤ d, t' = Trail.since c t) ts ts') {e : Nat}
    (he : ∀ t ∈ ts', e ∈ t.docs) : ∀ t ∈ ts, e ∈ t.docs := by
  induction h with
  | nil => simp
  | cons ht _ ih =>
    obtain ⟨c, hc, rfl⟩ := ht
    obtain ⟨he, hrest⟩ := List.forall_mem_cons.1 he
    refine List.forall_mem_cons.2 ⟨?_, ih hrest⟩
    exact ((Trail.since_sublist _ _).map _).subset he

/-- A skip leaves the documents that are not before its target. -/
theorem common_skipped_of_common {d : Nat} {ts ts' : List (Trail (List Span))}
    (hts : ∀ t ∈ ts, t.Sound)
    (h : List.Forall₂ (fun t t' => ∃ c ≤ d, t' = Trail.since c t) ts ts') {e : Nat} (hde : d ≤ e)
    (he : ∀ t ∈ ts, e ∈ t.docs) : ∀ t ∈ ts', e ∈ t.docs := by
  induction h with
  | nil => simp
  | cons ht _ ih =>
    obtain ⟨c, hc, rfl⟩ := ht
    obtain ⟨ht, hts⟩ := List.forall_mem_cons.1 hts
    obtain ⟨he, hrest⟩ := List.forall_mem_cons.1 he
    refine List.forall_mem_cons.2 ⟨?_, ih hts hrest⟩
    exact Trail.mem_docs.2 (exists_mem_since ht he (Nat.le_trans hc hde))

/-- Passes that end by themselves, because the operands are aligned or one of them has run out of
documents, and not for want of steps. -/
inductive Passes (ops : SpanStepper α) : Nat → List α → AlignmentPass α → Prop
  /-- The last pass. -/
  | last {target : Nat} {subs : List α} {p : AlignmentPass α}
    (hpass : pass ops target subs = .ok p) (hlast : (p.alive && !p.aligned) = false) :
    Passes ops target subs p
  /-- A pass before others. -/
  | further {target : Nat} {subs : List α} {p q : AlignmentPass α}
    (hpass : pass ops target subs = .ok p) (hmore : (p.alive && !p.aligned) = true)
    (hrest : Passes ops p.target p.subs q) : Passes ops target subs q

/-- A pass that was aligned has brought the operands onto the least document they all have. -/
theorem Passed.aligned_of_aligned {target : Nat} {ts ts' : List (Trail (List Span))}
    {p : AlignmentPass α} (hpassed : Passed R target ts p ts') (haligned : p.aligned = true)
    (hleast : ∀ e, (∀ t ∈ ts, e ∈ t.docs) → p.target ≤ e) : Aligned R ts p := by
  obtain ⟨hsame, hbegins⟩ := hpassed.aligned haligned
  have hstay : ∀ t ∈ ts', t.since p.target = t := by
    intro t ht
    cases t with
    | nil => rfl
    | cons v t =>
      have hv : v.doc = p.target := by simpa [hsame] using hbegins _ ht
      rw [Trail.since_cons, if_neg (by omega)]
  have hts' : ts.map (Trail.since p.target) = ts' := by
    rw [← forall₂_since_trans hpassed.skipped (Nat.le_refl _)]
    exact (List.map_congr_left hstay).trans (List.map_id ts')
  refine ⟨by rw [hts']; exact hpassed.stands, fun t ht => ?_, hleast⟩
  rw [hsame] at hts' ⊢
  exact hbegins _ (hts' ▸ List.mem_map_of_mem ht)

/-- Operands that stand on a document have it. -/
theorem Aligned.common {ts : List (Trail (List Span))} {p : AlignmentPass α} (h : Aligned R ts p) :
    ∀ t ∈ ts, p.target ∈ t.docs := by
  intro t ht
  have hbegins := h.begins t ht
  cases hsince : t.since p.target with
  | nil => simp [hsince] at hbegins
  | cons v s =>
    rw [hsince] at hbegins
    have hv : v ∈ t := (Trail.since_sublist _ _).subset (hsince ▸ List.mem_cons_self ..)
    exact Trail.mem_docs.2 ⟨v, hv, by simpa using hbegins⟩

/-- What is aligned after a pass is aligned with respect to the operands before it. -/
theorem Passed.aligned_of_later {target : Nat} {ts ts' : List (Trail (List Span))}
    (hts : ∀ t ∈ ts, t.Sound) {p q : AlignmentPass α} (hpassed : Passed R target ts p ts')
    (hleast : ∀ e, (∀ t ∈ ts, e ∈ t.docs) → p.target ≤ e) (hq : Aligned R ts' q) :
    Aligned R ts q := by
  have hle : p.target ≤ q.target :=
    hleast _ (common_of_common_skipped hpassed.skipped hq.common)
  have hsame := forall₂_since_trans hpassed.skipped hle
  refine ⟨hsame ▸ hq.stands, fun t ht => ?_, fun e he => ?_⟩
  · have hmem : t.since q.target ∈ ts'.map (Trail.since q.target) :=
      hsame ▸ List.mem_map_of_mem ht
    obtain ⟨t', ht', heq⟩ := List.mem_map.1 hmem
    rw [← heq]
    exact hq.begins t' ht'
  · exact hq.least e (common_skipped_of_common hts hpassed.skipped (hleast e he) he)

/-- Passes bring the operands onto the least document that all of them have, or find that there
is none. Only the first pass may leave all operands where they are without being aligned. -/
theorem align_spec (h : ops.Follows R) (steps : Nat) {target : Nat} {subs : List α}
    {ts : List (Trail (List Span))} (hsubs : List.Forall₂ (Stands R) subs ts)
    (htarget : ∀ e, (∀ t ∈ ts, e ∈ t.docs) → target ≤ e)
    (hsteps : visitsAhead ts + 1 < steps ∨ UpTo target ts ∧ visitsAhead ts < steps) :
    ∃ p, align ops steps target subs = .ok p ∧ Passes ops target subs p ∧
      ((p.alive = false ∧ ∀ e, ¬ ∀ t ∈ ts, e ∈ t.docs) ∨ (p.alive = true ∧ Aligned R ts p)) := by
  induction steps generalizing target subs ts with
  | zero => omega
  | succ steps ih =>
    have hts := h.sound_of_forall₂_stands hsubs
    obtain ⟨p, hp, hcases⟩ := pass_spec h (fun e => ∀ t ∈ ts, e ∈ t.docs) hsubs
      fun e he => ⟨htarget e he, he⟩
    rcases hcases with ⟨hdead, hnone⟩ | ⟨halive, hleast, ts', hpassed⟩
    · refine ⟨p, ?_, .last hp (by rw [hdead, Bool.false_and]), .inl ⟨hdead, hnone⟩⟩
      simp only [align, hp, bind, Except.bind, hdead, Bool.false_and, Bool.false_eq_true, if_false]
    · cases haligned : p.aligned with
      | true =>
        refine ⟨p, ?_, .last hp (by rw [haligned, Bool.not_true, Bool.and_false]),
          .inr ⟨halive, hpassed.aligned_of_aligned haligned hleast⟩⟩
        simp only [align, hp, bind, Except.bind, halive, haligned, Bool.not_true, Bool.and_false,
          Bool.false_eq_true, if_false]
      | false =>
        have hfewer : visitsAhead ts' < steps := by
          rcases hsteps with hlong | ⟨hup, hshort⟩
          · have := hpassed.visits_le
            omega
          · have := hpassed.visits_lt hup haligned
            omega
        have hcommon : ∀ e, (∀ t ∈ ts', e ∈ t.docs) → p.target ≤ e := fun e he =>
          hleast e (common_of_common_skipped hpassed.skipped he)
        obtain ⟨q, hq, hpasses, hqcases⟩ := ih hpassed.stands hcommon (.inr ⟨hpassed.upTo, hfewer⟩)
        refine ⟨q, ?_, .further hp (by rw [halive, haligned]; rfl) hpasses, ?_⟩
        · simp only [align, hp, bind, Except.bind, halive, haligned, Bool.not_false, Bool.and_self,
            if_true, hq]
        · rcases hqcases with ⟨hdead, hnone⟩ | ⟨hqalive, hqaligned⟩
          · refine .inl ⟨hdead, fun e he => hnone e ?_⟩
            exact common_skipped_of_common hts hpassed.skipped (hleast e he) he
          · exact .inr ⟨hqalive, hpassed.aligned_of_later hts hleast hqaligned⟩

end SpanProximity

end TextSearch
