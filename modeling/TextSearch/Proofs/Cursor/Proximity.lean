import TextSearch.Proofs.Cursor.Alignment

/-!
# Walking proximities

A proximity cursor aligns its operands and looks whether they match; if they do
not, it moves its first operand on and aligns again. It visits the documents
that all operands have and in which they match: `Walks.next`, `Walks.skipTo`.
-/

namespace TextSearch

variable {α : Type} {ops : SpanStepper α} {R : α → Place (List Span) → Prop}

namespace SpanProximity

theorem sound_of_forall₂_before (h : ops.Follows R) {cs : List α} {ts : List (Trail (List Span))}
    (hsubs : List.Forall₂ (fun c t => R c (.before t)) cs ts) : ∀ t ∈ ts, t.Sound := by
  induction hsubs with
  | nil => simp
  | cons hc _ ih => exact List.forall_mem_cons.2 ⟨h.sound (p := .before _) hc, ih⟩

/-- The trail of a proximity: the documents that all operands have and in which they match. -/
def matched (slop : UInt32) (inOrder : Bool) (ts : List (Trail (List Span))) :
    Trail (List Span) :=
  (Trail.meet ts).choosing (Span.near slop inOrder)

/-- A proximity whose operands walk trails walks the matches in what these have in common. -/
inductive Walks (R : α → Place (List Span) → Prop) (width : Nat) :
    SpanProximity α → Place (List Span) → Prop
  /-- No operand has moved. -/
  | before {c : SpanProximity α} {ts : List (Trail (List Span))} (hwidth : ts.length = width)
    (hstarted : c.started = false) (hsubs : List.Forall₂ (fun c t => R c (.before t)) c.subs ts)
    (hcurrent : c.current = endOfDocs) :
    Walks R width c (.before (matched c.slop c.inOrder ts))
  /-- All operands stand on the current document, where they match. -/
  | on {c : SpanProximity α} {v : Visit (List Span)} {lead : Trail (List Span)}
    {others : List (Trail (List Span))} (hwidth : others.length + 1 = width)
    (hstarted : c.started = true) (hsubs : List.Forall₂ (Stands R) c.subs ((v :: lead) :: others))
    (hmatched : matched c.slop c.inOrder ((v :: lead) :: others) =
      ⟨c.current, c.spans⟩ :: matched c.slop c.inOrder (lead :: others)) :
    Walks R width c (.on ⟨c.current, c.spans⟩ (matched c.slop c.inOrder (lead :: others)))

theorem Walks.length_subs {width : Nat} {c : SpanProximity α} {place : Place (List Span)}
    (hc : Walks R width c place) : c.subs.length = width := by
  cases hc with
  | before hwidth hstarted hsubs => rw [hsubs.length_eq, hwidth]
  | on hwidth hstarted hsubs hmatched => rw [hsubs.length_eq, List.length_cons, hwidth]

theorem Walks.mono {S : α → Place (List Span) → Prop} {width : Nat} {c : SpanProximity α}
    {place : Place (List Span)} (hc : Walks R width c place)
    (hRS : ∀ s ∈ c.subs, ∀ p, R s p → S s p) : Walks S width c place := by
  cases hc with
  | before hwidth hstarted hsubs hcurrent =>
    exact .before hwidth hstarted (forall₂_imp_of_mem hsubs fun s hs t => hRS s hs _) hcurrent
  | on hwidth hstarted hsubs hmatched =>
    refine .on hwidth hstarted (forall₂_imp_of_mem hsubs fun s hs t ht => ?_) hmatched
    cases t with
    | nil => exact ht
    | cons v t => exact hRS s hs _ ht

/-- The operands after a first move of the leading one or of all of them: standing on what is
left of their trails, or some trail has run out. -/
def Moved (R : α → Place (List Span) → Prop) (move : Bool × List α)
    (ts : List (Trail (List Span))) : Prop :=
  if move.1 then List.Forall₂ (Stands R) move.2 ts else [] ∈ ts

theorem matched_of_nil_mem {slop : UInt32} {inOrder : Bool} {ts : List (Trail (List Span))}
    (h : [] ∈ ts) : matched slop inOrder ts = [] := by
  rw [matched, Trail.meet_eq_nil_of_mem h]
  rfl

theorem matched_of_no_common {slop : UInt32} {inOrder : Bool} {ts : List (Trail (List Span))}
    (h : ∀ e, ¬ ∀ t ∈ ts, e ∈ t.docs) : matched slop inOrder ts = [] := by
  have hdocs : (Trail.meet ts).docs = [] :=
    List.eq_nil_iff_forall_not_mem.2 fun e he => h e (Trail.mem_docs_meet.1 he).2
  have hmeet : Trail.meet ts = [] := by simpa [Trail.docs] using hdocs
  rw [matched, hmeet]
  rfl

theorem sound_matched {slop : UInt32} {inOrder : Bool} {ts : List (Trail (List Span))}
    (hts : ∀ t ∈ ts, t.Sound) : (matched slop inOrder ts).Sound :=
  (Trail.sound_meet hts).choosing _

theorem matched_map_since {slop : UInt32} {inOrder : Bool} {ts : List (Trail (List Span))}
    (hts : ∀ t ∈ ts, t.Sound) (d : Nat) :
    matched slop inOrder (ts.map (Trail.since d)) = (matched slop inOrder ts).since d := by
  rw [matched, Trail.meet_map_since hts, (Trail.sound_meet hts).choosing_since, matched]

theorem matched_since_cons {slop : UInt32} {inOrder : Bool} {lead : Trail (List Span)}
    {others : List (Trail (List Span))} (hts : ∀ t ∈ lead :: others, t.Sound) (d : Nat) :
    matched slop inOrder (lead.since d :: others) =
      (matched slop inOrder (lead :: others)).since d := by
  rw [matched, Trail.meet_since_cons (hts lead (List.mem_cons_self ..)),
    (Trail.sound_meet hts).choosing_since, matched]

theorem start_spec {P : α → Trail (List Span) → Prop} {move : α → Except Fault (Bool × α)}
    {f : Trail (List Span) → Trail (List Span)}
    (hmove : ∀ c t, P c t → Arrives R (move c) (f t)) {subs : List α}
    {ts : List (Trail (List Span))} (hsubs : List.Forall₂ P subs ts) :
    ∃ moved, start move subs = .ok moved ∧ Moved R moved (ts.map f) := by
  induction hsubs with
  | nil => exact ⟨(true, []), rfl, .nil⟩
  | @cons c t subs ts hc _ ih =>
    obtain ⟨⟨found, c'⟩, hc', harrived⟩ := hmove c t hc
    cases found with
    | false =>
      refine ⟨(false, c' :: subs), ?_, ?_⟩
      · simp only [start, hc', bind, Except.bind, Bool.false_eq_true, if_false]
      · have hnil : f t = [] := by simpa using harrived.found.symm
        exact List.mem_cons.2 (.inl hnil.symm)
    | true =>
      obtain ⟨⟨all, rest⟩, hrest, hmoved⟩ := ih
      refine ⟨(all, c' :: rest), ?_, ?_⟩
      · simp only [start, hc', hrest, bind, Except.bind, if_true]
      · cases all with
        | false => exact List.mem_cons_of_mem _ hmoved
        | true => exact List.Forall₂.cons (harrived.stands rfl) hmoved

theorem lead_spec {move : α → Except Fault (Bool × α)} {c : α} {t : Trail (List Span)}
    (hmove : Arrives R (move c) t) {subs : List α} {others : List (Trail (List Span))}
    (hsubs : List.Forall₂ (Stands R) subs others) :
    ∃ moved, lead move (c :: subs) = .ok moved ∧ Moved R moved (t :: others) := by
  obtain ⟨⟨found, c'⟩, hc', harrived⟩ := hmove
  refine ⟨(found, c' :: subs), ?_, ?_⟩
  · simp only [lead, hc', bind, Except.bind]
  · cases found with
    | false =>
      have hnil : t = [] := by simpa using harrived.found.symm
      exact List.mem_cons.2 (.inl hnil.symm)
    | true => exact List.Forall₂.cons (harrived.stands rfl) hsubs

/-- The bound on what operands can still visit bounds what lies behind their current visits. -/
theorem visitsAhead_le (h : ops.Follows R) {subs : List α} {ts : List (Trail (List Span))}
    (hsubs : List.Forall₂ (Stands R) subs ts) : visitsAhead ts ≤ remaining ops subs := by
  induction hsubs with
  | nil => exact Nat.le_refl _
  | @cons c t subs ts hc _ ih =>
    cases t with
    | nil => exact hc.elim
    | cons v t =>
      have := h.remaining hc
      simp only [visitsAhead, remaining, List.map_cons, total_cons, List.length_cons,
        Place.ahead_on] at *
      omega

/-- What operands show that all stand on one document. -/
theorem allAt?_of_begins (h : ops.Follows R) {d : Nat} {subs : List α}
    {ts : List (Trail (List Span))} (hsubs : List.Forall₂ (Stands R) subs ts)
    (hbegins : ∀ t ∈ ts, Trail.begins d t = true) :
    Trail.allAt? d ts = some (subs.map ops.spans) := by
  rw [Trail.allAt?_eq_some_iff]
  induction hsubs with
  | nil => exact .nil
  | @cons c t subs ts hc _ ih =>
    obtain ⟨hbegin, hrest⟩ := List.forall_mem_cons.1 hbegins
    refine .cons ?_ (ih hrest)
    cases t with
    | nil => exact hc.elim
    | cons v t =>
      have hv : v.doc = d := by simpa using hbegin
      rw [Trail.at?_cons, if_pos hv, h.spans hc]

/-- What comes first in a proximity whose operands all stand on one document. -/
theorem matched_of_begins (h : ops.Follows R) (slop : UInt32) (inOrder : Bool) {d : Nat}
    {subs : List α} {v : Visit (List Span)} {lead : Trail (List Span)}
    {others : List (Trail (List Span))}
    (hsubs : List.Forall₂ (Stands R) subs ((v :: lead) :: others))
    (hbegins : ∀ t ∈ (v :: lead) :: others, Trail.begins d t = true) :
    matched slop inOrder ((v :: lead) :: others) =
      if Span.near slop inOrder (subs.map ops.spans) = [] then
        matched slop inOrder (lead :: others)
      else ⟨d, Span.near slop inOrder (subs.map ops.spans)⟩ ::
        matched slop inOrder (lead :: others) := by
  have hv : v.doc = d := by simpa using hbegins (v :: lead) (List.mem_cons_self ..)
  have hshown := allAt?_of_begins h hsubs hbegins
  rw [Trail.allAt?, Trail.at?_cons, if_pos hv] at hshown
  cases hrest : Trail.allAt? d others with
  | none => rw [hrest] at hshown; cases hshown
  | some us =>
    rw [hrest] at hshown
    have hspans : v.shown :: us = subs.map ops.spans := Option.some.inj hshown
    rw [matched, Trail.meet_cons_cons, hv, hrest]
    simp only [Trail.choosing_cons, hspans]
    rfl

/-- Nothing before the target of an alignment is in the proximity. -/
theorem matched_map_since_of_aligned {slop : UInt32} {inOrder : Bool} {p : AlignmentPass α}
    {ts : List (Trail (List Span))} (hts : ∀ t ∈ ts, t.Sound) (haligned : Aligned R ts p) :
    matched slop inOrder (ts.map (Trail.since p.target)) = matched slop inOrder ts := by
  rw [matched_map_since hts]
  refine Trail.since_eq_self fun v hv => haligned.least _ ?_
  have hdocs := (Trail.docs_choosing_sublist _ _).subset (List.mem_map_of_mem (f := (·.doc)) hv)
  exact (Trail.mem_docs_meet.1 hdocs).2

/-- What comes first in a proximity whose operands have been aligned. -/
theorem exists_matched_of_aligned (h : ops.Follows R) (slop : UInt32) (inOrder : Bool)
    {p : AlignmentPass α} {lead : Trail (List Span)} {others : List (Trail (List Span))}
    (hts : ∀ t ∈ lead :: others, t.Sound) (haligned : Aligned R (lead :: others) p) :
    ∃ v lead' others', lead'.length < lead.length ∧ others'.length = others.length ∧
      List.Forall₂ (Stands R) p.subs ((v :: lead') :: others') ∧
      matched slop inOrder ((v :: lead') :: others') = matched slop inOrder (lead :: others) ∧
      matched slop inOrder ((v :: lead') :: others') =
        if Span.near slop inOrder (p.subs.map ops.spans) = [] then
          matched slop inOrder (lead' :: others')
        else ⟨p.target, Span.near slop inOrder (p.subs.map ops.spans)⟩ ::
          matched slop inOrder (lead' :: others') := by
  have hstands := haligned.stands
  have hbegins : ∀ t ∈ (lead :: others).map (Trail.since p.target),
      Trail.begins p.target t = true := List.forall_mem_map.2 haligned.begins
  have hlength : (lead.since p.target).length ≤ lead.length := (Trail.since_sublist _ _).length_le
  have hothers : (others.map (Trail.since p.target)).length = others.length := List.length_map _
  have hsame : matched slop inOrder ((lead :: others).map (Trail.since p.target)) =
      matched slop inOrder (lead :: others) := matched_map_since_of_aligned hts haligned
  rw [List.map_cons] at hstands hbegins hsame
  cases hlead : lead.since p.target with
  | nil => simpa [hlead] using hbegins _ (List.mem_cons_self ..)
  | cons v lead' =>
    rw [hlead] at hstands hbegins hlength hsame
    exact ⟨v, lead', _, hlength, hothers, hstands, hsame,
      matched_of_begins h slop inOrder hstands hbegins⟩

/-- The leading operand is on no document beyond a common one. -/
theorem leadDoc_le (h : ops.Follows R) {subs : List α} {lead : Trail (List Span)}
    {others : List (Trail (List Span))} (hsubs : List.Forall₂ (Stands R) subs (lead :: others))
    {e : Nat} (he : ∀ t ∈ lead :: others, e ∈ t.docs) : leadDoc ops subs ≤ e := by
  obtain ⟨v, hv, rfl⟩ := Trail.mem_docs.1 (he lead (List.mem_cons_self ..))
  obtain ⟨c, rest, hc, -, rfl⟩ := List.forall₂_cons_right_iff.1 hsubs
  have hsound := h.sound_of_stands hc
  cases lead with
  | nil => cases hv
  | cons u lead =>
    have hu : leadDoc ops (c :: rest) = u.doc := h.doc hc
    rw [hu]
    exact hsound.head_le hv

/-- Alignments, with moves of the leading operand between them, that end by themselves: on a match,
or because some operand has nothing more. -/
inductive Settles (ops : SpanStepper α) (c : SpanProximity α) :
    Bool × List α → Bool × SpanProximity α → Prop
  /-- A move has found nothing. -/
  | nothing {subs : List α} : Settles ops c (false, subs) (false, c.stopped subs)
  /-- The operands cannot be aligned. -/
  | apart {subs : List α} {p : AlignmentPass α}
    (hpasses : Passes ops (leadDoc ops subs) subs p) (hdead : p.alive = false) :
    Settles ops c (true, subs) (false, c.stopped p.subs)
  /-- The operands match where they are aligned. -/
  | matching {subs : List α} {p : AlignmentPass α}
    (hpasses : Passes ops (leadDoc ops subs) subs p) (halive : p.alive = true)
    (hspans : (c.standing ops p.target p.subs).spans.isEmpty = false) :
    Settles ops c (true, subs) (true, c.standing ops p.target p.subs)
  /-- The operands do not match where they are aligned. -/
  | further {subs : List α} {p : AlignmentPass α} {move : Bool × List α}
    {outcome : Bool × SpanProximity α} (hpasses : Passes ops (leadDoc ops subs) subs p)
    (halive : p.alive = true) (hspans : (c.standing ops p.target p.subs).spans.isEmpty = true)
    (hlead : lead ops.next p.subs = .ok move) (hrest : Settles ops c move outcome) :
    Settles ops c (true, subs) outcome

/-- A proximity walks on until its operands match. -/
theorem arrives_settle (h : ops.Follows R) (c : SpanProximity α) (steps : Nat)
    {move : Bool × List α} {lead : Trail (List Span)} {others : List (Trail (List Span))}
    (hts : ∀ t ∈ lead :: others, t.Sound) (hmoved : Moved R move (lead :: others))
    (hsteps : lead.length < steps) :
    ∃ outcome, settle ops c steps move = .ok outcome ∧ Settles ops c move outcome ∧
      Arrived (Walks R (others.length + 1)) outcome
        (matched c.slop c.inOrder (lead :: others)) := by
  induction steps generalizing move lead others with
  | zero => omega
  | succ steps ih =>
    obtain ⟨found, subs⟩ := move
    cases found with
    | false =>
      rw [matched_of_nil_mem hmoved]
      exact ⟨_, rfl, .nothing, rfl⟩
    | true =>
      have hsubs : List.Forall₂ (Stands R) subs (lead :: others) := hmoved
      have hbound := visitsAhead_le h hsubs
      obtain ⟨p, hp, hpasses, hcases⟩ := align_spec h (remaining ops subs + 3) hsubs
        (fun e he => leadDoc_le h hsubs he) (.inl (by omega))
      rw [settle, if_pos rfl]
      simp only [hp, bind, Except.bind]
      rcases hcases with ⟨hdead, hnone⟩ | ⟨halive, haligned⟩
      · rw [matched_of_no_common hnone]
        simp only [hdead, Bool.false_eq_true, if_false]
        exact ⟨_, rfl, .apart hpasses hdead, rfl⟩
      · obtain ⟨v, lead', others', hshorter, hothers, hstands, hsame, hmatched⟩ :=
          exists_matched_of_aligned h c.slop c.inOrder hts haligned
        have hspans : (c.standing ops p.target p.subs).spans =
            Span.near c.slop c.inOrder (p.subs.map ops.spans) := rfl
        simp only [halive, if_true]
        rw [← hsame, hmatched, ← hothers]
        by_cases hnear : Span.near c.slop c.inOrder (p.subs.map ops.spans) = []
        · have hempty : (c.standing ops p.target p.subs).spans.isEmpty = true := by
            rw [hspans, hnear]
            rfl
          obtain ⟨c', rest, hc', hrest, hcons⟩ := List.forall₂_cons_right_iff.1 hstands
          obtain ⟨moved, hmoved, hnext⟩ := lead_spec (h.next hc') hrest
          have hsound := h.sound_of_forall₂_stands hstands
          have hts' : ∀ t ∈ lead' :: others', Trail.Sound t :=
            List.forall_mem_cons.2 ⟨(hsound _ (List.mem_cons_self ..)).tail,
              fun t ht => hsound t (List.mem_cons_of_mem _ ht)⟩
          rw [if_pos hnear]
          simp only [hempty, if_true]
          simp only [hcons, hmoved]
          obtain ⟨outcome, hsettle, hsettles, harrived⟩ := ih hts' hnext (by omega)
          exact ⟨outcome, hsettle, .further hpasses halive hempty (hcons ▸ hmoved) hsettles, harrived⟩
        · have hfull : (c.standing ops p.target p.subs).spans.isEmpty = false := by
            rw [hspans]
            simpa using hnear
          rw [if_neg hnear] at hmatched ⊢
          simp only [hfull, Bool.false_eq_true, if_false]
          exact ⟨_, rfl, .matching hpasses halive hfull, rfl, .on rfl rfl hstands hmatched⟩

theorem arrives_settled (h : ops.Follows R) (c : SpanProximity α) {move : Bool × List α}
    {lead : Trail (List Span)} {others : List (Trail (List Span))}
    (hts : ∀ t ∈ lead :: others, t.Sound) (hmoved : Moved R move (lead :: others)) :
    ∃ outcome, settled ops c move = .ok outcome ∧ Settles ops c move outcome ∧
      Arrived (Walks R (others.length + 1)) outcome
        (matched c.slop c.inOrder (lead :: others)) := by
  obtain ⟨found, subs⟩ := move
  cases found with
  | false =>
    rw [matched_of_nil_mem hmoved]
    exact ⟨_, rfl, .nothing, rfl⟩
  | true =>
    have hsubs : List.Forall₂ (Stands R) subs (lead :: others) := hmoved
    have hbound := visitsAhead_le h hsubs
    refine arrives_settle h c _ hts hmoved ?_
    simp only [visitsAhead, List.map_cons, total_cons] at hbound
    show lead.length < remaining ops subs + 2
    omega

variable {width : Nat} {c : SpanProximity α} {place : Place (List Span)}

/-- What comes of operands that have moved, if there are any. -/
def SettlesFrom (ops : SpanStepper α) (c : SpanProximity α)
    (moved : Except Fault (Bool × List α)) (outcome : Bool × SpanProximity α) : Prop :=
  c.subs = [] ∧ outcome = (false, c) ∨
    c.subs ≠ [] ∧ ∃ move, moved = .ok move ∧ Settles ops c move outcome

/-- A first move of all operands. -/
theorem arrives_start (h : ops.Follows R) {move : α → Except Fault (Bool × α)}
    {f : Trail (List Span) → Trail (List Span)}
    (hmove : ∀ c p, R c (.before p) → Arrives R (move c) (f p))
    {ts : List (Trail (List Span))}
    (hsubs : List.Forall₂ (fun c t => R c (.before t)) c.subs ts)
    (hts : ∀ t ∈ ts.map f, t.Sound) :
    ∃ outcome, (if c.subs.isEmpty then .ok (false, c)
        else start move c.subs >>= fun moved => settled ops c moved) = .ok outcome ∧
      SettlesFrom ops c (start move c.subs) outcome ∧
      Arrived (Walks R ts.length) outcome (matched c.slop c.inOrder (ts.map f)) := by
  obtain ⟨moved, hmoved, hready⟩ := start_spec hmove hsubs
  cases ts with
  | nil =>
    have hnil := List.forall₂_nil_right_iff.1 hsubs
    refine ⟨(false, c), ?_, .inl ⟨hnil, rfl⟩, rfl⟩
    rw [hnil]
    rfl
  | cons lead others =>
    obtain ⟨c', rest, -, -, hcons⟩ := List.forall₂_cons_right_iff.1 hsubs
    obtain ⟨outcome, houtcome, hsettles, harrived⟩ := arrives_settled h c hts hready
    rw [List.length_map] at harrived
    refine ⟨outcome, ?_, .inr ⟨by simp [hcons], moved, hmoved, hsettles⟩, harrived⟩
    rw [if_neg (by simp [hcons]), hmoved]
    exact houtcome

/-- A move of the leading operand. -/
theorem arrives_lead (h : ops.Follows R) {move : α → Except Fault (Bool × α)}
    {v : Visit (List Span)} {lead : Trail (List Span)} (lead' : Trail (List Span))
    {others : List (Trail (List Span))}
    (hmove : ∀ c, R c (.on v lead) → Arrives R (move c) lead')
    (hsubs : List.Forall₂ (Stands R) c.subs ((v :: lead) :: others)) (hlead : lead'.Sound) :
    ∃ outcome, (if c.subs.isEmpty then .ok (false, c)
        else SpanProximity.lead move c.subs >>= fun moved => settled ops c moved) = .ok outcome ∧
      SettlesFrom ops c (SpanProximity.lead move c.subs) outcome ∧
      Arrived (Walks R (others.length + 1)) outcome
        (matched c.slop c.inOrder (lead' :: others)) := by
  obtain ⟨c', rest, hc', hrest, hcons⟩ := List.forall₂_cons_right_iff.1 hsubs
  obtain ⟨moved, hmoved, hready⟩ := lead_spec (hmove c' hc') hrest
  have hts : ∀ t ∈ lead' :: others, t.Sound :=
    List.forall_mem_cons.2 ⟨hlead, h.sound_of_forall₂_stands hrest⟩
  obtain ⟨outcome, houtcome, hsettles, harrived⟩ := arrives_settled h c hts hready
  rw [← hcons] at hmoved
  refine ⟨outcome, ?_, .inr ⟨by simp [hcons], moved, hmoved, hsettles⟩, harrived⟩
  rw [if_neg (by simp [hcons]), hmoved]
  exact houtcome

/-- The first move of a proximity moves all operands, and every later one the leading operand. -/
def moving (move : α → Except Fault (Bool × α)) (c : SpanProximity α) :
    Except Fault (Bool × List α) :=
  if c.started then lead move c.subs else start move c.subs

/-- A move to the next document settles by itself, on the next visit. -/
theorem Walks.settles_next (h : ops.Follows R) (hc : Walks R width c place) :
    ∃ outcome, c.next ops = .ok outcome ∧ SettlesFrom ops c (moving ops.next c) outcome ∧
      Arrived (Walks R width) outcome place.ahead := by
  cases hc with
  | @before ts hwidth hstarted hsubs =>
    have hts : ∀ t ∈ ts.map id, t.Sound := by
      rw [List.map_id]
      exact sound_of_forall₂_before h hsubs
    have hstart := arrives_start (f := id) h (fun _ _ => h.next) hsubs hts
    rw [List.map_id, hwidth] at hstart
    simpa [SpanProximity.next, moving, hstarted] using hstart
  | @on v lead others hwidth hstarted hsubs hmatched =>
    have hsound := h.sound_of_forall₂_stands hsubs _ (List.mem_cons_self ..)
    have hlead := arrives_lead h _ (fun _ => h.next) hsubs hsound.tail
    rw [hwidth] at hlead
    simpa [SpanProximity.next, moving, hstarted] using hlead

/-- A skip settles by itself, on the first visit that is not before the target. -/
theorem Walks.settles_skipTo (h : ops.Follows R) (hc : Walks R width c place) (target : Nat) :
    ∃ outcome, c.skipTo ops target = .ok outcome ∧
      SettlesFrom ops c (moving (ops.skipTo target) c) outcome ∧
      Arrived (Walks R width) outcome (place.pending.since target) := by
  cases hc with
  | @before ts hwidth hstarted hsubs =>
    have hts := sound_of_forall₂_before h hsubs
    have hts' : ∀ t ∈ ts.map (Trail.since target), t.Sound := by
      intro t ht
      obtain ⟨s, hs, rfl⟩ := List.mem_map.1 ht
      exact (hts s hs).since _
    have hstart := arrives_start (f := Trail.since target) h (fun _ _ => h.skipTo target) hsubs hts'
    rw [matched_map_since hts, hwidth] at hstart
    simpa [SpanProximity.skipTo, moving, hstarted] using hstart
  | @on v lead others hwidth hstarted hsubs hmatched =>
    have hts := h.sound_of_forall₂_stands hsubs
    have hlead := arrives_lead h (Trail.since target (v :: lead)) (fun _ => h.skipTo target)
      hsubs ((hts _ (List.mem_cons_self ..)).since target)
    rw [matched_since_cons hts, hmatched, hwidth] at hlead
    simpa [SpanProximity.skipTo, moving, hstarted] using hlead

theorem Walks.next (h : ops.Follows R) (hc : Walks R width c place) :
    Arrives (Walks R width) (c.next ops) place.ahead := by
  obtain ⟨outcome, houtcome, -, harrived⟩ := hc.settles_next h
  exact ⟨outcome, houtcome, harrived⟩

theorem Walks.skipTo (h : ops.Follows R) (hc : Walks R width c place) (target : Nat) :
    Arrives (Walks R width) (c.skipTo ops target) (place.pending.since target) := by
  obtain ⟨outcome, houtcome, -, harrived⟩ := hc.settles_skipTo h target
  exact ⟨outcome, houtcome, harrived⟩

theorem Walks.sound (h : ops.Follows R) (hc : Walks R width c place) : place.pending.Sound := by
  cases hc with
  | before hwidth hstarted hsubs => exact sound_matched (sound_of_forall₂_before h hsubs)
  | on hwidth hstarted hsubs hmatched =>
    rw [Place.pending_on, ← hmatched]
    exact sound_matched (h.sound_of_forall₂_stands hsubs)

end SpanProximity

end TextSearch
