import TextSearch.Proofs.Search.Splitting

/-!
# Looking for terms with and without positions

Where a field stores positions, a term may be looked for in two ways: by its postings, which
say how often it occurs, or by its places, which are counted. Where scores are exact both find
the same documents with the same scores, whether or not the term has to occur a certain number
of times, and the terms of a selection are found in the same documents. Main statement:
`Searcher.positions_make_no_difference`.
-/

namespace TextSearch

/-! ### The places of single terms -/

namespace Span

theorem length_ofOccurrence_le (o : Occurrence) : (ofOccurrence o).length ≤ 1 := by
  rw [length]
  split
  · have hone : (ofOccurrence o).stop - (ofOccurrence o).start = 1 := by
      rw [ofOccurrence, UInt32.add_comm, UInt32.add_sub_cancel]
    rw [hone]
    exact UInt32.le_refl 1
  · exact UInt32.zero_le

variable {R : Type} [ScoreNumber R] [ExactCount R]

/-- Occurrences have no gaps, so that each of them counts as one. -/
theorem sloppyFrequency_map_ofOccurrence (os : List Occurrence) :
    sloppyFrequency 1 (os.map ofOccurrence) = (ScoreNumber.ofCount os.length : R) := by
  have hone : ∀ o : Occurrence, (ScoreNumber.one / (ScoreNumber.one +
      ScoreNumber.ofCount (excess (ofOccurrence o).length 1).toNat) : R) = ScoreNumber.one := by
    intro o
    have hexcess : excess (ofOccurrence o).length 1 = 0 :=
      if_neg (UInt32.not_lt.2 (length_ofOccurrence_le o))
    rw [hexcess]
    change (ScoreNumber.one / (ScoreNumber.one + ScoreNumber.ofCount 0) : R) = _
    rw [ExactCount.ofCount_zero, ExactScore.add_zero, ExactCount.one_div_one]
  rw [sloppyFrequency, List.map_map, ← ScoreNumber.sum_replicate_one, ← List.map_const']
  exact congrArg ScoreNumber.sum (List.map_congr_left fun o _ => hone o)

end Span

namespace Document

variable {declared : Dictionary IndexOptions} {doc : Document} {t : Term}

/-- A field that stores positions counts occurrences. -/
theorem frequency_of_positions (hpos : (declaredOptions declared t.field).hasPositions = true) :
    doc.frequency declared t = (doc.occurrences declared t).length := by
  have hcounts : declaredOptions declared t.field ≠ .documents := fun h => by
    rw [h] at hpos
    cases hpos
  rw [frequency, if_neg hcounts]

/-- A term that occurs often enough has places, if its field stores positions. -/
theorem isEmpty_termPlaces (hpos : (declaredOptions declared t.field).hasPositions = true)
    (payloads : Bool) (least : Option Threshold) :
    (doc.termPlaces declared payloads least t).isEmpty = !doc.reaches declared least t := by
  rw [termPlaces, hpos, Bool.true_and]
  cases hreaches : doc.reaches declared least t with
  | false => rfl
  | true =>
    obtain ⟨hoccurs, -⟩ := Bool.and_eq_true_iff.1 hreaches
    rw [if_pos rfl, List.isEmpty_map]
    simpa using hoccurs

/-- Places that are many enough are those of a term that occurs often enough. -/
theorem keep_termPlaces (hpos : (declaredOptions declared t.field).hasPositions = true)
    (payloads : Bool) (least : Threshold) :
    (if least.value ≤ (doc.termPlaces declared payloads none t).length then
        doc.termPlaces declared payloads none t else []) =
      doc.termPlaces declared payloads (some least) t := by
  rw [termPlaces, termPlaces, reaches, reaches, hpos, frequency_of_positions hpos]
  cases hos : doc.occurrences declared t with
  | nil => simp
  | cons o os => simp

end Document

namespace Query

/-- The queries for the documents in which a term occurs often enough. Some of them count
postings, others places. -/
inductive Seeks (t : Term) : Option Threshold → Query → Prop
  /-- The postings of the term. -/
  | term : Seeks t none (.term t)
  /-- The places of the term. -/
  | spanTerm : Seeks t none (.spanTerm t)
  /-- The postings that count the term often enough. -/
  | frequentTerm (least : Threshold) (carried : Option TermLookup) :
    Seeks t (some least) (.frequentTerm t least carried)
  /-- The places of the term in these postings. -/
  | frequentSpanTerm (least : Threshold) (carried : Option TermLookup) :
    Seeks t (some least) (.frequentSpanTerm t least carried)
  /-- The places of the term where there are enough of them. -/
  | frequentSpan (least : Threshold) : Seeks t (some least) (.frequentSpan (.spanTerm t) least)

variable {R : Type} [ScoreNumber R] {s : Snapshot} {declared : Dictionary IndexOptions}
  {doc : Document} {t : Term} {least : Option Threshold} {q : Query}

/-- The scorer of a single term by its places is that by its postings. -/
theorem spanScorer_eq_termScorer [ExactScore R] (hfield : q.spanField? = some t.field)
    (hterms : q.spanTerms = [t]) (scored : Bool) (boost : R) :
    q.spanScorer s scored boost =
      Weighing.termScorer s t (.ofSnapshot s t true) scored boost := by
  have hsorted : Term.sorted [t] = [t] := by simp [Term.sorted]
  rw [spanScorer, Weighing.termScorer, hfield, hterms, hsorted, Option.bind_some,
    List.filterMap_cons, List.filterMap_nil, ← TermLookup.totals?]
  cases s.fieldStatistics? t.field with
  | none => rfl
  | some field =>
    cases TermLookup.totals? s t with
    | none => rfl
    | some term => simp [BM25.ofTerms, BM25.ofTerm]

/-- The places of a term score what its postings do. -/
theorem spansScore?_termPlaces [ExactCount R]
    (hpos : (declaredOptions declared t.field).hasPositions = true)
    (hfield : q.spanField? = some t.field) (hterms : q.spanTerms = [t])
    (hwidths : q.spanWidths.headD 1 = 1) (boost : R) :
    q.spansScore? s boost (doc.termPlaces declared false least t) =
      termScoreIn? s declared doc boost t least := by
  rw [spansScore?, Document.isEmpty_termPlaces hpos, termScoreIn?]
  cases hreaches : doc.reaches declared least t with
  | false => rfl
  | true =>
    have hplaces : doc.termPlaces declared false least t =
        ((doc.occurrences declared t).map (·.withoutPayload)).map Span.ofOccurrence := by
      rw [Document.termPlaces, hpos, hreaches, List.map_map]
      rfl
    rw [Bool.not_true, if_neg Bool.false_ne_true, if_pos rfl, hwidths, Merit.ofSpans, hplaces,
      Span.sloppyFrequency_map_ofOccurrence, List.length_map, spanScorer_eq_termScorer hfield hterms,
      Document.frequency_of_positions hpos, List.length_map]

namespace Seeks

/-- What a document scores does not depend on how its term is looked for. -/
theorem scoreIn?_eq [ExactCount R] (h : Seeks t least q)
    (hpos : (declaredOptions declared t.field).hasPositions = true) (boost : R) :
    q.scoreIn? s declared doc boost = termScoreIn? s declared doc boost t least := by
  cases h with
  | term => rfl
  | frequentTerm least carried => rfl
  | spanTerm => exact spansScore?_termPlaces hpos rfl rfl rfl boost
  | frequentSpanTerm least carried => exact spansScore?_termPlaces hpos rfl rfl rfl boost
  | frequentSpan least =>
    have hplaces : (Query.frequentSpan (.spanTerm t) least).places declared doc false =
        doc.termPlaces declared false (some least) t := Document.keep_termPlaces hpos false least
    rw [scoreIn?_of_isSpan _ _ _ rfl, hplaces]
    exact spansScore?_termPlaces hpos rfl rfl rfl boost

theorem bound (h : Seeks t least q) : q.hasNode isUnbound = false := by
  cases h <;> rfl

theorem steady (h : Seeks t least q) : q.isSteady = true := by
  cases h <;> rfl

theorem runs (h : Seeks t least q) {positioned : String → Bool} (hpos : positioned t.field = true) :
    q.runs positioned = true := by
  cases h <;> first | rfl | exact hpos

/-- Among any documents the hits are the same, however the term is looked for. -/
theorem hitsIn_eq [ExactCount R] {q' : Query} (h : Seeks t least q) (h' : Seeks t least q')
    (hpos : (declaredOptions declared t.field).hasPositions = true) (base : Nat)
    (docs : List Document) :
    (q.hitsIn s declared base docs : List (Hit R)) = q'.hitsIn s declared base docs := by
  rw [hitsIn, hitsIn]
  simp only [h.scoreIn?_eq hpos, h'.scoreIn?_eq hpos]

end Seeks

/-- The places of a selection are in the documents that the selection matches. -/
theorem satisfiedBy_spanMultiTerm {m : MultiTerm}
    (hpos : (declaredOptions declared m.field).hasPositions = true) :
    (spanMultiTerm m).satisfiedBy declared doc = (multiTerm m).satisfiedBy declared doc := by
  change (!(((doc.texts m.field).filter m.selects).flatMap fun text =>
    doc.termPlaces declared false m.least ⟨m.field, text⟩).isEmpty) = _
  have happend : ∀ ss ss' : List Span, (!(ss ++ ss').isEmpty) = (!ss.isEmpty || !ss'.isEmpty) :=
    fun ss ss' => by cases ss <;> rfl
  rw [satisfiedBy]
  induction doc.texts m.field with
  | nil => rfl
  | cons text texts ih =>
    rw [List.any_cons, ← ih, List.filter_cons]
    cases m.selects text with
    | false => rfl
    | true =>
      have hplaces : (doc.termPlaces declared false m.least ⟨m.field, text⟩).isEmpty =
          !doc.reaches declared m.least ⟨m.field, text⟩ :=
        Document.isEmpty_termPlaces hpos false m.least
      rw [if_pos rfl, List.flatMap_cons, happend, hplaces, Bool.not_not, Bool.true_and]

end Query

/-! ### Grounding -/

namespace Searcher

variable {s : Searcher} {q q' r : Query} {m : MultiTerm} {ts : List Term}

/-- A query that a step leaves as it is takes one pass. -/
theorem grounded_eq_ok_of_done (hdone : s.groundStep q = .ok none) :
    s.grounded q = .ok r ↔ r = q ∧ 0 < s.settings.maxPasses := by
  rw [grounded, ground]
  cases s.settings.maxPasses with
  | zero => simp [groundWithin]
  | succ passes =>
    have hpass : s.groundWithin q (passes + 1) q = .ok none := by
      rw [groundWithin, hdone]
      rfl
    rw [hpass, except_map_eq_ok]
    simp [eq_comm]

/-- A query that a step changes once takes two passes. -/
theorem grounded_eq_ok_of_step (hstep : s.groundStep q = .ok (some q'))
    (hdone : s.groundStep q' = .ok none) :
    s.grounded q = .ok r ↔ r = q' ∧ 1 < s.settings.maxPasses := by
  rw [grounded, ground]
  rcases s.settings.maxPasses with _ | _ | passes
  · simp [groundWithin]
  · rw [groundWithin, hstep]
    simp [groundWithin, bind, Except.bind]
  · have hpass : s.groundWithin q (passes + 1) q' = .ok none := by
      rw [groundWithin, hdone]
      rfl
    have hpasses : s.groundWithin q (passes + 2) q = .ok (some q') := by
      rw [groundWithin, hstep]
      simp only [bind, Except.bind, hpass]
      rfl
    rw [hpasses, except_map_eq_ok]
    simp [eq_comm]

theorem groundStep_multiTerm (hts : expand s.snapshot s.settings.maxClauseCount m = .ok ts) :
    s.groundStep (.multiTerm m) = .ok (some (expansion m ts)) := by
  rw [groundStep, expandTerms, hts]
  rfl

theorem groundStep_spanMultiTerm (hts : expand s.snapshot s.settings.maxClauseCount m = .ok ts) :
    s.groundStep (.spanMultiTerm m) = .ok (some (.spanOr m.field (ts.map (selectedSpanTerm m)))) := by
  have hunion : Query.spanUnion m.field (ts.map (selectedSpanTerm m)) =
      .ok (.spanOr m.field (ts.map (selectedSpanTerm m))) := by
    refine Query.spanUnion_eq_ok.2 ⟨fun r hr => ?_, rfl⟩
    obtain ⟨t, ht, rfl⟩ := List.mem_map.1 hr
    rw [spanField?_selectedSpanTerm, field_of_expand hts t ht]
  rw [groundStep, expandSpanTerms, hts]
  exact congrArg (some <$> ·) hunion

/-- A selection and its places are expanded within the same limits. -/
theorem exists_grounded_multiTerm_iff :
    (∃ r, s.grounded (.multiTerm m) = .ok r) ↔ ∃ r, s.grounded (.spanMultiTerm m) = .ok r := by
  have hterms : ∀ ts, expand s.snapshot s.settings.maxClauseCount m = .ok ts → ∀ r,
      s.grounded (.multiTerm m) = .ok r ↔ r = expansion m ts ∧ 1 < s.settings.maxPasses :=
    fun ts hts _ => grounded_eq_ok_of_step (groundStep_multiTerm hts) (groundStep_expansion s m ts)
  have hspans : ∀ ts, expand s.snapshot s.settings.maxClauseCount m = .ok ts → ∀ r,
      s.grounded (.spanMultiTerm m) = .ok r ↔
        r = .spanOr m.field (ts.map (selectedSpanTerm m)) ∧ 1 < s.settings.maxPasses :=
    fun ts hts _ => grounded_eq_ok_of_step (groundStep_spanMultiTerm hts)
      (groundStep_spanExpansion s m ts)
  constructor
  · rintro ⟨r, hr⟩
    obtain ⟨ts, hts, -⟩ := (grounds_of_grounded hr).multiTerm
    exact ⟨_, (hspans ts hts _).2 ⟨rfl, ((hterms ts hts r).1 hr).2⟩⟩
  · rintro ⟨r, hr⟩
    obtain ⟨ts, hts, -⟩ := (grounds_of_grounded hr).spanMultiTerm
    exact ⟨_, (hterms ts hts _).2 ⟨rfl, ((hspans ts hts r).1 hr).2⟩⟩

theorem runs_of_grounded_multiTerm (h : s.grounded (.multiTerm m) = .ok r)
    (positioned : String → Bool) : r.runs positioned = true := by
  obtain ⟨ts, -, rfl⟩ := (grounds_of_grounded h).multiTerm
  have hclauses : ∀ ts : List Term, Query.clausesRun positioned
      (ts.map fun t => (.should, selectedTerm m t)) = true := by
    intro ts
    induction ts with
    | nil => rfl
    | cons t ts ih =>
      have hterm : (selectedTerm m t).runs positioned = true := by
        rw [selectedTerm]
        cases m.least <;> rfl
      rw [List.map_cons, Query.clausesRun, hterm, ih]
      rfl
  rw [expansion]
  split
  · rfl
  · exact hclauses ts

theorem runs_of_grounded_spanMultiTerm (h : s.grounded (.spanMultiTerm m) = .ok r)
    {positioned : String → Bool} (hpos : positioned m.field = true) :
    r.runs positioned = true := by
  obtain ⟨ts, hts, rfl⟩ := (grounds_of_grounded h).spanMultiTerm
  have hfields := field_of_expand hts
  clear hts h
  change Query.allSpansRun positioned (ts.map (selectedSpanTerm m)) = true
  induction ts with
  | nil => rfl
  | cons t ts ih =>
    obtain ⟨ht, hrest⟩ := List.forall_mem_cons.1 hfields
    have hterm : (selectedSpanTerm m t).spansRun positioned = true := by
      rw [← ht] at hpos
      rw [selectedSpanTerm]
      cases m.least <;> exact hpos
    rw [List.map_cons, Query.allSpansRun, hterm, ih hrest]
    rfl

/-! ### Searches -/

section Searches

open Weighing

variable {R : Type} [ScoreNumber R] {declared : Dictionary IndexOptions}
  {parts : List (List Document)}

/-- A search succeeds exactly if its query can be grounded, provided that what it is grounded to
runs. -/
theorem exists_yields_iff_grounded (h : s.snapshot.Holds declared parts)
    (hcount : parts.flatten.length ≤ endOfDocs)
    (hruns : ∀ r, s.grounded q = .ok r →
      r.runs (fun field => (declaredOptions declared field).hasPositions) = true)
    (hhonest : q.Honest s.snapshot) {c : LookupCache} (hc : c.Sound s.snapshot) (size : Nat) :
    (∃ (top : TopDocs R) (c₁ : LookupCache), Yields (s.search size q) c top c₁) ↔
      ∃ r, s.grounded q = .ok r := by
  constructor
  · rintro ⟨top, c₁, hsearch⟩
    obtain ⟨r, hr, -⟩ := topDocs_of_yields_search h.numbered (h.sound hcount) hc hsearch
    exact ⟨r, hr⟩
  · rintro ⟨r, hr⟩
    exact exists_yields_search h.numbered (h.sound hcount) h.positioned hr (hruns r hr)
      ((grounds_of_grounded hr).honest hhonest) hc size

/-- A search for a term succeeds if a pass is allowed at all. -/
theorem exists_yields_of_seeks (h : s.snapshot.Holds declared parts)
    (hcount : parts.flatten.length ≤ endOfDocs) {t : Term} {least : Option Threshold}
    (hpos : (declaredOptions declared t.field).hasPositions = true) (hq : q.Seeks t least)
    (hhonest : q.Honest s.snapshot) {c : LookupCache} (hc : c.Sound s.snapshot) (size : Nat) :
    (∃ (top : TopDocs R) (c₁ : LookupCache), Yields (s.search size q) c top c₁) ↔
      0 < s.settings.maxPasses := by
  have hground : ∀ r, s.grounded q = .ok r ↔ r = q ∧ 0 < s.settings.maxPasses :=
    fun _ => grounded_eq_ok_of_done (groundStep_of_bound hq.bound)
  rw [exists_yields_iff_grounded h hcount (fun r hr => ?_) hhonest hc]
  · constructor
    · rintro ⟨r, hr⟩
      exact ((hground r).1 hr).2
    · exact fun hpasses => ⟨q, (hground q).2 ⟨rfl, hpasses⟩⟩
  · rw [((hground r).1 hr).1]
    exact hq.runs hpos

variable [ExactCount R]

/-- Searches for a term find the same, however the term is looked for. -/
theorem yields_of_seeks (h : s.snapshot.Holds declared parts)
    (hcount : parts.flatten.length ≤ endOfDocs) (honce : ∀ doc ∈ parts.flatten, doc.NamesOnce)
    {t : Term} {least : Option Threshold}
    (hpos : (declaredOptions declared t.field).hasPositions = true) (hq : q.Seeks t least)
    (hq' : q'.Seeks t least) (hhonest : q.Honest s.snapshot) (hhonest' : q'.Honest s.snapshot)
    {c c' c₁ : LookupCache} (hc : c.Sound s.snapshot) (hc' : c'.Sound s.snapshot) {size : Nat}
    {top : TopDocs R} (hsearch : Yields (s.search size q) c top c₁) :
    ∃ c₁', Yields (s.search size q') c' top c₁' := by
  have hpasses := (exists_yields_of_seeks h hcount hpos hq hhonest hc size).1 ⟨top, c₁, hsearch⟩
  obtain ⟨top', c₁', hsearch'⟩ :=
    (exists_yields_of_seeks (R := R) h hcount hpos hq' hhonest' hc' size).2 hpasses
  have htop := topDocs_of_bound h hcount hq.bound hhonest hc hsearch
  have htop' := topDocs_of_bound h hcount hq'.bound hhonest' hc' hsearch'
  rw [topDocs_segmentHits h hcount honce hq.bound hq.steady, hq.hitsIn_eq hq' hpos,
    ← topDocs_segmentHits h hcount honce hq'.bound hq'.steady, ← htop'] at htop
  exact ⟨c₁', htop ▸ hsearch'⟩

omit [ExactCount R] in
/-- Searches for a selection find the same documents, whether by its postings or by its places. -/
theorem agree_of_selections (h : s.snapshot.Holds declared parts)
    (hcount : parts.flatten.length ≤ endOfDocs) (honce : ∀ doc ∈ parts.flatten, doc.NamesOnce)
    (hpos : (declaredOptions declared m.field).hasPositions = true) {c c' c₁ c₁' : LookupCache}
    (hc : c.Sound s.snapshot) (hc' : c'.Sound s.snapshot) {size : Nat} {top top' : TopDocs R}
    (hsearch : Yields (s.search size (.multiTerm m)) c top c₁)
    (hsearch' : Yields (s.search size (.spanMultiTerm m)) c' top' c₁') :
    top.totalHits = top'.totalHits ∧
      (top.totalHits ≤ size → (top.hits.map (·.doc)).Perm (top'.hits.map (·.doc))) := by
  obtain ⟨htotal, hhits⟩ := answers_of_holds h hcount honce rfl (by rintro l ⟨⟩) hc hsearch
  obtain ⟨htotal', hhits'⟩ := answers_of_holds h hcount honce rfl (by rintro l ⟨⟩) hc' hsearch'
  simp only [Query.satisfiedBy_spanMultiTerm hpos] at htotal' hhits'
  have hsame := htotal.trans htotal'.symm
  exact ⟨hsame, fun hsize => (hhits hsize).trans (hhits' (hsame ▸ hsize)).symm⟩

open IndexBuilder (accepted)

/-- In fields that store positions it makes no difference whether positions are looked at. A
search for a term, or for documents in which it occurs a number of times, yields the same hits
with the same scores by the postings of the term and by its places, and succeeds if a pass is
allowed at all. A search for a selection of terms succeeds by postings exactly if it does by
places, and finds the same documents. The documents have to be few enough to be numbered, none may
name a field twice, and lookups that queries or caches bring along have to be what they claim
to be. -/
theorem positions_make_no_difference (fields : List (String × IndexOptions))
    (steps : List BuilderStep) (id : Nat) (settings : Settings)
    (hcount : (accepted (.ofList fields) steps).length ≤ endOfDocs)
    (honce : ∀ doc ∈ accepted (.ofList fields) steps, doc.NamesOnce) {c c' : LookupCache}
    (hc : c.Sound (.ofSteps fields steps id)) (hc' : c'.Sound (.ofSteps fields steps id))
    (size : Nat) :
    (∀ (t : Term) (least : Option Threshold) (q q' : Query),
      (declaredOptions (.ofList fields) t.field).hasPositions = true →
      q.Seeks t least → q'.Seeks t least →
      q.Honest (.ofSteps fields steps id) → q'.Honest (.ofSteps fields steps id) →
        ((∃ (top : TopDocs R) (c₁ : LookupCache),
            Yields (search ⟨.ofSteps fields steps id, settings⟩ size q) c top c₁) ↔
          0 < settings.maxPasses) ∧
        ∀ top : TopDocs R,
          (∃ c₁, Yields (search ⟨.ofSteps fields steps id, settings⟩ size q) c top c₁) ↔
            ∃ c₁, Yields (search ⟨.ofSteps fields steps id, settings⟩ size q') c' top c₁) ∧
    ∀ m : MultiTerm, (declaredOptions (.ofList fields) m.field).hasPositions = true →
      ((∃ (top : TopDocs R) (c₁ : LookupCache),
          Yields (search ⟨.ofSteps fields steps id, settings⟩ size (.multiTerm m)) c top c₁) ↔
        ∃ (top : TopDocs R) (c₁ : LookupCache),
          Yields (search ⟨.ofSteps fields steps id, settings⟩ size (.spanMultiTerm m)) c' top c₁) ∧
      ∀ (top top' : TopDocs R) (c₁ c₁' : LookupCache),
        Yields (search ⟨.ofSteps fields steps id, settings⟩ size (.multiTerm m)) c top c₁ →
        Yields (search ⟨.ofSteps fields steps id, settings⟩ size (.spanMultiTerm m)) c' top' c₁' →
          top.totalHits = top'.totalHits ∧
            (top.totalHits ≤ size → (top.hits.map (·.doc)).Perm (top'.hits.map (·.doc))) := by
  have hholds := IndexBuilder.holds_build fields steps id
  rw [← IndexBuilder.flatten_ofSteps] at hcount honce
  let s : Searcher := ⟨.ofSteps fields steps id, settings⟩
  have h : s.snapshot.Holds (.ofList fields) _ := hholds
  constructor
  · intro t least q q' hpos hq hq' hhonest hhonest'
    refine ⟨exists_yields_of_seeks (s := s) h hcount hpos hq hhonest hc size, fun top => ?_⟩
    constructor
    · rintro ⟨c₁, hsearch⟩
      exact yields_of_seeks (s := s) h hcount honce hpos hq hq' hhonest hhonest' hc hc' hsearch
    · rintro ⟨c₁, hsearch⟩
      exact yields_of_seeks (s := s) h hcount honce hpos hq' hq hhonest' hhonest hc' hc hsearch
  · intro m hpos
    refine ⟨?_, fun top top' c₁ c₁' hsearch hsearch' =>
      agree_of_selections (s := s) h hcount honce hpos hc hc' hsearch hsearch'⟩
    rw [exists_yields_iff_grounded (s := s) h hcount
        (fun r hr => runs_of_grounded_multiTerm hr _) (by rintro l ⟨⟩) hc size,
      exists_yields_iff_grounded (s := s) h hcount
        (fun r hr => runs_of_grounded_spanMultiTerm hr hpos) (by rintro l ⟨⟩) hc' size]
    exact exists_grounded_multiTerm_iff

/-- A search for a term that occurs at least twice, and one for a prefix, over two segments. -/
theorem positions_make_no_difference_twice :
    let fields : List (String × IndexOptions) := [("body", .positions)]
    let steps : List BuilderStep :=
      [.add [("body", [⟨"fox", 0, none⟩, ⟨"quick", 1, none⟩, ⟨"fox", 2, none⟩])], .commit,
        .add [("body", [⟨"quiet", 0, none⟩, ⟨"fox", 1, none⟩])],
        .add [("body", [⟨"fox", 0, none⟩, ⟨"fox", 4, none⟩])]]
    let s : Searcher := ⟨.ofSteps fields steps 0, default⟩
    let t : Term := ⟨"body", "fox"⟩
    let m : MultiTerm := ⟨"body", .beginning "qui", none⟩
    ∃ (top found found' : TopDocs ℚ) (c₁ c₂ c₃ c₄ : LookupCache),
      Yields (s.search 10 (.frequentTerm t ⟨2, by decide⟩ none)) .empty top c₁ ∧
      Yields (s.search 10 (.frequentSpan (.spanTerm t) ⟨2, by decide⟩)) .empty top c₂ ∧
      top.hits.map (·.doc) = [0, 2] ∧
      Yields (s.search 10 (.multiTerm m)) .empty found c₃ ∧
      Yields (s.search 10 (.spanMultiTerm m)) .empty found' c₄ ∧
      (found'.hits.map (·.doc)).Perm [0, 1] := by
  intro fields steps s t m
  obtain ⟨hterms, hselections⟩ := positions_make_no_difference (R := ℚ) fields steps 0 default
    (by decide +kernel) (by decide +kernel) (LookupCache.sound_empty _) (LookupCache.sound_empty _) 10
  obtain ⟨top, c₁, hsearch, -, hdocs⟩ := exists_yields_search_eq (R := ℚ) s 10
    (.frequentTerm t ⟨2, by decide⟩ none) .empty 2 [0, 2] (by cbv)
  obtain ⟨found, c₃, hfound, htotal, hfounds⟩ := exists_yields_search_eq (R := ℚ) s 10
    (.multiTerm m) .empty 2 [0, 1] (by cbv)
  obtain ⟨-, hsame⟩ := hterms t (some ⟨2, by decide⟩) _ _ (by decide +kernel)
    (.frequentTerm _ none) (.frequentSpan _) (by rintro l ⟨⟩) (by rintro l ⟨⟩)
  obtain ⟨c₂, hsearch'⟩ := (hsame top).1 ⟨c₁, hsearch⟩
  obtain ⟨hsucceeds, hagree⟩ := hselections m (by decide +kernel)
  obtain ⟨found', c₄, hfound'⟩ := hsucceeds.1 ⟨found, c₃, hfound⟩
  obtain ⟨-, hperm⟩ := hagree found found' c₃ c₄ hfound hfound'
  exact ⟨top, found, found', c₁, c₂, c₃, c₄, hsearch, hsearch', hdocs, hfound, hfound',
    hfounds ▸ (hperm (by omega)).symm⟩

end Searches

end Searcher

end TextSearch
