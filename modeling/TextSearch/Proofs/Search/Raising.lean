import TextSearch.Proofs.Plan.Beside
import TextSearch.Proofs.Score.Ordered
import TextSearch.Proofs.Search.Positions

/-!
# Boosted exact forms raise scores

Putting the boosted exact forms of terms beside the terms does not change what a query matches:
a document that has a term without a payload has the term. Nor does it lower any score, where
boosts are not negative: combinations score what their clauses score together, and the exact
forms add to this. Main statement: `Searcher.exact_forms_raise`.
-/

namespace TextSearch

open ScoreNumber (Le)
open Plan (exactPlaces)

namespace Query

/-! ### Queries for terms -/

/-- The queries for a term that does not come from a phrase. -/
inductive IsFor (t : Term) : Query → Prop
  /-- The term. -/
  | term : IsFor t (.term t)
  /-- The term with a mark. -/
  | markedTerm {mark : Mark} (hmark : mark.same .phrase = false) : IsFor t (.markedTerm t mark)

/-- Combinations of terms that do not come from phrases, under boosts that are not negative. -/
inductive Termwise (R : Type) [ScoreNumber R] : Query → Prop
  /-- A term. -/
  | leaf {t : Term} {q : Query} (h : q.IsFor t) : Termwise R q
  /-- A boost. -/
  | boost {q : Query} {factor : Single}
    (hfactor : Le ScoreNumber.zero (ScoreNumber.ofBoost factor : R)) (h : Termwise R q) :
    Termwise R (.boost q factor)
  /-- A combination. -/
  | boolean {clauses : List (Occur × Query)} (h : ∀ c ∈ clauses, Termwise R c.2) :
    Termwise R (.boolean clauses)
  /-- The query that matches nothing. -/
  | nothing : Termwise R .nothing

/-- A query that is grounded, runs, and measures gaps in the same way everywhere. -/
structure Ready (positioned : String → Bool) (q : Query) : Prop where
  /-- Nothing is selected or put off. -/
  bound : q.hasNode isUnbound = false
  /-- Gaps are measured in the same way in all segments. -/
  steady : q.isSteady = true
  /-- Places are asked for only where they are stored. -/
  runs : q.runs positioned = true
  /-- No lookups are brought along. -/
  carriesNothing : q.carriedLookups = []

variable {positioned : String → Bool}

theorem Ready.boost {q : Query} (h : q.Ready positioned) (factor : Single) :
    (Query.boost q factor).Ready positioned := by
  refine ⟨?_, h.steady, h.runs, h.carriesNothing⟩
  rw [hasNode, h.bound]
  rfl

theorem ready_boolean {clauses : List (Occur × Query)}
    (h : ∀ c ∈ clauses, c.2.Ready positioned) : (boolean clauses).Ready positioned := by
  refine ⟨(hasNode_boolean rfl).2 fun c hc => (h c hc).bound, ?_, ?_, ?_⟩
  · induction clauses with
    | nil => rfl
    | cons c rest ih =>
      obtain ⟨hc, hrest⟩ := List.forall_mem_cons.1 h
      have hsteady : clausesAreSteady rest = true := ih hrest
      rw [isSteady, clausesAreSteady, hc.steady, hsteady, Bool.or_true, Bool.and_true]
  · induction clauses with
    | nil => rfl
    | cons c rest ih =>
      obtain ⟨hc, hrest⟩ := List.forall_mem_cons.1 h
      have hruns : clausesRun positioned rest = true := ih hrest
      rw [Query.runs, clausesRun, hc.runs, hruns, Bool.and_true]
  · induction clauses with
    | nil => rfl
    | cons c rest ih =>
      obtain ⟨hc, hrest⟩ := List.forall_mem_cons.1 h
      have hcarried : carriedByClauses rest = [] := ih hrest
      rw [carriedLookups, carriedByClauses, hc.carriesNothing, hcarried, List.append_nil]

theorem ready_exactPlaces {t : Term} (h : positioned t.field = true) :
    (exactPlaces t).Ready positioned := ⟨rfl, rfl, h, rfl⟩

theorem IsFor.ready {t : Term} {q : Query} (h : q.IsFor t) : q.Ready positioned := by
  cases h <;> exact ⟨rfl, rfl, rfl, rfl⟩

variable {R : Type} [ScoreNumber R]

theorem Termwise.ready {q : Query} (h : q.Termwise R) : q.Ready positioned := by
  induction h with
  | leaf h => exact h.ready
  | @boost _ factor _ _ ih => exact ih.boost factor
  | boolean _ ih => exact ready_boolean ih
  | nothing => exact ⟨rfl, rfl, rfl, rfl⟩

/-! ### Exact forms beside terms -/

/-- A query with the boosted places of a term without payloads beside it. -/
def besideExact (q : Query) (t : Term) (factor : Single) : Query :=
  .boolean [(.should, q), (.should, .boost (exactPlaces t) factor)]

section Forms

variable {p : Plan} {factor : Single} (hoptions : p.options.boostExactTokens = some factor)
include hoptions

/-- The exact form is put beside a term if there is text in its field. -/
theorem IsFor.withExact {t : Term} {q : Query} (h : q.IsFor t) :
    p.withExact q = if p.isTokenized t.field then q.besideExact t factor else q := by
  have hform : ∀ q, p.exactForm q t false = q.besideExact t factor := by
    intro q
    rw [Plan.exactForm, hoptions]
    rfl
  cases h with
  | term =>
    rw [Plan.withExact_leaf rfl, Plan.changeNode, hform]
    split <;> rfl
  | markedTerm hmark =>
    rw [Plan.withExact_leaf rfl, Plan.changeNode, hmark, hform]
    split <;> rfl

theorem Termwise.ready_withExact {q : Query} (h : q.Termwise R) :
    (p.withExact q).Ready p.isTokenized := by
  induction h with
  | @leaf t q h =>
    rw [h.withExact hoptions]
    split
    next htext =>
      exact ready_boolean (List.forall_mem_cons.2 ⟨h.ready,
        List.forall_mem_singleton.2 ((ready_exactPlaces htext).boost factor)⟩)
    next => exact h.ready
  | @boost _ factor _ _ ih =>
    rw [Plan.withExact]
    exact ih.boost factor
  | @boolean clauses _ ih =>
    rw [Plan.withExact, Plan.clausesWithExact_eq_map]
    exact ready_boolean (List.forall_mem_map.2 ih)
  | nothing => exact ⟨rfl, rfl, rfl, rfl⟩

end Forms

/-! ### What is matched -/

section Satisfaction

variable {declared : Dictionary IndexOptions} {doc : Document} {t : Term} {q : Query}

theorem IsFor.satisfiedBy (h : q.IsFor t) :
    q.satisfiedBy declared doc = doc.reaches declared none t := by
  cases h <;> rfl

/-- A document that has a term without a payload has the term. -/
theorem reaches_of_exactPlaces (h : (exactPlaces t).satisfiedBy declared doc = true) :
    doc.reaches declared none t = true := by
  by_contra hnot
  have hplaces : doc.termPlaces declared true none t = [] := by
    rw [Document.termPlaces, Bool.eq_false_iff.2 hnot, Bool.and_false]
    rfl
  have hnone : (exactPlaces t).places declared doc false = [] := by
    rw [exactPlaces, places, places, hplaces]
    rfl
  have hsatisfied : (!((exactPlaces t).places declared doc false).isEmpty) = true := h
  rw [hnone] at hsatisfied
  cases hsatisfied

theorem IsFor.satisfiedBy_besideExact (h : q.IsFor t) (factor : Single) :
    (q.besideExact t factor).satisfiedBy declared doc = q.satisfiedBy declared doc := by
  have hor : (q.besideExact t factor).satisfiedBy declared doc =
      (q.satisfiedBy declared doc || (exactPlaces t).satisfiedBy declared doc) := by
    change Occur.admits [(.should, q.satisfiedBy declared doc),
      (.should, (exactPlaces t).satisfiedBy declared doc)] = _
    simp [Occur.admits, Occur.allows, Occur.backs]
  rw [hor, h.satisfiedBy]
  cases hexact : (exactPlaces t).satisfiedBy declared doc with
  | true => rw [reaches_of_exactPlaces hexact]; rfl
  | false => rw [Bool.or_false]

variable {p : Plan} {factor : Single} (hoptions : p.options.boostExactTokens = some factor)
include hoptions

/-- Exact forms beside terms make no difference to which documents satisfy a query. -/
theorem Termwise.satisfiedBy_withExact (h : q.Termwise R) :
    (p.withExact q).satisfiedBy declared doc = q.satisfiedBy declared doc := by
  induction h with
  | @leaf t q h =>
    rw [h.withExact hoptions]
    split
    next => exact h.satisfiedBy_besideExact factor
    next => rfl
  | boost _ _ ih => exact ih
  | @boolean clauses h ih =>
    clear h
    have hclauses : clausesSatisfiedBy declared doc (p.clausesWithExact clauses) =
        clausesSatisfiedBy declared doc clauses := by
      induction clauses with
      | nil => rfl
      | cons c rest ihrest =>
        obtain ⟨hc, hrest⟩ := List.forall_mem_cons.1 ih
        rw [Plan.clausesWithExact, clausesSatisfiedBy, clausesSatisfiedBy, hc, ihrest hrest]
    exact congrArg Occur.admits hclauses
  | nothing => rfl

end Satisfaction

/-! ### What is scored -/

section Scores

variable {s : Snapshot} {declared : Dictionary IndexOptions} {parts : List (List Document)}
  {doc : Document} {t : Term} {q : Query} {boost : R}

theorem IsFor.scoreIn? (h : q.IsFor t) (s : Snapshot) (declared : Dictionary IndexOptions)
    (doc : Document) (boost : R) :
    q.scoreIn? s declared doc boost = termScoreIn? s declared doc boost t none := by
  cases h <;> rfl

variable [OrderedScore R]

/-- Nothing negative goes into the scorer of a term, whatever the index. -/
theorem nonNegative_of_termScorer (h : s.Holds declared parts)
    (honce : ∀ doc ∈ parts.flatten, doc.NamesOnce) (hboost : Le ScoreNumber.zero boost)
    {scorer : BM25 R}
    (hscorer : Weighing.termScorer s t (.ofSnapshot s t true) true boost = some scorer) :
    scorer.NonNegative := by
  have habsent : (BM25.absent boost).NonNegative :=
    BM25.nonNegative_ofTerm (Nat.le_refl 0) (ScoreNumber.le_refl _) hboost
  rw [Weighing.termScorer, if_pos rfl] at hscorer
  cases hfield : s.fieldStatistics? t.field with
  | none =>
    rw [hfield] at hscorer
    cases hscorer
    exact habsent
  | some field =>
    cases hterm : (TermLookup.ofSnapshot s t true).statistics? with
    | none =>
      rw [hfield, hterm] at hscorer
      cases hscorer
      exact habsent
    | some term =>
      rw [hfield, hterm] at hscorer
      cases hscorer
      exact BM25.nonNegative_ofTerm (h.docFreq_le_maxDoc honce hfield hterm)
        (OrderedScore.mean_nonneg _ _) hboost

/-- The places of a term without payloads do not score negatively. -/
theorem nonneg_of_exactPlaces (h : s.Holds declared parts)
    (honce : ∀ doc ∈ parts.flatten, doc.NamesOnce) (hboost : Le ScoreNumber.zero boost) {x : R}
    (hx : (exactPlaces t).scoreIn? s declared doc boost = some x) : Le ScoreNumber.zero x := by
  rw [scoreIn?_of_isSpan _ _ _ rfl, spansScore?, Option.ite_none_left_eq_some,
    spanScorer_eq_termScorer rfl rfl] at hx
  obtain ⟨-, hx⟩ := hx
  cases hx
  rw [Merit.ofSpans]
  cases hscorer : Weighing.termScorer s t (.ofSnapshot s t true) true boost with
  | none => exact ScoreNumber.le_refl _
  | some scorer =>
    refine (nonNegative_of_termScorer h honce hboost hscorer).score ?_
    refine ScoreNumber.sum_nonneg fun y hy => ?_
    obtain ⟨span, -, rfl⟩ := List.mem_map.1 hy
    exact OrderedScore.div_nonneg OrderedScore.one_nonneg
      (ScoreNumber.add_nonneg OrderedScore.one_nonneg (OrderedScore.ofCount_nonneg _))

section Raises

variable (h : s.Holds declared parts) (honce : ∀ doc ∈ parts.flatten, doc.NamesOnce)
  (hboost : Le ScoreNumber.zero boost)
include h honce hboost

/-- A term does not score less with its exact form beside it. -/
theorem IsFor.rel_besideExact (hq : q.IsFor t) {factor : Single}
    (hfactor : Le ScoreNumber.zero (ScoreNumber.ofBoost factor : R)) :
    Option.Rel Le (q.scoreIn? s declared doc boost)
      ((q.besideExact t factor).scoreIn? s declared doc boost) := by
  have hsame : (q.besideExact t factor).satisfiedBy declared doc = q.satisfiedBy declared doc :=
    hq.satisfiedBy_besideExact factor
  rw [besideExact] at hsame
  rw [besideExact, hq.scoreIn?, Query.scoreIn?, hsame, hq.satisfiedBy, termScoreIn?]
  by_cases hreaches : doc.reaches declared none t = true
  · rw [if_pos hreaches, if_pos hreaches]
    refine .some ?_
    rw [clauseScoresIn, if_neg (by decide), hq.scoreIn?, termScoreIn?, if_pos hreaches,
      Option.toList_some, List.singleton_append, ScoreNumber.sum_cons]
    refine ScoreNumber.le_add_right (ScoreNumber.sum_nonneg fun x hx => ?_)
    rw [clauseScoresIn, if_neg (by decide), clauseScoresIn, List.append_nil,
      Option.mem_toList] at hx
    exact nonneg_of_exactPlaces h honce (OrderedScore.mul_nonneg hboost hfactor) hx
  · rw [if_neg hreaches, if_neg hreaches]
    exact .none

variable {p : Plan} {factor : Single} (hoptions : p.options.boostExactTokens = some factor)
  (hfactor : Le ScoreNumber.zero (ScoreNumber.ofBoost factor : R))
include hoptions hfactor

/-- A document does not score less for a query with exact forms beside its terms. -/
theorem Termwise.rel_withExact (hq : q.Termwise R) :
    Option.Rel Le (q.scoreIn? s declared doc boost)
      ((p.withExact q).scoreIn? s declared doc boost) := by
  induction hq generalizing boost with
  | @leaf t q hq =>
    rw [hq.withExact hoptions]
    split
    next => exact hq.rel_besideExact h honce hboost hfactor
    next => exact rel_refl ScoreNumber.le_refl _
  | boost hinner _ ih => exact ih (OrderedScore.mul_nonneg hboost hinner)
  | @boolean clauses hq ih =>
    have hsatisfied : (Query.boolean (p.clausesWithExact clauses)).satisfiedBy declared doc =
        (Query.boolean clauses).satisfiedBy declared doc :=
      (Termwise.boolean hq).satisfiedBy_withExact hoptions
    have hclauses : List.Forall₂ Le (clauseScoresIn s declared doc boost clauses)
        (clauseScoresIn s declared doc boost (p.clausesWithExact clauses)) := by
      clear hq hsatisfied
      induction clauses with
      | nil => exact .nil
      | cons c rest ihrest =>
        obtain ⟨hc, hrest⟩ := List.forall_mem_cons.1 ih
        rw [Plan.clausesWithExact, clauseScoresIn, clauseScoresIn]
        refine List.rel_append ?_ (ihrest hrest)
        split
        · exact .nil
        · exact forall₂_toList (hc hboost)
    rw [Plan.withExact, scoreIn?, scoreIn?, hsatisfied]
    split
    · exact .some (ScoreNumber.sum_le_sum hclauses)
    · exact .none
  | nothing => exact rel_refl ScoreNumber.le_refl _

end Raises

end Scores

end Query

/-! ### Searches -/

/-- Fields store places in a snapshot if those of them do so that were declared: no document that
was accepted has others. -/
theorem Snapshot.Holds.positioned_of_declared {declared : Dictionary IndexOptions}
    {parts : List (List Document)} {s : Snapshot} (h : s.Holds declared parts)
    (haccepts : ∀ doc ∈ parts.flatten, IndexBuilder.accepts declared doc = true)
    {positioned : String → Bool} (hpositions : ∀ field options, positioned field = true →
      declared.get? field = some options → options.hasPositions = true) :
    s.Positioned positioned := by
  intro g hg field options hpositioned hoptions
  obtain ⟨docs, hdocs, hholds⟩ := SegmentsHold.exists_part h g hg
  have hstored := hholds.options? hoptions
  obtain ⟨f, hf, -⟩ := Option.map_eq_some_iff.1 hoptions
  have hfield := hholds.fields field
  rw [hf] at hfield
  obtain ⟨a, hadded⟩ := List.exists_mem_of_ne_nil _ hfield.1
  obtain ⟨doc, hdoc, htokens⟩ := mem_additions.1 hadded
  have hmem : doc ∈ parts.flatten := List.mem_flatten.2 ⟨docs, hdocs, List.mem_of_getElem? hdoc⟩
  obtain ⟨named, hnamed, -⟩ := List.mem_map.1 htokens
  obtain ⟨hnamed, hname⟩ := List.mem_filter.1 hnamed
  have hcontains := List.all_eq_true.1 (haccepts doc hmem) named hnamed
  rw [beq_iff_eq.1 (Bool.and_eq_true_iff.1 hname).1, Dictionary.contains] at hcontains
  obtain ⟨options', hget⟩ := Option.isSome_iff_exists.1 hcontains
  rw [declaredOptions, hget, Option.getD_some] at hstored
  exact hpositions field options hpositioned (hstored ▸ hget)

namespace Query

variable {R : Type} [ScoreNumber R]

/-- A hit is a document under its number, with what it scores. -/
theorem exists_of_mem_hitsIn {s : Snapshot} {declared : Dictionary IndexOptions} {q : Query}
    {docs : List Document} {hit : Hit R} (h : hit ∈ q.hitsIn s declared 0 docs) :
    ∃ doc, docs[hit.doc]? = some doc ∧
      q.scoreIn? s declared doc ScoreNumber.one = some hit.score := by
  obtain ⟨d, hd, hhit⟩ := List.mem_filterMap.1 h
  obtain ⟨score, hscore, rfl⟩ := Option.map_eq_some_iff.1 hhit
  exact ⟨d.1, List.mem_zipIdx_iff_getElem?.1 hd, hscore⟩

end Query

namespace Searcher

open Weighing (Yields)

variable {R : Type} [ScoreNumber R] {s : Searcher} {declared : Dictionary IndexOptions}
  {parts : List (List Document)} {positioned : String → Bool} {q q' : Query}

theorem honest_of_ready (hq : q.Ready positioned) (s : Snapshot) : q.Honest s := by
  intro l hl
  rw [hq.carriesNothing] at hl
  cases hl

/-- A search for a query that is grounded and runs takes a single pass. -/
theorem exists_yields_iff_of_ready (h : s.snapshot.Holds declared parts)
    (hcount : parts.flatten.length ≤ endOfDocs) (hpositioned : s.snapshot.Positioned positioned)
    (hq : q.Ready positioned) {c : LookupCache} (hc : c.Sound s.snapshot) (size : Nat) :
    (∃ (top : TopDocs R) (c₁ : LookupCache), Yields (s.search size q) c top c₁) ↔
      0 < s.settings.maxPasses := by
  have hground : ∀ r, s.grounded q = .ok r ↔ r = q ∧ 0 < s.settings.maxPasses := fun _ =>
    grounded_eq_ok_of_done (groundStep_of_bound hq.bound)
  constructor
  · rintro ⟨top, c₁, hsearch⟩
    obtain ⟨r, hr, -⟩ := topDocs_of_yields_search h.numbered (h.sound hcount) hc hsearch
    exact ((hground r).1 hr).2
  · intro hpasses
    exact exists_yields_search h.numbered (h.sound hcount) hpositioned
      ((hground q).2 ⟨rfl, hpasses⟩) hq.runs (honest_of_ready hq _) hc size

variable [OrderedScore R]

/-- Searches for a query for terms, and for the query with exact forms beside them. -/
theorem raised_of_searches (h : s.snapshot.Holds declared parts)
    (hcount : parts.flatten.length ≤ endOfDocs) (honce : ∀ doc ∈ parts.flatten, doc.NamesOnce)
    {p : Plan} {factor : Single} (hoptions : p.options.boostExactTokens = some factor)
    (hfactor : Le ScoreNumber.zero (ScoreNumber.ofBoost factor : R)) (hq : q.Termwise R)
    {c c' c₁ c₁' : LookupCache} (hc : c.Sound s.snapshot) (hc' : c'.Sound s.snapshot)
    {size size' : Nat} {top top' : TopDocs R} (hsearch : Yields (s.search size q) c top c₁)
    (hsearch' : Yields (s.search size' (p.withExact q)) c' top' c₁') :
    top'.totalHits = top.totalHits ∧
      (top.totalHits ≤ size → top.totalHits ≤ size' →
        (top'.hits.map (·.doc)).Perm (top.hits.map (·.doc))) ∧
      ∀ hit ∈ top.hits, ∀ hit' ∈ top'.hits, hit.doc = hit'.doc → Le hit.score hit'.score := by
  have hready : q.Ready p.isTokenized := hq.ready
  have hready' := hq.ready_withExact hoptions
  have htop := topDocs_of_bound h hcount hready.bound (honest_of_ready hready _) hc hsearch
  have htop' := topDocs_of_bound h hcount hready'.bound (honest_of_ready hready' _) hc' hsearch'
  let hss : List (List (Hit R)) := s.snapshot.segments.map (q.segmentHits s.snapshot)
  let hss' : List (List (Hit R)) := s.snapshot.segments.map ((p.withExact q).segmentHits s.snapshot)
  have hhits : hss.flatten = _ :=
    flatten_segmentHits h hcount honce hready.bound hready.steady
  have hhits' : hss'.flatten = _ :=
    flatten_segmentHits h hcount honce hready'.bound hready'.steady
  -- both searches see the documents that satisfy the query
  have hdocs : hss'.flatten.map (·.doc) = hss.flatten.map (·.doc) := by
    have hsatisfied : (fun doc => (p.withExact q).satisfiedBy declared doc) =
        fun doc => q.satisfiedBy declared doc :=
      funext fun doc => hq.satisfiedBy_withExact hoptions
    rw [docs_flatten_segmentHits h hcount honce (Query.defersNothing_of_bound hready.bound)
        (grounds_self hready.bound),
      docs_flatten_segmentHits h hcount honce (Query.defersNothing_of_bound hready'.bound)
        (grounds_self hready'.bound), hsatisfied]
  have hlength : hss'.flatten.length = hss.flatten.length := by
    have hsame := congrArg List.length hdocs
    rwa [List.length_map, List.length_map] at hsame
  have hseen : top.totalHits = hss.flatten.length := by rw [htop]; exact TopHits.seen_ofParts ..
  have hseen' : top'.totalHits = hss'.flatten.length := by rw [htop']; exact TopHits.seen_ofParts ..
  rw [htop, htop'] at *
  refine ⟨hseen'.trans (hlength.trans hseen.symm), fun hsize hsize' => ?_, ?_⟩
  · have hkept := (TopHits.kept_ofParts_perm (hseen.ge.trans hsize)).map (·.doc)
    have hkept' := (TopHits.kept_ofParts_perm
      (hlength.le.trans (hseen.ge.trans hsize'))).map (·.doc)
    rw [hdocs] at hkept'
    exact hkept'.trans hkept.symm
  · intro hit hhit hit' hhit' hsame
    have hmem := TopHits.mem_of_mem_kept hhit
    have hmem' := TopHits.mem_of_mem_kept hhit'
    rw [hhits] at hmem
    rw [hhits'] at hmem'
    obtain ⟨doc, hdoc, hscore⟩ := Query.exists_of_mem_hitsIn hmem
    obtain ⟨doc', hdoc', hscore'⟩ := Query.exists_of_mem_hitsIn hmem'
    rw [← hsame, hdoc] at hdoc'
    cases hdoc'
    have hrel : Option.Rel Le (q.scoreIn? s.snapshot declared doc ScoreNumber.one)
        ((p.withExact q).scoreIn? s.snapshot declared doc ScoreNumber.one) :=
      hq.rel_withExact h honce OrderedScore.one_nonneg hoptions hfactor
    rw [hscore, hscore'] at hrel
    cases hrel with
    | some hle => exact hle

open IndexBuilder (accepted)

/-- Putting the boosted exact forms of terms beside the terms raises scores and leaves the matches
as they are. The plan goes through boosts and makes terms exact; the fields that it takes to have
text have positions if they are declared, no document names a field twice, and no boost is
negative. The traversal comes to an end if it may make a pass. Then searches for the query and
for what the traversal makes of it succeed if they may make a pass, count the same documents and
list the same ones if there is room for all, and no document scores less than before. -/
theorem exact_forms_raise (fields : List (String × IndexOptions)) (steps : List BuilderStep)
    (id : Nat) (settings : Settings) (hcount : (accepted (.ofList fields) steps).length ≤ endOfDocs)
    (honce : ∀ doc ∈ accepted (.ofList fields) steps, doc.NamesOnce) {p : Plan}
    (hchain : p.chain = Plan.exactTermChain)
    (hpositions : ∀ field options, p.isTokenized field = true →
      (Dictionary.ofList fields).get? field = some options → options.hasPositions = true)
    {factor : Single} (hoptions : p.options.boostExactTokens = some factor)
    (hfactor : Le ScoreNumber.zero (ScoreNumber.ofBoost factor : R)) (hq : q.Termwise R)
    {c c' : LookupCache} (hc : c.Sound (.ofSteps fields steps id))
    (hc' : c'.Sound (.ofSteps fields steps id)) (size size' : Nat) :
    let s : Searcher := ⟨.ofSteps fields steps id, settings⟩
    (1 ≤ p.context.settings.maxPasses → ∃ q', p.traversed q = .ok q') ∧
      ∀ q', p.traversed q = .ok q' →
        ((∃ (top : TopDocs R) (c₁ : LookupCache), Yields (s.search size q) c top c₁) ↔
            0 < settings.maxPasses) ∧
          ((∃ (top : TopDocs R) (c₁ : LookupCache), Yields (s.search size' q') c' top c₁) ↔
            0 < settings.maxPasses) ∧
          ∀ (top top' : TopDocs R) (c₁ c₁' : LookupCache), Yields (s.search size q) c top c₁ →
            Yields (s.search size' q') c' top' c₁' →
              top'.totalHits = top.totalHits ∧
                (top.totalHits ≤ size → top.totalHits ≤ size' →
                  (top'.hits.map (·.doc)).Perm (top.hits.map (·.doc))) ∧
                ∀ hit ∈ top.hits, ∀ hit' ∈ top'.hits, hit.doc = hit'.doc →
                  Le hit.score hit'.score := by
  intro s
  have hholds : s.snapshot.Holds _ _ := IndexBuilder.holds_build fields steps id
  rw [← IndexBuilder.flatten_ofSteps] at hcount honce
  have hpositioned : s.snapshot.Positioned p.isTokenized := by
    refine hholds.positioned_of_declared (fun doc hdoc => ?_) hpositions
    rw [IndexBuilder.flatten_ofSteps] at hdoc
    exact IndexBuilder.accepts_of_mem_accepted hdoc
  refine ⟨fun hpasses => Plan.exists_traversed hchain hpasses q, fun q' htraversed => ?_⟩
  obtain rfl := Plan.eq_withExact_of_traversed hchain htraversed
  exact ⟨exists_yields_iff_of_ready hholds hcount hpositioned hq.ready hc size,
    exists_yields_iff_of_ready hholds hcount hpositioned (hq.ready_withExact hoptions) hc' size',
    fun top top' c₁ c₁' hsearch hsearch' =>
      raised_of_searches hholds hcount honce hoptions hfactor hq hc hc' hsearch hsearch'⟩

/-- Terms that occur with payloads and without, one of them marked, and a term that must not
match. -/
theorem exact_forms_raise_marked :
    let fields : List (String × IndexOptions) := [("body", .payloads), ("kind", .documents)]
    let steps : List BuilderStep :=
      [.add [("body", [⟨"quick", 0, none⟩, ⟨"fox", 1, some [1]⟩])], .commit,
        .add [("body", [⟨"quick", 0, some [1]⟩, ⟨"bear", 1, some [1]⟩])],
        .add [("body", [⟨"quick", 0, some [1]⟩, ⟨"fox", 1, none⟩]), ("kind", [⟨"memo", 0, none⟩])]]
    let p : Plan := ⟨Plan.exactTermChain, ⟨some ⟨0x40000000⟩⟩,
      Mapping.empty.withField "body" .text, default⟩
    let q : Query := .boolean [(.must, .term ⟨"body", "quick"⟩),
      (.should, .markedTerm ⟨"body", "fox"⟩ ⟨7, "synonym"⟩), (.should, .term ⟨"kind", "memo"⟩),
      (.mustNot, .term ⟨"body", "bear"⟩)]
    let s : Searcher := ⟨.ofSteps fields steps 0, default⟩
    ∃ (q' : Query) (top top' : TopDocs ℚ) (c₁ c₂ : LookupCache), p.traversed q = .ok q' ∧
      Yields (s.search 10 q) .empty top c₁ ∧ Yields (s.search 10 q') .empty top' c₂ ∧
        (top'.hits.map (·.doc)).Perm [2, 0] ∧
          ∀ hit ∈ top.hits, ∀ hit' ∈ top'.hits, hit.doc = hit'.doc → Le hit.score hit'.score := by
  intro fields steps p q s
  have hempty := LookupCache.sound_empty s.snapshot
  have hpositions : ∀ field options, p.isTokenized field = true →
      (Dictionary.ofList fields).get? field = some options → options.hasPositions = true := by
    have hall : ∀ f ∈ fields, p.isTokenized f.1 = true → f.2.hasPositions = true := by decide
    exact fun field options htokenized hoptions =>
      hall _ (Dictionary.mem_of_get?_ofList hoptions) htokenized
  have hfactor : Le ScoreNumber.zero (ScoreNumber.ofBoost ⟨0x40000000⟩ : ℚ) := by
    have htwo : (ScoreNumber.ofBoost ⟨0x40000000⟩ : ℚ) = 2 := by decide +kernel
    rw [htwo]
    exact le_fraction_iff.2 (by norm_num : (0 : ℚ) ≤ 2)
  have hq : q.Termwise ℚ := by
    refine .boolean ?_
    simp only [List.forall_mem_cons]
    exact ⟨.leaf .term, .leaf (.markedTerm (by decide)), .leaf .term, .leaf .term, by simp⟩
  obtain ⟨top, c₁, hsearch, htotal, hdocs⟩ := exists_yields_search_eq (R := ℚ) s 10 q .empty 2
    [2, 0] (by decide +kernel)
  obtain ⟨hexists, hraises⟩ := exact_forms_raise (R := ℚ) fields steps 0 default
    (by decide +kernel) (by decide +kernel) (p := p) rfl hpositions rfl hfactor hq hempty hempty
    10 10
  obtain ⟨q', htraversed⟩ := hexists (by decide)
  obtain ⟨-, hsucceeds, hhits⟩ := hraises q' htraversed
  obtain ⟨top', c₂, hsearch'⟩ := hsucceeds.2 (by decide)
  obtain ⟨-, hperm, hscores⟩ := hhits top top' c₁ c₂ hsearch hsearch'
  have hroom : top.totalHits ≤ 10 := by omega
  exact ⟨q', top, top', c₁, c₂, htraversed, hsearch, hsearch', hdocs ▸ hperm hroom hroom, hscores⟩

end Searcher

end TextSearch
