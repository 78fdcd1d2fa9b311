import TextSearch.Proofs.Search.Answers
import TextSearch.Proofs.Search.Counting
import TextSearch.Proofs.Search.Results
import TextSearch.Proofs.Search.ScreenedGrounding
import TextSearch.Proofs.Search.ScreenedVisits

/-!
# Searching with thresholds of one

A search succeeds if its query can be grounded to one that can be opened in every segment,
and what it finds are the visits of the grounded query. None of this is changed by
thresholds of one. Main statement: `Searcher.threshold_of_one_agrees`.
-/

namespace TextSearch

open Query

namespace Searcher

open Weighing

variable {R : Type} [ScoreNumber R] {s : Searcher}

/-- A search succeeds exactly if its query can be grounded to one that can be bound, and that can
be opened in every segment. -/
theorem exists_yields_search_iff (hs : s.snapshot.Numbered)
    (hsound : ∀ g ∈ s.snapshot.segments, g.Sound) {q : Query} (hq : q.Honest s.snapshot)
    {c : LookupCache} (hc : c.Sound s.snapshot) (size : Nat) :
    (∃ (top : TopDocs R) (c' : LookupCache), Yields (s.search size q) c top c') ↔
      ∃ r, s.grounded q = .ok r ∧ r.bindingFault? = none ∧
        ∀ g ∈ s.snapshot.segments, ∃ opens, r.opening g = .ok opens := by
  constructor
  · rintro ⟨top, c', h⟩
    rw [search] at h
    obtain ⟨w, c₁, hw, h⟩ := yields_bind.1 h
    obtain ⟨found, c₂, hfound, -⟩ := yields_bind.1 h
    obtain ⟨r, hr, -⟩ := opens_of_yields_prepare hs hsound hc hw
    refine ⟨r, hr, ?_, fun g hg => ?_⟩
    · refine Option.eq_none_iff_forall_not_mem.2 fun e he => ?_
      exact not_fails_of_yields hw (fails_prepare_iff.2 (.inr ⟨r, hr, he⟩))
    · obtain ⟨hopens, hopening⟩ := opening_of_yields_prepare hs hsound hq hc hr hw g hg
      obtain ⟨hits, -, hhits⟩ := exists_mem_of_forall₂ (yields_mapM_lift hfound).1.flip hg
      have hlength := length_hits hopens hopening
      rw [hhits] at hlength
      obtain ⟨opens, hok, -⟩ := except_map_eq_ok.1 hlength.symm
      exact ⟨opens, hok⟩
  · rintro ⟨r, hr, hbinds, hopens⟩
    have hnot : ∀ e, ¬ Fails (s.prepare (R := R) true q) c e := by
      intro e hfails
      rcases fails_prepare_iff.1 hfails with hground | ⟨r', hr', hfault⟩
      · rw [hr] at hground
        cases hground
      · rw [hr, Except.ok.injEq] at hr'
        rw [← hr', hbinds] at hfault
        cases hfault
    obtain ⟨w, c₁, hw⟩ := exists_yields_of_not_fails hnot
    have hhits : ∀ g ∈ s.snapshot.segments, ∃ hits, w.hits g = .ok hits := by
      intro g hg
      obtain ⟨hfollows, hopening⟩ := opening_of_yields_prepare hs hsound hq hc hr hw g hg
      obtain ⟨opens, hok⟩ := hopens g hg
      have hlength := length_hits hfollows hopening
      rw [hok] at hlength
      obtain ⟨hits, hhits, -⟩ := except_map_eq_ok.1 hlength
      exact ⟨hits, hhits⟩
    obtain ⟨found, hfound⟩ := exists_yields_mapM_lift c₁ hhits
    exact ⟨_, c₁, yields_bind.2 ⟨w, c₁, hw, yields_bind.2
      ⟨found, c₁, hfound, yields_pure.2 ⟨rfl, rfl⟩⟩⟩⟩

/-- What can be built is grounded to what can be bound. -/
theorem bindingFault?_of_grounded {q r : Query} (hq : q.Built) (h : s.grounded q = .ok r) :
    r.bindingFault? = none := by
  have hbound := bound_of_grounded h
  obtain ⟨o, ho, rfl⟩ := except_map_eq_ok.1 h
  obtain ⟨n, -, hpasses, -⟩ := passes_of_groundWithin ho
  exact (hpasses.built hq).1.bindingFault? hbound

variable {plans : List Plan} {scored : Bool} {q q' : Query} {declared : Dictionary IndexOptions}
  {parts : List (List Document)}

/-- Searches with and without thresholds of one both fail or both succeed. -/
theorem exists_yields_iff_of_screened (h : s.snapshot.Holds declared parts)
    (hcount : parts.flatten.length ≤ endOfDocs) (hscreened : Screened plans scored q q')
    (hq : q.Built) (hhonest : q.Honest s.snapshot) {c c' : LookupCache} (hc : c.Sound s.snapshot)
    (hc' : c'.Sound s.snapshot) (size : Nat) :
    (∃ (top : TopDocs R) (c₁ : LookupCache), Yields (s.search size q) c top c₁) ↔
      ∃ (top : TopDocs R) (c₁ : LookupCache), Yields (s.search size q') c' top c₁ := by
  have hground := s.concur_grounded hscreened hq
  rw [exists_yields_search_iff h.numbered (h.sound hcount) hhonest hc,
    exists_yields_search_iff h.numbered (h.sound hcount) (hscreened.honest hhonest) hc']
  constructor
  · rintro ⟨r, hr, -, hopens⟩
    obtain ⟨r', hr', hsame⟩ := hground.exists_ok hr
    refine ⟨r', hr', bindingFault?_of_grounded (hscreened.built hq) hr', fun g hg => ?_⟩
    rw [hsame.opening g]
    exact hopens g hg
  · rintro ⟨r', hr', -, hopens⟩
    obtain ⟨r, hr, hsame⟩ := hground.exists_ok' hr'
    refine ⟨r, hr, bindingFault?_of_grounded hq hr, fun g hg => ?_⟩
    rw [← hsame.opening g]
    exact hopens g hg

/-- The hits of a query in a segment have the documents of those of the query with thresholds of
one put in, and are the same where scores are needed. -/
theorem segmentHits_of_screened (h : s.snapshot.Holds declared parts)
    (hscreened : Screened plans scored q q') {g : Segment} (hg : g ∈ s.snapshot.segments) :
    q.segmentDocs R s.snapshot g = q'.segmentDocs R s.snapshot g ∧
      (scored = true →
        (q.segmentHits s.snapshot g : List (Hit R)) = q'.segmentHits s.snapshot g) := by
  obtain ⟨docs, -, hsegment⟩ := h.exists_part g hg
  have hvisits := hscreened.trail? s.snapshot (g := g) (fun t p hp => hsegment.frequency_pos hp)
    true (ScoreNumber.one : R)
  rw [segmentDocs, segmentDocs, segmentHits, segmentHits]
  generalize q.trail? s.snapshot g true (ScoreNumber.one : R) = t at hvisits
  generalize q'.trail? s.snapshot g true (ScoreNumber.one : R) = u at hvisits
  cases hvisits with
  | none => exact ⟨rfl, fun _ => rfl⟩
  | @some t u htu =>
    refine ⟨?_, fun hscored => by rw [htu.2 hscored]⟩
    have hdocs : ∀ t : Trail (Merit R),
        (t.map fun v => (⟨g.docBase + v.doc, v.shown.score⟩ : Hit R)).map (·.doc) =
          t.docs.map (g.docBase + ·) := by
      intro t
      rw [Trail.docs, List.map_map, List.map_map]
      rfl
    rw [Option.elim_some, Option.elim_some, hdocs, hdocs, htu.1]

/-- Of hits with the same documents the same number are collected, and if there is room for all of
them they have the same documents. -/
theorem docs_ofParts_perm (size : Nat) {hss hss' : List (List (Hit R))}
    (h : hss.flatten.map (·.doc) = hss'.flatten.map (·.doc)) :
    (TopHits.ofParts size hss).seen = (TopHits.ofParts size hss').seen ∧
      ((TopHits.ofParts size hss).seen ≤ size →
        ((TopHits.ofParts size hss).kept.map (·.doc)).Perm
          ((TopHits.ofParts size hss').kept.map (·.doc))) := by
  have hlength := congrArg List.length h
  rw [List.length_map, List.length_map] at hlength
  rw [TopHits.seen_ofParts, TopHits.seen_ofParts]
  refine ⟨hlength, fun hsize => ?_⟩
  have hkept := (TopHits.kept_ofParts_perm hsize).map (·.doc)
  have hkept' := (TopHits.kept_ofParts_perm (hlength.ge.trans hsize)).map (·.doc)
  exact hkept.trans (h ▸ hkept'.symm)

/-- Searches that succeed with and without thresholds of one find the same. -/
theorem agree_of_screened (h : s.snapshot.Holds declared parts)
    (hcount : parts.flatten.length ≤ endOfDocs) (hscreened : Screened plans scored q q')
    (hq : q.Built) (hhonest : q.Honest s.snapshot) {c c' c₁ c₁' : LookupCache}
    (hc : c.Sound s.snapshot) (hc' : c'.Sound s.snapshot) {size : Nat} {top top' : TopDocs R}
    (hsearch : Yields (s.search size q) c top c₁)
    (hsearch' : Yields (s.search size q') c' top' c₁') :
    top.totalHits = top'.totalHits ∧
      (top.totalHits ≤ size → (top.hits.map (·.doc)).Perm (top'.hits.map (·.doc))) ∧
      (scored = true → top = top') := by
  have hhonest' := hscreened.honest hhonest
  obtain ⟨r, hr, hrest⟩ := topDocs_of_yields_search h.numbered (h.sound hcount) hc hsearch
  obtain ⟨r', hr', hrest'⟩ := topDocs_of_yields_search h.numbered (h.sound hcount) hc' hsearch'
  obtain ⟨htop, -⟩ := hrest ((grounds_of_grounded hr).honest hhonest)
  obtain ⟨htop', -⟩ := hrest' ((grounds_of_grounded hr').honest hhonest')
  have hgrounded : Screened plans scored r r' := by
    obtain ⟨r₁, hr₁, hsame⟩ := (s.concur_grounded hscreened hq).exists_ok hr
    rw [hr', Except.ok.injEq] at hr₁
    exact hr₁ ▸ hsame
  have hsegments := fun g hg => segmentHits_of_screened (R := R) h hgrounded (g := g) hg
  let hss : List (List (Hit R)) := s.snapshot.segments.map (r.segmentHits s.snapshot)
  let hss' : List (List (Hit R)) := s.snapshot.segments.map (r'.segmentHits s.snapshot)
  have hdocs : hss.flatten.map (·.doc) = hss'.flatten.map (·.doc) := by
    rw [List.map_flatten, List.map_flatten, List.map_map, List.map_map]
    exact congrArg List.flatten (List.map_congr_left fun g hg => (hsegments g hg).1)
  obtain ⟨hseen, hkept⟩ := docs_ofParts_perm size hdocs
  rw [htop, htop']
  refine ⟨hseen, hkept, fun hscored => ?_⟩
  have hhits : hss = hss' := List.map_congr_left fun g hg => (hsegments g hg).2 hscored
  exact congrArg (fun hss => (TopHits.ofParts size hss).topDocs) hhits

open IndexBuilder (accepted)

end Searcher

end TextSearch
