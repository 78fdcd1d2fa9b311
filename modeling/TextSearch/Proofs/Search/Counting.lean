import TextSearch.Proofs.Index.Snapshots
import TextSearch.Proofs.Search.Binding
import TextSearch.Proofs.Search.Grounding
import TextSearch.Proofs.Search.Openings
import TextSearch.Proofs.Search.Results
import TextSearch.Proofs.Search.SameDocuments

/-!
# Counting

A count runs a query without scores: what may match beside something that has to is left
out, terms are looked up without totals, and other lookups are shared. Main statement:
`Searcher.count_agrees`, that a count still comes to the total of a search, and fails
where the search does.
-/

namespace TextSearch

namespace Weighing

variable {α β : Type}

/-- What weighing comes to from a state of the shared lookups, without the new state. -/
def outcome (m : Weighing α) (c : LookupCache) : Except Fault α := (m.run.run c).1

theorem exists_yields_iff {m : Weighing α} {c : LookupCache} {a : α} :
    (∃ c', Yields m c a c') ↔ m.outcome c = .ok a := by
  constructor
  · rintro ⟨c', h⟩
    rw [outcome, h]
  · exact fun h => ⟨(m.run.run c).2, Prod.ext h rfl⟩

theorem fails_iff {m : Weighing α} {c : LookupCache} {e : Fault} :
    Fails m c e ↔ m.outcome c = .error e := Iff.rfl

theorem outcome_bind_of_yields {m : Weighing α} {f : α → Weighing β} {c c' : LookupCache} {a : α}
    (h : Yields m c a c') : (m >>= f).outcome c = (f a).outcome c' := by
  rw [outcome, run_bind, h]
  rfl

theorem outcome_bind_of_fails {m : Weighing α} {f : α → Weighing β} {c : LookupCache} {e : Fault}
    (h : Fails m c e) : (m >>= f).outcome c = .error e :=
  fails_bind.2 (.inl h)

theorem run_lift (x : Except Fault α) (c : LookupCache) : (x : Weighing α).run.run c = (x, c) := by
  cases x <;> rfl

theorem run_mapM_lift (f : α → Except Fault β) (xs : List α) (c : LookupCache) :
    (xs.mapM fun x => (f x : Weighing β)).run.run c = (xs.mapM f, c) := by
  induction xs with
  | nil => rfl
  | cons x xs ih =>
    rw [List.mapM_cons, List.mapM_cons, run_bind, run_lift]
    cases f x with
    | error => rfl
    | ok b =>
      simp only [run_bind, ih]
      cases xs.mapM f <;> rfl

/-- Running a query on every segment looks nothing up. -/
theorem outcome_mapM_lift {γ : Type} (f : α → Except Fault β) (xs : List α) (p : List β → γ)
    (c : LookupCache) :
    Weighing.outcome (do let ys ← xs.mapM fun x => (f x : Weighing β); pure (p ys)) c =
      p <$> xs.mapM f := by
  rw [outcome, run_bind, run_mapM_lift]
  cases xs.mapM f <;> rfl

variable {R S : Type} [ScoreNumber R] [ScoreNumber S] {s : Snapshot} {g : Segment} {q : Query}

/-- The number of hits in a segment is the number of visits of the query. -/
theorem length_hits {scored : Bool} {w : Weight R} (hopens : Opens s g scored ScoreNumber.one q w)
    (hopening : Option.isSome <$> w.matcher g = q.opening g) :
    List.length <$> w.hits g =
      (fun _ => (q.trail? s g scored (ScoreNumber.one : R)).elim 0 List.length) <$>
        q.opening g := by
  rw [← hopening, Weight.hits]
  cases hmatcher : w.matcher g with
  | error => rfl
  | ok opened =>
    have hrel := hopens opened hmatcher
    generalize q.trail? s g scored (ScoreNumber.one : R) = t at hrel
    cases hrel with
    | none => rfl
    | @some m t hm =>
      simp only [hm.hits, bind, Except.bind, pure, Except.pure, Functor.map, Except.map,
        Matcher.hitsOf, List.length_map, Option.elim_some]

/-- Weights of one query find equally many documents in a segment, and fail alike. -/
theorem length_hits_eq {s' : Snapshot} {scored scored' : Bool} {w : Weight R} {w' : Weight S}
    (hopens : Opens s g scored ScoreNumber.one q w)
    (hopens' : Opens s' g scored' ScoreNumber.one q w')
    (hopening : Option.isSome <$> w.matcher g = q.opening g)
    (hopening' : Option.isSome <$> w'.matcher g = q.opening g) :
    List.length <$> w.hits g = List.length <$> w'.hits g := by
  have hsame := Query.sameDocs_trail? s s' g q scored scored' (ScoreNumber.one : R)
    (ScoreNumber.one : S)
  have hlength : (q.trail? s g scored (ScoreNumber.one : R)).elim 0 List.length =
      (q.trail? s' g scored' (ScoreNumber.one : S)).elim 0 List.length := by
    generalize q.trail? s g scored (ScoreNumber.one : R) = t at hsame
    generalize q.trail? s' g scored' (ScoreNumber.one : S) = u at hsame
    cases hsame with
    | none => rfl
    | some htu => simpa [Trail.docs] using congrArg List.length htu
  rw [length_hits hopens hopening, length_hits hopens' hopening', hlength]

end Weighing

namespace Searcher

open Weighing

variable {R : Type} [ScoreNumber R] {s : Searcher}

/-- Preparing a query fails where grounding it does, or where it cannot be bound. -/
theorem fails_prepare_iff {scored : Bool} {q : Query} {c : LookupCache} {e : Fault} :
    Fails (s.prepare (R := R) scored q) c e ↔
      s.grounded q = .error e ∨ ∃ r, s.grounded q = .ok r ∧ r.bindingFault? = some e := by
  rw [prepare, fails_bind, fails_lift]
  refine or_congr_right ⟨?_, ?_⟩
  · rintro ⟨r, c₁, hr, hfails⟩
    exact ⟨r, (yields_lift.1 hr).1, (fails_weight_iff s.snapshot r scored _ c₁ e).1 hfails⟩
  · rintro ⟨r, hr, hfault⟩
    exact ⟨r, c, yields_lift.2 ⟨hr, rfl⟩, (fails_weight_iff s.snapshot r scored _ c e).2 hfault⟩

/-- A prepared query follows the trails of the grounded query, and can be opened where that
says. -/
theorem opening_of_yields_prepare (hs : s.snapshot.Numbered)
    (hsound : ∀ g ∈ s.snapshot.segments, g.Sound) {scored : Bool} {q r : Query}
    {c c' : LookupCache} {w : Weight R} (hq : q.Honest s.snapshot) (hc : c.Sound s.snapshot)
    (hr : s.grounded q = .ok r) (h : Yields (s.prepare scored q) c w c') :
    ∀ g ∈ s.snapshot.segments, Opens s.snapshot g scored ScoreNumber.one r w ∧
      Option.isSome <$> w.matcher g = r.opening g := by
  obtain ⟨r', hr', hw⟩ := yields_prepare_iff.1 h
  cases hr.symm.trans hr'
  have hhonest := (grounds_of_grounded hr).honest hq
  exact fun g hg => ⟨(opens_of_yields_weight hs hsound r hhonest hc hw).1 g hg,
    opening_of_yields_weight hs hsound r hhonest hc hw g hg⟩

theorem totalHits_ofParts (size : Nat) (hss : List (List (Hit R))) :
    (TopHits.ofParts size hss).topDocs.totalHits = total (hss.map List.length) :=
  (TopHits.seen_ofParts size hss).trans List.length_flatten

/-- A count comes to the total of a search, and fails where it does. -/
theorem outcome_count (hs : s.snapshot.Numbered) (hsound : ∀ g ∈ s.snapshot.segments, g.Sound)
    {q : Query} (hq : q.Honest s.snapshot) {c c' : LookupCache} (hc : c.Sound s.snapshot)
    (hc' : c'.Sound s.snapshot) (size : Nat) :
    (s.count q).outcome c = TopDocs.totalHits <$> (s.search (R := R) size q).outcome c' := by
  by_cases hfails : ∃ e, Fails (s.prepare (R := Single) false q) c e
  · obtain ⟨e, hfails⟩ := hfails
    have hfails' : Fails (s.prepare (R := R) true q) c' e :=
      fails_prepare_iff.2 (fails_prepare_iff.1 hfails)
    rw [count, search, outcome_bind_of_fails hfails, outcome_bind_of_fails hfails']
    rfl
  · have hnot : ∀ e, ¬ Fails (s.prepare (R := Single) false q) c e := not_exists.1 hfails
    have hnot' : ∀ e, ¬ Fails (s.prepare (R := R) true q) c' e := fun e h =>
      hnot e (fails_prepare_iff.2 (fails_prepare_iff.1 h))
    obtain ⟨w, c₁, hw⟩ := exists_yields_of_not_fails hnot
    obtain ⟨w', c₂, hw'⟩ := exists_yields_of_not_fails hnot'
    obtain ⟨r, hr, -⟩ := opens_of_yields_prepare hs hsound hc hw
    have hopen := opening_of_yields_prepare hs hsound hq hc hr hw
    have hopen' := opening_of_yields_prepare hs hsound hq hc' hr hw'
    have hlengths : List.map List.length <$> s.snapshot.segments.mapM w.hits =
        List.map List.length <$> s.snapshot.segments.mapM w'.hits :=
      except_mapM_congr fun g hg => length_hits_eq (hopen g hg).1 (hopen' g hg).1
        (hopen g hg).2 (hopen' g hg).2
    have hcount : (s.count q).outcome c =
        total <$> List.map List.length <$> s.snapshot.segments.mapM w.hits := by
      rw [count, outcome_bind_of_yields hw, outcome_mapM_lift]
      cases s.snapshot.segments.mapM w.hits <;> rfl
    have hsearch : (s.search size q).outcome c' =
        (fun found => (TopHits.ofParts size found).topDocs) <$>
          s.snapshot.segments.mapM w'.hits := by
      rw [search, outcome_bind_of_yields hw']
      exact outcome_mapM_lift _ _ (fun found => (TopHits.ofParts size found).topDocs) _
    rw [hcount, hsearch, hlengths]
    cases s.snapshot.segments.mapM w'.hits with
    | error => rfl
    | ok found => exact congrArg Except.ok (totalHits_ofParts size found).symm

end Searcher

end TextSearch
