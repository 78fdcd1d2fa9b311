import Mathlib
import TextSearch.Proofs.Index.Lookup
import TextSearch.Proofs.Index.Snapshots

/-!
# Lookups by callers at the same time

Callers that share a cache look terms up in two halves. In the first one a caller asks the cache,
and makes a lookup of its own if the cache has none that will do; in the second one it shares what
it has made. Other callers may come between the halves, so a term may be looked up more than once,
and a lookup with totals may be replaced by one without. Main statement:
`LookupCalls.serves_all`, that every caller is served nevertheless.
-/

namespace TextSearch

/-- What a caller wants to know. -/
structure LookupRequest where
  /-- The term. -/
  term : Term
  /-- Whether totals are needed. -/
  counted : Bool
  deriving DecidableEq, Repr

/-! ### What a caller is told -/

/-- The postings of a term in all segments of a snapshot. -/
def Snapshot.postingsOf (s : Snapshot) (t : Term) : List Posting :=
  s.segments.flatMap (·.postingsOf t)

/-- A lookup tells what a snapshot says about a term, and how often the term occurs if that was
asked for. -/
structure TermLookup.Tells (s : Snapshot) (r : LookupRequest) (l : TermLookup) : Prop where
  /-- The lookup belongs to the snapshot. -/
  snapshot : l.snapshot = s.id
  /-- The lookup is one of the term. -/
  term : l.term = r.term
  /-- There is an entry for every segment that has the term, in the order of the segments. -/
  entries : l.entries = s.segments.map fun g => g.entry? r.term
  /-- Every segment of the snapshot is told its own entry. -/
  get : ∀ g ∈ s.segments, l.get g = .ok ( g.entry? r.term)
  /-- The totals count the postings of all segments and the occurrences in them. -/
  totals : r.counted = true → l.docFreq = (s.postingsOf r.term).length ∧
    l.totalFreq = total ((s.postingsOf r.term).map (·.frequency))

/-- The entry of a term in a segment counts its postings and the occurrences in them. -/
theorem Segment.totals_entry? (g : Segment) (t : Term) :
    (g.postingsOf t = [] ∧ g.entry? t = none) ∨ ∃ entry, g.entry? t = some entry ∧
      entry.docFreq = (g.postingsOf t).length ∧
      entry.totalFreq = total ((g.postingsOf t).map (·.frequency)) := by
  rw [Segment.postingsOf, Segment.postings?, Segment.entry?]
  cases g.fields.get? t.field with
  | none => exact .inl ⟨rfl, rfl⟩
  | some f =>
    rw [Option.bind_some, Option.bind_some, FieldPostings.entry?]
    cases hps : f.terms.get? t.text with
    | none => exact .inl ⟨rfl, rfl⟩
    | some ps =>
      obtain ⟨i, hi, -⟩ := f.terms.indexOf?_of_get? hps
      rw [hi]
      exact .inr ⟨_, rfl, rfl, rfl⟩

/-- The totals of entries count the postings of all segments. -/
theorem Segment.total_entries (gs : List Segment) (t : Term) :
    let entries := gs.map fun g => g.entry? t
    let ps := gs.flatMap (·.postingsOf t)
    total (entries.filterMap fun e => e.map (·.docFreq)) = ps.length ∧
      total (entries.filterMap fun e => e.map (·.totalFreq)) = total (ps.map (·.frequency)) := by
  induction gs with
  | nil => exact ⟨rfl, rfl⟩
  | cons g gs ih =>
    rcases g.totals_entry? t with ⟨hps, hentry⟩ | ⟨entry, hentry, hdocFreq, htotalFreq⟩
    · simpa only [List.map_cons, List.filterMap_cons, hentry, Option.map_none, List.flatMap_cons,
        hps, List.nil_append] using ih
    · obtain ⟨hdocFreqs, htotalFreqs⟩ := ih
      simp only [List.map_cons, List.filterMap_cons, hentry, Option.map_some, total_cons, hdocFreq,
        htotalFreq, hdocFreqs, htotalFreqs, List.flatMap_cons, List.length_append, List.map_append,
        total_append, and_self]

/-- A lookup that serves a request tells what was asked for. -/
theorem LookupCache.Serves.tells {s : Snapshot} {r : LookupRequest} {l : TermLookup}
    (h : LookupCache.Serves s r.term r.counted l) (hs : s.Numbered) : l.Tells s r := by
  obtain ⟨hfaithful, hcounted⟩ := h
  have hl : l = .ofSnapshot s r.term l.isCounted := hfaithful
  refine ⟨by rw [hl]; rfl, by rw [hl]; rfl, by rw [hl]; rfl, fun g => hfaithful.get hs,
    fun hr => ?_⟩
  rw [hl, hcounted hr]
  exact Segment.total_entries s.segments r.term

/-! ### A call -/

/-- How far a call has come. -/
inductive LookupStage where
  /-- The cache has not been asked. -/
  | asking
  /-- The cache had nothing that would do, and a lookup was made that is not yet shared. -/
  | holding (l : TermLookup)
  /-- The call has returned. -/
  | answered (l : SharedLookup)
  deriving DecidableEq, Repr

/-- A call for a lookup. -/
structure LookupCall where
  /-- What is asked for. -/
  request : LookupRequest
  /-- How far the call has come. -/
  stage : LookupStage
  deriving DecidableEq, Repr

/-- Share a lookup that was made. -/
def LookupCache.share (t : Term) (l : TermLookup) (c : LookupCache) : SharedLookup × LookupCache :=
  (⟨c.made, l⟩, ⟨(t, ⟨c.made, l⟩) :: c.shared, c.made + 1⟩)

/-- To make a lookup and to share it are the two halves of making a shared one. -/
theorem LookupCache.make_eq_share (s : Snapshot) (t : Term) (counted : Bool) (c : LookupCache) :
    c.make s t counted = c.share t (.ofSnapshot s t counted) := rfl

namespace LookupCall

/-- The next half of a call. No other caller has access to the cache meanwhile. -/
def step (s : Snapshot) (call : LookupCall) (c : LookupCache) : LookupCall × LookupCache :=
  let ⟨t, counted⟩ := call.request
  match call.stage with
  | .asking =>
    match c.find? t counted with
    | some l => ({ call with stage := .answered l }, c)
    | none => ({ call with stage := .holding (.ofSnapshot s t counted) }, c)
  | .holding l =>
    let (l, c) := c.share t l
    ({ call with stage := .answered l }, c)
  | .answered _ => (call, c)

/-- What a call has returned. -/
def answer? (call : LookupCall) : Option TermLookup :=
  match call.stage with
  | .answered l => some l.lookup
  | _ => none

/-- How many halves a call may still need. -/
def halvesLeft (call : LookupCall) : Nat :=
  match call.stage with
  | .asking => 2
  | .holding _ => 1
  | .answered _ => 0

/-- A call holds or has returned what it should. -/
def Right (s : Snapshot) (call : LookupCall) : Prop :=
  match call.stage with
  | .asking => True
  | .holding l => l = .ofSnapshot s call.request.term call.request.counted
  | .answered l => LookupCache.Serves s call.request.term call.request.counted l.lookup

variable {s : Snapshot} {call : LookupCall} {c : LookupCache}

/-- A call whose halves are not interrupted is that of the cache. -/
theorem step_step_eq_get (s : Snapshot) (r : LookupRequest) (c : LookupCache) :
    let (call, c') := step s ⟨r, .asking⟩ c
    let (call, c') := call.step s c'
    (call.stage, c') = ((.answered (c.get s r.term r.counted).1), (c.get s r.term r.counted).2) := by
  rw [LookupCache.get]
  cases hfind : c.find? r.term r.counted with
  | some l => simp only [step, hfind]
  | none => simp only [step, hfind, LookupCache.make_eq_share]

theorem request_step (s : Snapshot) (call : LookupCall) (c : LookupCache) :
    (call.step s c).1.request = call.request := by
  obtain ⟨r, stage⟩ := call
  cases stage with
  | asking => cases hfind : c.find? r.term r.counted <;> simp only [step, hfind]
  | holding l => rfl
  | answered l => rfl

theorem halvesLeft_step (s : Snapshot) (call : LookupCall) (c : LookupCache) :
    (call.step s c).1.halvesLeft ≤ call.halvesLeft - 1 := by
  obtain ⟨r, stage⟩ := call
  cases stage with
  | asking => cases hfind : c.find? r.term r.counted <;> simp [step, hfind, halvesLeft]
  | holding l => exact Nat.le_refl _
  | answered l => exact Nat.le_refl _

/-- A half of a call keeps the cache sound and does what it should. -/
theorem Right.step (h : call.Right s) (hc : c.Sound s) :
    (call.step s c).1.Right s ∧ (call.step s c).2.Sound s := by
  obtain ⟨⟨t, counted⟩, stage⟩ := call
  cases stage with
  | asking =>
    cases hfind : c.find? t counted with
    | none => simpa only [LookupCall.step, hfind] using ⟨rfl, hc⟩
    | some l =>
      obtain ⟨hl, htotals⟩ := Option.filter_eq_some_iff.1 hfind
      simpa only [LookupCall.step, hfind] using
        ⟨LookupCache.serves_of_hasTotals (hc t l hl) htotals, hc⟩
  | holding l =>
    have hl : l = .ofSnapshot s t counted := h
    subst hl
    exact LookupCache.sound_make hc t counted
  | answered l => exact ⟨h, hc⟩

/-- What a call has returned serves its request. -/
theorem Right.serves (h : call.Right s) {l : TermLookup} (hl : call.answer? = some l) :
    LookupCache.Serves s call.request.term call.request.counted l := by
  obtain ⟨r, stage⟩ := call
  cases stage with
  | asking => cases hl
  | holding l => cases hl
  | answered shared =>
    cases hl
    exact h

/-- A call that needs no further half has returned. -/
theorem exists_answer (h : call.halvesLeft = 0) : ∃ l, call.answer? = some l := by
  obtain ⟨r, stage⟩ := call
  cases stage with
  | asking => cases h
  | holding l => cases h
  | answered l => exact ⟨l.lookup, rfl⟩

end LookupCall

/-! ### Any number of calls -/

/-- Calls that share a cache. -/
structure LookupCalls where
  /-- The calls. -/
  calls : List LookupCall
  /-- The cache. -/
  cache : LookupCache
  deriving DecidableEq, Repr

namespace LookupCalls

/-- Calls that have not begun, and a cache without lookups. -/
def ofRequests (rs : List LookupRequest) : LookupCalls := ⟨rs.map fun r => ⟨r, .asking⟩, .empty⟩

/-- The next half of one of the calls. -/
def step (s : Snapshot) (p : LookupCalls) (i : Nat) : LookupCalls :=
  match p.calls[i]? with
  | none => p
  | some call => ⟨p.calls.set i (call.step s p.cache).1, (call.step s p.cache).2⟩

/-- The calls go on by halves, in the order of a schedule. -/
def run (s : Snapshot) (schedule : List Nat) (p : LookupCalls) : LookupCalls :=
  schedule.foldl (step s) p

/-- What one of the calls has returned. -/
def answer? (p : LookupCalls) (i : Nat) : Option TermLookup := p.calls[i]?.bind (·.answer?)

/-- How many halves one of the calls may still need. -/
def halvesLeft (p : LookupCalls) (i : Nat) : Nat := (p.calls[i]?.map (·.halvesLeft)).getD 0

/-- The cache and all calls are as they should be. -/
structure Sound (s : Snapshot) (p : LookupCalls) : Prop where
  /-- Every shared lookup is faithful. -/
  cache : p.cache.Sound s
  /-- Every call holds or has returned what it should. -/
  calls : ∀ call ∈ p.calls, call.Right s

variable {s : Snapshot} {p : LookupCalls}

theorem sound_ofRequests (s : Snapshot) (rs : List LookupRequest) : (ofRequests rs).Sound s :=
  ⟨LookupCache.sound_empty s, List.forall_mem_map.2 fun _ _ => trivial⟩

theorem step_of_some {i : Nat} {call : LookupCall} (h : p.calls[i]? = some call) :
    p.step s i = ⟨p.calls.set i (call.step s p.cache).1, (call.step s p.cache).2⟩ := by
  rw [step, h]

theorem step_of_none {i : Nat} (h : p.calls[i]? = none) : p.step s i = p := by
  rw [step, h]

theorem Sound.step (h : p.Sound s) (i : Nat) : (p.step s i).Sound s := by
  cases hi : p.calls[i]? with
  | none => rwa [step_of_none hi]
  | some call =>
    have hcall := (h.calls call (List.mem_of_getElem? hi)).step h.cache
    rw [step_of_some hi]
    refine ⟨hcall.2, fun other hother => ?_⟩
    rcases List.mem_or_eq_of_mem_set hother with hother | rfl
    · exact h.calls other hother
    · exact hcall.1

/-- However the halves of calls are interleaved, the cache and all calls are as they should be. -/
theorem Sound.run (h : p.Sound s) (schedule : List Nat) : (p.run s schedule).Sound s := by
  induction schedule generalizing p with
  | nil => exact h
  | cons i schedule ih => exact ih (h.step i)

theorem requests_step (s : Snapshot) (p : LookupCalls) (i : Nat) :
    (p.step s i).calls.map (·.request) = p.calls.map (·.request) := by
  cases hi : p.calls[i]? with
  | none => rw [step_of_none hi]
  | some call =>
    obtain ⟨hlt, rfl⟩ := List.getElem?_eq_some_iff.1 hi
    rw [step_of_some hi, List.map_set, LookupCall.request_step, ← List.map_set,
      List.set_getElem_self hlt]

theorem requests_run (s : Snapshot) (schedule : List Nat) (p : LookupCalls) :
    (p.run s schedule).calls.map (·.request) = p.calls.map (·.request) := by
  induction schedule generalizing p with
  | nil => rfl
  | cons i schedule ih => exact (ih (p.step s i)).trans (requests_step s p i)

/-- A half brings one call forward and no other one back. -/
theorem halvesLeft_step (s : Snapshot) (p : LookupCalls) (i j : Nat) :
    (p.step s j).halvesLeft i ≤ p.halvesLeft i - if j = i then 1 else 0 := by
  cases hj : p.calls[j]? with
  | none =>
    rw [step_of_none hj]
    split
    · next hji =>
      subst hji
      simp [halvesLeft, hj]
    · exact Nat.le_refl _
  | some call =>
    rw [step_of_some hj]
    split
    · next hji =>
      subst hji
      have hlength := (List.getElem?_eq_some_iff.1 hj).1
      simpa [halvesLeft, hj, List.getElem?_set_self hlength] using
        call.halvesLeft_step s p.cache
    · next hji => simp [halvesLeft, List.getElem?_set_ne hji]

theorem halvesLeft_run (s : Snapshot) (schedule : List Nat) (p : LookupCalls) (i : Nat) :
    (p.run s schedule).halvesLeft i ≤ p.halvesLeft i - schedule.count i := by
  induction schedule generalizing p with
  | nil => exact Nat.le_refl _
  | cons j schedule ih =>
    have hlater := ih (p.step s j)
    have hnow := halvesLeft_step s p i j
    show ((p.step s j).run s schedule).halvesLeft i ≤ _
    rw [List.count_cons]
    by_cases hji : j = i
    · subst hji
      simp only [if_true, beq_self_eq_true] at hnow ⊢
      omega
    · simp only [hji, if_false, beq_iff_eq] at hnow ⊢
      omega

theorem halvesLeft_ofRequests (rs : List LookupRequest) (i : Nat) :
    (ofRequests rs).halvesLeft i ≤ 2 := by
  rw [halvesLeft, ofRequests, List.getElem?_map]
  cases rs[i]? with
  | none => exact Nat.zero_le 2
  | some r => exact Nat.le_refl 2

/-- Callers of one snapshot that share a cache, any number of them and for any terms, are all
served, however the halves of their calls are interleaved: a caller that has come by twice has an
answer, and every answer tells what the snapshot says about the term that was asked for. -/
theorem serves_all {s : Snapshot} (hs : s.Numbered) (rs : List LookupRequest) (schedule : List Nat)
    {i : Nat} {r : LookupRequest} (hr : rs[i]? = some r) :
    let p := (ofRequests rs).run s schedule
    (2 ≤ schedule.count i → ∃ l, p.answer? i = some l) ∧ ∀ l, p.answer? i = some l → l.Tells s r := by
  intro p
  have hsound : p.Sound s := (sound_ofRequests s rs).run schedule
  obtain ⟨call, hcall, hrequest⟩ : ∃ call, p.calls[i]? = some call ∧ call.request = r := by
    have hrequests : p.calls.map (·.request) = rs := by
      rw [requests_run, ofRequests, List.map_map]
      exact List.map_id rs
    rwa [← hrequests, List.getElem?_map, Option.map_eq_some_iff] at hr
  have hanswer : p.answer? i = call.answer? := by rw [answer?, hcall, Option.bind_some]
  have hright := hsound.calls call (List.mem_of_getElem? hcall)
  rw [hanswer]
  refine ⟨fun htwice => ?_, fun l hl => ?_⟩
  · have hleft : p.halvesLeft i ≤ (ofRequests rs).halvesLeft i - schedule.count i :=
      halvesLeft_run s schedule _ i
    have hstart := halvesLeft_ofRequests rs i
    have hnone : call.halvesLeft = 0 := by
      rw [halvesLeft, hcall, Option.map_some, Option.getD_some] at hleft
      omega
    exact LookupCall.exists_answer hnone
  · rw [← hrequest]
    exact (hright.serves hl).tells hs

/-- Two callers ask for the same term at the same time, and the one that needs no totals comes
last. So the lookup with totals is replaced, and a third caller who needs them makes another. -/
theorem serves_all_replaced :
    let s : Snapshot := .ofSteps [("body", .positions)]
      [.add [("body", [⟨"a", 0, none⟩, ⟨"b", 1, none⟩, ⟨"a", 2, none⟩])], .commit,
        .add [("body", [⟨"a", 0, none⟩])]] 5
    let a : Term := ⟨"body", "a"⟩
    let p := (ofRequests [⟨a, true⟩, ⟨a, false⟩, ⟨a, true⟩]).run s [0, 1, 0, 1]
    (p.cache.shared.lookup a).map (·.lookup.isCounted) = some false ∧
      ∃ l, (p.run s [2, 2]).answer? 2 = some l ∧ l.Tells s ⟨a, true⟩ ∧
        (l.docFreq, l.totalFreq) = (2, 3) := by
  intro s a p
  have hs : s.Numbered := (IndexBuilder.holds_build _ _ 5).numbered
  obtain ⟨hreturns, htells⟩ := serves_all hs [⟨a, true⟩, ⟨a, false⟩, ⟨a, true⟩] [0, 1, 0, 1, 2, 2]
    (i := 2) rfl
  obtain ⟨l, hl⟩ := hreturns (by decide)
  refine ⟨by cbv, l, hl, htells l hl, ?_⟩
  obtain ⟨hdocFreq, htotalFreq⟩ := (htells l hl).totals rfl
  rw [hdocFreq, htotalFreq]
  cbv

end LookupCalls

end TextSearch
