import TextSearch.Proofs.Index.Statistics

/-!
# Documents that come once in a posting list

A document gets a posting for every list of tokens with the term, so it comes once in every posting
list exactly if no two of its lists for one field share a text:
`Segment.Holds.pairwise_postingsOf_iff`. Then no term is counted in more documents than there are,
neither in a segment nor in a snapshot: `Snapshot.Holds.countsOnce`.
-/

namespace TextSearch

open SegmentBuffer

/-! ### Lists of tokens that share no text -/

/-- Whether a list of tokens has a text. -/
def HasToken (text : String) (tokens : List Token) : Prop := ∃ t ∈ tokens, t.text = text

namespace Document

variable {doc : Document}

/-- Whether no two of the lists of tokens that a document has for one field share a text. -/
def SharesNoText (doc : Document) : Prop :=
  doc.Pairwise fun f f' => f.1 = f'.1 → ∀ t ∈ f.2, ∀ t' ∈ f'.2, t.text ≠ t'.text

instance : DecidablePred SharesNoText := fun doc =>
  inferInstanceAs (Decidable (doc.Pairwise fun f f' =>
    f.1 = f'.1 → ∀ t ∈ f.2, ∀ t' ∈ f'.2, t.text ≠ t'.text))

/-- A document that names no field twice has nothing to share. -/
theorem NamesOnce.sharesNoText (h : doc.NamesOnce) : doc.SharesNoText :=
  (List.pairwise_map.1 h).imp fun hne heq => absurd heq hne

/-- Lists without tokens have no part in what a document shares. -/
theorem sharesNoText_iff : doc.SharesNoText ↔ ∀ field text,
    (doc.tokensOf field).Pairwise fun a b => ¬ (HasToken text a ∧ HasToken text b) := by
  simp only [SharesNoText, tokensOf, List.pairwise_map, List.pairwise_filter]
  simp only [List.pairwise_iff_forall_sublist]
  constructor
  · rintro h field text f f' hsub hf hf' ⟨⟨t, ht, htext⟩, t', ht', htext'⟩
    rw [Bool.and_eq_true, beq_iff_eq] at hf hf'
    exact h hsub (hf.1.trans hf'.1.symm) t ht t' ht' (htext.trans htext'.symm)
  · intro h f f' hsub hfield t ht t' ht' htext
    have hfilled : ∀ {u : Token} {us : List Token}, u ∈ us → (!us.isEmpty) = true := by
      rintro u (_ | _) hu
      · cases hu
      · rfl
    exact h f.1 t.text hsub (by simpa using List.ne_nil_of_mem ht)
      (by simpa [hfield] using List.ne_nil_of_mem ht') ⟨⟨t, ht, rfl⟩, t', ht', htext.symm⟩

end Document

/-- Lists that are related are added for ever later documents exactly if those of one document are
not related. -/
theorem pairwise_additions_iff {field : String} {docs : List Document}
    {R : List Token → List Token → Prop} :
    (additions field docs).Pairwise (fun a b => R a.2 b.2 → a.1 < b.1) ↔
      ∀ doc ∈ docs, (doc.tokensOf field).Pairwise fun a b => ¬ R a b := by
  have hlater : docs.zipIdx.Pairwise fun d e =>
      ∀ a ∈ (d.1.tokensOf field).map (d.2, ·), ∀ b ∈ (e.1.tokensOf field).map (e.2, ·),
        R a.2 b.2 → a.1 < b.1 := by
    refine (pairwise_zipIdx docs 0).imp fun hlt a ha b hb _ => ?_
    obtain ⟨_, _, rfl⟩ := List.mem_map.1 ha
    obtain ⟨_, _, rfl⟩ := List.mem_map.1 hb
    exact hlt
  rw [additions, List.pairwise_flatMap, and_iff_left hlater]
  simp only [List.pairwise_map, Nat.lt_irrefl]
  constructor
  · intro h doc hdoc
    obtain ⟨i, hi⟩ := List.getElem?_of_mem hdoc
    exact h (doc, i) (List.mem_zipIdx_iff_getElem?.2 hi)
  · intro h d hd
    exact h d.1 (List.mem_of_getElem? (List.mem_zipIdx_iff_getElem?.1 hd))

/-! ### Posting lists -/

/-- There are only so many different numbers below a limit. -/
theorem length_le_of_nodup_of_lt {ns : List Nat} {limit : Nat} (hnodup : ns.Nodup)
    (hlt : ∀ n ∈ ns, n < limit) : ns.length ≤ limit := by
  have hsubset : ns ⊆ List.range limit := fun n hn => List.mem_range.2 (hlt n hn)
  have hle := (List.subperm_of_subset hnodup hsubset).length_le
  rwa [List.length_range] at hle

namespace Segment

variable {declared : Dictionary IndexOptions} {docs : List Document} {g : Segment}

/-- The documents of a posting list ascend if no document has the term in two lists. -/
theorem Holds.pairwise_postingsOf_term_iff (h : g.Holds declared docs) (t : Term) :
    ((g.postingsOf t).Pairwise fun p q => p.doc < q.doc) ↔
      ∀ doc ∈ docs, (doc.tokensOf t.field).Pairwise fun a b =>
        ¬ (HasToken t.text a ∧ HasToken t.text b) := by
  rw [← pairwise_additions_iff, h.postingsOf, List.pairwise_filterMap]
  refine List.Pairwise.iff fun a b => ⟨?_, ?_⟩
  · rintro hpostings ⟨ha, hb⟩
    obtain ⟨p, hp⟩ := Option.isSome_iff_exists.1 (isSome_termPosting?_iff.2 ha)
    obtain ⟨q, hq⟩ := Option.isSome_iff_exists.1 (isSome_termPosting?_iff.2 hb)
    have hlt := hpostings p hp q hq
    rwa [doc_of_termPosting? hp, doc_of_termPosting? hq] at hlt
  · intro hdocs p hp q hq
    rw [doc_of_termPosting? hp, doc_of_termPosting? hq]
    exact hdocs ⟨isSome_termPosting?_iff.1 (Option.isSome_iff_exists.2 ⟨p, hp⟩),
      isSome_termPosting?_iff.1 (Option.isSome_iff_exists.2 ⟨q, hq⟩)⟩

/-- No document comes twice in a posting list exactly if none shares a text between two of its
lists for a field. -/
theorem Holds.pairwise_postingsOf_iff (h : g.Holds declared docs) :
    (∀ t, (g.postingsOf t).Pairwise fun p q => p.doc < q.doc) ↔
      ∀ doc ∈ docs, doc.SharesNoText := by
  simp only [h.pairwise_postingsOf_term_iff, Document.sharesNoText_iff]
  exact ⟨fun hall doc hdoc field text => hall ⟨field, text⟩ doc hdoc,
    fun hall t doc hdoc => hall doc hdoc t.field t.text⟩

/-- A term is counted in no more documents than the segment has, if none comes twice. -/
theorem Holds.docFreq_le (h : g.Holds declared docs) {t : Term}
    (honce : (g.postingsOf t).Pairwise fun p q => p.doc < q.doc) {entry : TermEntry}
    (hentry : g.entry? t = some entry) : entry.docFreq ≤ g.maxDoc := by
  have hcount := h.docFreq_entry? t
  rw [hentry, ← h.length_postingsOf] at hcount
  have hnodup : ((g.postingsOf t).map (·.doc)).Nodup :=
    List.pairwise_map.2 (honce.imp fun hlt heq => Nat.ne_of_lt hlt heq)
  have hle := length_le_of_nodup_of_lt hnodup
    (List.forall_mem_map.2 fun p hp => h.doc_lt_maxDoc hp)
  rw [List.length_map] at hle
  exact Nat.le_trans (Nat.le_of_eq hcount) hle

end Segment

/-- What a snapshot counts are documents, each of them once. -/
structure Snapshot.CountsOnce (s : Snapshot) : Prop where
  /-- A term is counted in no more documents than a segment has. -/
  entry : ∀ g ∈ s.segments, ∀ t entry, g.entry? t = some entry → entry.docFreq ≤ g.maxDoc
  /-- A term is counted in no more documents than there are. -/
  lookup : ∀ t counted, (TermLookup.ofSnapshot s t counted).docFreq ≤ s.maxDoc

namespace Snapshot.Holds

variable {declared : Dictionary IndexOptions} {parts : List (List Document)} {s : Snapshot}

/-- No posting list of a snapshot names a document twice exactly if no document shares a text
between two of its lists for a field. -/
theorem pairwise_postingsOf_iff (h : s.Holds declared parts) :
    (∀ g ∈ s.segments, ∀ t, (g.postingsOf t).Pairwise fun p q => p.doc < q.doc) ↔
      ∀ doc ∈ parts.flatten, doc.SharesNoText := by
  constructor
  · intro hall doc hdoc
    obtain ⟨docs, hdocs, hdoc⟩ := List.mem_flatten.1 hdoc
    obtain ⟨g, hg, hholds⟩ := h.exists_segment docs hdocs
    exact hholds.pairwise_postingsOf_iff.1 (hall g hg) doc hdoc
  · intro hall g hg
    obtain ⟨docs, hdocs, hholds⟩ := h.exists_part g hg
    exact hholds.pairwise_postingsOf_iff.2 fun doc hdoc =>
      hall doc (List.mem_flatten_of_mem hdocs hdoc)

/-- A term is counted in no more documents than the snapshot has. -/
theorem docFreq_ofSnapshot_le (h : s.Holds declared parts)
    (honce : ∀ g ∈ s.segments, ∀ t, (g.postingsOf t).Pairwise fun p q => p.doc < q.doc) (t : Term)
    (counted : Bool) : (TermLookup.ofSnapshot s t counted).docFreq ≤ s.maxDoc := by
  have hsum : ∀ gs : List Segment, (∀ g ∈ gs, g ∈ s.segments) →
      total ((gs.map fun g => g.entry? t).filterMap fun e => e.map (·.docFreq)) ≤
        total (gs.map (·.maxDoc)) := by
    intro gs
    induction gs with
    | nil => exact fun _ => Nat.le_refl 0
    | cons g gs ih =>
      intro hgs
      obtain ⟨hg, hgs⟩ := List.forall_mem_cons.1 hgs
      have hrest := ih hgs
      obtain ⟨docs, -, hholds⟩ := h.exists_part g hg
      rw [List.map_cons, List.filterMap_cons, List.map_cons, total_cons]
      cases hentry : g.entry? t with
      | none => exact Nat.le_trans hrest (Nat.le_add_left ..)
      | some entry => exact Nat.add_le_add (hholds.docFreq_le (honce g hg t) hentry) hrest
  cases counted with
  | false => exact Nat.zero_le _
  | true => exact hsum s.segments fun _ hg => hg

theorem countsOnce (h : s.Holds declared parts)
    (honce : ∀ g ∈ s.segments, ∀ t, (g.postingsOf t).Pairwise fun p q => p.doc < q.doc) :
    s.CountsOnce where
  entry g hg t _ hentry := by
    obtain ⟨docs, -, hholds⟩ := h.exists_part g hg
    exact hholds.docFreq_le (honce g hg t) hentry
  lookup := h.docFreq_ofSnapshot_le honce

end Snapshot.Holds

end TextSearch
