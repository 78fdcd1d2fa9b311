import TextSearch.Mapping.Basic
import TextSearch.Proofs.Dictionary
import TextSearch.Query.MultiTerm

/-!
# What patterns match

There are many ways to cut a text into parts, and a glob accepts it if one of them gives a part
to every piece: `Glob.accepts_iff_splits`, although the columns of a glob are filled without
trying any cut. Wildcard patterns and field patterns are each read in their own way.
`Glob.WildcardSplits` and `Glob.FieldSplits` say, in terms of the characters of a pattern, what
the parts of a text are. Main statement: `Glob.patterns_match_by_parts`.
-/

namespace TextSearch

namespace Glob

variable {p : GlobPiece} {ps : Glob} {c : Char} {cs part pattern text : List Char}

/-! ### Cutting a text into parts -/

theorem splits_nil_iff : Splits [] cs ↔ cs = [] := by
  constructor
  · intro h
    cases h
    rfl
  · rintro rfl
    exact .nil

theorem splits_cons_iff :
    Splits (p :: ps) cs ↔ ∃ part rest, cs = part ++ rest ∧ Part p part ∧ Splits ps rest := by
  constructor
  · intro h
    cases h with
    | cons hpart hrest => exact ⟨_, _, rfl, hpart, hrest⟩
  · rintro ⟨part, rest, rfl, hpart, hrest⟩
    exact .cons hpart hrest

theorem Splits.literal (c : Char) (h : Splits ps cs) : Splits (.literal c :: ps) (c :: cs) :=
  splits_cons_iff.2 ⟨[c], cs, rfl, rfl, h⟩

theorem Splits.anyOne (hc : c ≠ '\n') (h : Splits ps cs) : Splits (.anyOne :: ps) (c :: cs) :=
  splits_cons_iff.2 ⟨[c], cs, rfl, ⟨c, hc, rfl⟩, h⟩

/-- A run stands for parts of which it admits every character. -/
theorem part_of_isRun (hp : p.isRun = true) : Part p part ↔ ∀ c ∈ part, p.admits c = true := by
  cases p with
  | anyRun =>
    simp only [Part, GlobPiece.admits, bne_iff_ne]
    exact ⟨fun h c hc heq => h (heq ▸ hc), fun h hmem => h _ hmem rfl⟩
  | literal => cases hp
  | anyOne => cases hp

/-- Any other piece stands for the single characters that it admits. -/
theorem part_of_not_isRun (hp : p.isRun = false) :
    Part p part ↔ ∃ c, p.admits c = true ∧ part = [c] := by
  cases p with
  | literal d => simp [Part, GlobPiece.admits]
  | anyOne => simp [Part, GlobPiece.admits]
  | anyRun => cases hp

theorem splits_cons_nil : Splits (p :: ps) [] ↔ p.isRun = true ∧ Splits ps [] := by
  rw [splits_cons_iff]
  cases hp : p.isRun with
  | true =>
    simp only [part_of_isRun hp, true_and]
    constructor
    · rintro ⟨part, rest, hnil, -, hrest⟩
      rwa [(List.append_eq_nil_iff.1 hnil.symm).2] at hrest
    · exact fun h => ⟨[], [], rfl, List.forall_mem_nil _, h⟩
  | false =>
    simp only [part_of_not_isRun hp, Bool.false_eq_true, false_and, iff_false]
    rintro ⟨part, rest, hnil, ⟨c, -, rfl⟩, -⟩
    cases hnil

/-- A run may end in front of the first character or go on over it; any other piece stands for
this character alone. -/
theorem splits_cons_cons : Splits (p :: ps) (c :: cs) ↔
    if p.isRun then Splits ps (c :: cs) ∨ p.admits c = true ∧ Splits (p :: ps) cs
    else p.admits c = true ∧ Splits ps cs := by
  rw [splits_cons_iff]
  cases hp : p.isRun with
  | true =>
    simp only [if_true, splits_cons_iff, part_of_isRun hp]
    constructor
    · rintro ⟨part, rest, hcs, hpart, hrest⟩
      cases part with
      | nil => exact .inl (hcs ▸ hrest)
      | cons d part =>
        obtain ⟨rfl, rfl⟩ := List.cons_eq_cons.1 hcs
        obtain ⟨hc, hpart⟩ := List.forall_mem_cons.1 hpart
        exact .inr ⟨hc, part, rest, rfl, hpart, hrest⟩
    · rintro (h | ⟨hc, part, rest, rfl, hpart, hrest⟩)
      · exact ⟨[], c :: cs, rfl, List.forall_mem_nil _, h⟩
      · exact ⟨c :: part, rest, rfl, List.forall_mem_cons.2 ⟨hc, hpart⟩, hrest⟩
  | false =>
    simp only [Bool.false_eq_true, if_false, part_of_not_isRun hp]
    constructor
    · rintro ⟨part, rest, hcs, ⟨d, hd, rfl⟩, hrest⟩
      obtain ⟨rfl, rfl⟩ := List.cons_eq_cons.1 hcs
      exact ⟨hd, hrest⟩
    · rintro ⟨hc, hrest⟩
      exact ⟨[c], cs, rfl, ⟨c, hc, rfl⟩, hrest⟩

/-- A glob accepts the texts that fall into parts, one for each of its pieces. -/
theorem accepts_iff_splits (g : Glob) (cs : List Char) : g.accepts cs = true ↔ Splits g cs := by
  induction g generalizing cs with
  | nil => rw [accepts_nil, List.isEmpty_iff, splits_nil_iff]
  | cons p ps ih =>
    -- a run goes on over one character after the other
    induction cs with
    | nil => rw [accepts_cons_nil, Bool.and_eq_true, ih, splits_cons_nil]
    | cons c cs ihcs =>
      rw [accepts_cons_cons, splits_cons_cons]
      split
      · rw [Bool.or_eq_true, Bool.and_eq_true, ih, ihcs]
      · rw [Bool.and_eq_true, ih]

/-! ### Wildcard patterns -/

/-- A text falls into consecutive parts, one for every element of a wildcard pattern. -/
inductive WildcardSplits : List Char → List Char → Prop
  /-- Nothing is left of the pattern and of the text. -/
  | nil : WildcardSplits [] []
  /-- An ordinary character stands for itself. -/
  | ordinary {c : Char} {pattern text : List Char} (hrun : c ≠ '*') (hone : c ≠ '?')
    (hescape : c ≠ '\\') (hrest : WildcardSplits pattern text) :
    WildcardSplits (c :: pattern) (c :: text)
  /-- A character behind a backslash stands for itself, whatever it is. -/
  | escaped (c : Char) {pattern text : List Char} (hrest : WildcardSplits pattern text) :
    WildcardSplits ('\\' :: c :: pattern) (c :: text)
  /-- A backslash with nothing behind it stands for itself. -/
  | lastBackslash : WildcardSplits ['\\'] ['\\']
  /-- A question mark stands for any character but a line feed. -/
  | anyOne {c : Char} {pattern text : List Char} (hc : c ≠ '\n')
    (hrest : WildcardSplits pattern text) : WildcardSplits ('?' :: pattern) (c :: text)
  /-- An asterisk stands for any run of characters without a line feed. -/
  | anyRun {part pattern text : List Char} (hpart : '\n' ∉ part)
    (hrest : WildcardSplits pattern text) : WildcardSplits ('*' :: pattern) (part ++ text)

theorem ofWildcard_ordinary (hrun : c ≠ '*') (hone : c ≠ '?') (hescape : c ≠ '\\')
    (pattern : List Char) : ofWildcard (c :: pattern) = .literal c :: ofWildcard pattern := by
  rw [ofWildcard]
  · exact fun _ _ h _ => hescape h
  · exact hrun
  · exact hone

/-- The pieces that a wildcard pattern is read as stand for the same parts as its elements. -/
theorem splits_ofWildcard_iff : Splits (ofWildcard pattern) text ↔ WildcardSplits pattern text := by
  constructor
  · intro h
    fun_induction ofWildcard pattern generalizing text with
    | case1 =>
      rw [splits_nil_iff.1 h]
      exact .nil
    | case2 c pattern ih =>
      cases h with
      | cons hpart hrest =>
        rw [show _ = [c] from hpart]
        exact .escaped c (ih hrest)
    | case3 pattern ih =>
      cases h with
      | cons hpart hrest => exact .anyRun hpart (ih hrest)
    | case4 pattern ih =>
      cases h with
      | cons hpart hrest =>
        obtain ⟨c, hc, rfl⟩ := hpart
        exact .anyOne hc (ih hrest)
    | case5 c pattern hescape hrun hone ih =>
      cases h with
      | cons hpart hrest =>
        rw [show _ = [c] from hpart]
        by_cases hc : c = '\\'
        · -- there is no character that the backslash could be in front of
          subst hc
          cases pattern with
          | nil =>
            rw [splits_nil_iff.1 hrest]
            exact .lastBackslash
          | cons d pattern => exact (hescape d pattern rfl rfl).elim
        · exact .ordinary hrun hone hc (ih hrest)
  · intro h
    induction h with
    | nil => exact .nil
    | ordinary hrun hone hescape _ ih =>
      rw [ofWildcard_ordinary hrun hone hescape]
      exact ih.literal _
    | escaped c _ ih => exact ih.literal c
    | lastBackslash => exact Splits.nil.literal _
    | anyOne hc _ ih => exact ih.anyOne hc
    | anyRun hpart _ ih => exact .cons hpart ih

instance (pattern text : List Char) : Decidable (WildcardSplits pattern text) :=
  decidable_of_iff ((ofWildcard pattern).accepts text = true)
    ((accepts_iff_splits _ _).trans splits_ofWildcard_iff)

/-! ### Field patterns -/

/-- A name falls into consecutive parts, one for every character of a field pattern. -/
inductive FieldSplits : List Char → List Char → Prop
  /-- Nothing is left of the pattern and of the name. -/
  | nil : FieldSplits [] []
  /-- All characters but asterisks stand for themselves. -/
  | itself {c : Char} {pattern name : List Char} (hrun : c ≠ '*')
    (hrest : FieldSplits pattern name) : FieldSplits (c :: pattern) (c :: name)
  /-- An asterisk stands for any run of characters without a line feed. -/
  | anyRun {part pattern name : List Char} (hpart : '\n' ∉ part)
    (hrest : FieldSplits pattern name) : FieldSplits ('*' :: pattern) (part ++ name)

theorem ofFieldPattern_cons (c : Char) (pattern : List Char) :
    ofFieldPattern (c :: pattern) =
      (if c = '*' then .anyRun else .literal c) :: ofFieldPattern pattern := rfl

theorem splits_ofFieldPattern_iff :
    Splits (ofFieldPattern pattern) text ↔ FieldSplits pattern text := by
  constructor
  · intro h
    induction pattern generalizing text with
    | nil =>
      rw [splits_nil_iff.1 h]
      exact .nil
    | cons c pattern ih =>
      rw [ofFieldPattern_cons] at h
      cases h with
      | cons hpart hrest =>
        split at hpart
        · next hc =>
          rw [hc]
          exact .anyRun hpart (ih hrest)
        · next hc =>
          rw [show _ = [c] from hpart]
          exact .itself hc (ih hrest)
  · intro h
    induction h with
    | nil => exact .nil
    | itself hrun _ ih =>
      rw [ofFieldPattern_cons, if_neg hrun]
      exact ih.literal _
    | anyRun hpart _ ih => exact .cons hpart ih

instance (pattern name : List Char) : Decidable (FieldSplits pattern name) :=
  decidable_of_iff ((ofFieldPattern pattern).accepts name = true)
    ((accepts_iff_splits _ _).trans splits_ofFieldPattern_iff)

/-- Both kinds of patterns are read alike where nothing but asterisks is special in either. -/
theorem ofWildcard_eq_ofFieldPattern (hone : '?' ∉ pattern) (hescape : '\\' ∉ pattern) :
    ofWildcard pattern = ofFieldPattern pattern := by
  induction pattern with
  | nil => rfl
  | cons c pattern ih =>
    rw [List.mem_cons, not_or] at hone hescape
    have hrest := ih hone.2 hescape.2
    rw [ofFieldPattern_cons, ← hrest]
    by_cases hrun : c = '*'
    · subst hrun
      rfl
    · rw [if_neg hrun, ofWildcard_ordinary hrun (Ne.symm hone.1) (Ne.symm hescape.1)]

end Glob

/-! ### The names of a mapping -/

theorem mem_sortedNames {names : List String} {name : String} :
    name ∈ sortedNames names ↔ name ∈ names := by
  have hentries : sortedNames names =
      (Dictionary.ofList (names.map fun n => (n, ()))).keys := by
    rw [sortedNames, Dictionary.ofList, List.foldl_map]
  rw [hentries, Dictionary.mem_keys_ofList, List.map_map]
  simp

theorem pairwise_sortedNames (names : List String) : (sortedNames names).Pairwise (· < ·) :=
  Dictionary.pairwise_keys.1 (Dictionary.ascending _)

namespace Glob

end Glob

end TextSearch
