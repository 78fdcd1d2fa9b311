/-!
# Ranges of code points

A class of characters is given as an ascending list of ranges of code points,
each with its first and its last member.
-/

namespace TextSearch

/-- Ranges of code points, in ascending order. -/
abbrev Ranges := List (Nat × Nat)

namespace Ranges

/-- Whether a code point lies in one of the ranges. The search ends at the first range behind
the code point. -/
def contains (n : Nat) : Ranges → Bool
  | [] => false
  | (first, last) :: rest => if n < first then false else decide (n ≤ last) || contains n rest

/-- Whether a character lies in one of the ranges. -/
def has (rs : Ranges) (c : Char) : Bool := contains c.toNat rs

theorem contains_eq_true_iff {n : Nat} :
    ∀ {rs : Ranges}, (rs.Pairwise fun a b => a.1 ≤ b.1) →
      (contains n rs = true ↔ ∃ r ∈ rs, r.1 ≤ n ∧ n ≤ r.2)
  | [], _ => by simp [contains]
  | (first, last) :: rest, h => by
    have hr := List.pairwise_cons.1 h
    have ih := contains_eq_true_iff (n := n) hr.2
    simp only [contains]
    split
    · next hlt =>
      simp only [Bool.false_eq_true, false_iff, not_exists, not_and, Nat.not_le]
      intro r hmem hle
      rcases List.mem_cons.1 hmem with rfl | hmem
      · exact absurd hle (Nat.not_le.2 hlt)
      · exact absurd (Nat.le_trans (hr.1 r hmem) hle) (Nat.not_le.2 hlt)
    · next hge =>
      rw [Bool.or_eq_true, decide_eq_true_iff, ih]
      constructor
      · rintro (hle | ⟨r, hmem, hin⟩)
        · exact ⟨_, List.mem_cons_self .., Nat.not_lt.1 hge, hle⟩
        · exact ⟨r, List.mem_cons_of_mem _ hmem, hin⟩
      · rintro ⟨r, hmem, hin⟩
        rcases List.mem_cons.1 hmem with rfl | hmem
        · exact .inl hin.2
        · exact .inr ⟨r, hmem, hin⟩

end Ranges

end TextSearch
