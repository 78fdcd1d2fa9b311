import TextSearch.Fault

/-!
# Minimum frequencies

A minimum frequency is a `Threshold`: a count of at least one. The only way to
make one from a request is `Threshold.ofNat`, which refuses zero.
-/

namespace TextSearch

/-- A count that must be reached, at least one. -/
structure Threshold where
  /-- The least count that passes. -/
  value : Nat
  /-- Everything would pass a threshold of zero, so it is no threshold. -/
  positive : 0 < value
  deriving DecidableEq, Repr

namespace Threshold

/-- The threshold of one, which every occurrence passes. -/
def one : Threshold := ⟨1, Nat.one_pos⟩

instance : Inhabited Threshold := ⟨one⟩

instance : Hashable Threshold := ⟨fun t => hash t.value⟩

/-- A requested minimum is a threshold unless it is zero. -/
def ofNat (n : Nat) : Except Fault Threshold :=
  if h : 0 < n then .ok ⟨n, h⟩ else .error .zeroThreshold

theorem ofNat_value (t : Threshold) : ofNat t.value = .ok t := by
  simp [ofNat, t.positive]

theorem ofNat_eq_error_iff {n : Nat} {f : Fault} :
    ofNat n = .error f ↔ n = 0 ∧ f = .zeroThreshold := by
  by_cases h : 0 < n
  · have : n ≠ 0 := by omega
    simp [ofNat, h, this]
  · have : n = 0 := by omega
    simp [ofNat, this, eq_comm]

end Threshold

end TextSearch
