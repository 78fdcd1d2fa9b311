import TextSearch.Mapping.FieldWeights
import TextSearch.Proofs.Dictionary
import TextSearch.Proofs.Score.One

/-!
# Resolving a field pattern

Every name that a pattern matches leads to at most one field: to the concrete field of the name
where that was matched as well, and else to the name itself. A field is given the weight of the
pattern once for every name that leads to it: `FieldWeights.resolved_weights`. So a field that is
matched together with one of its aliases is given a multiple of the weight, and not the weight.
-/

namespace TextSearch

namespace Mapping

variable {m : Mapping}

/-- An alias of a valid mapping is the name of no concrete field. -/
theorem not_contains_of_validate (hm : m.validate = .ok ()) {name concrete : String}
    (halias : m.aliases.get? name = some concrete) : m.fields.contains name = false := by
  rw [validate] at hm
  split at hm
  · cases hm
  · next hnone =>
    have hfault : m.aliasFault? name concrete = none :=
      List.findSome?_eq_none_iff.1 hnone (name, concrete) (m.aliases.mem_of_get? halias)
    rw [aliasFault?] at hfault
    split at hfault
    · cases hfault
    · next hcontains => exact eq_false_of_ne_true hcontains

end Mapping

namespace FieldWeights

variable {m : Mapping} {r : Resolution}

/-- The name that stands for a matched name: with the ending, if that is mapped. -/
def suffixed (m : Mapping) (r : Resolution) (name : String) : String :=
  match r.suffix with
  | some suffix => if m.isMapped (name ++ suffix) then name ++ suffix else name
  | none => name

/-- What a matched name leads to, in terms of the name that stands for it. -/
theorem target?_eq (m : Mapping) (r : Resolution) (matched : List String) (name : String) :
    target? m r matched name = (m.field? (suffixed m r name)).bind fun f =>
      if !r.metadata && f.isMetadata then none
      else if !r.allKinds && f.kind.searchability == .unsearchable then none
      else if matched.contains f.name then some f.name
      else some (suffixed m r name) := by
  simp only [target?, suffixed]
  generalize m.field? _ = found
  cases found <;> rfl

/-- A matched name leads to the concrete field that it stands for, if that was matched as well, and
else to the name that stands for it. -/
theorem target?_eq_some {matched : List String} {name field : String}
    (h : target? m r matched name = some field) : ∃ f, m.field? (suffixed m r name) = some f ∧
      (f.name ∈ matched ∧ field = f.name ∨ f.name ∉ matched ∧ field = suffixed m r name) := by
  rw [target?_eq] at h
  obtain ⟨f, hf, h⟩ := Option.bind_eq_some_iff.1 h
  refine ⟨f, hf, ?_⟩
  split at h
  · cases h
  · split at h
    · cases h
    · split at h
      · next hmatched => exact .inl ⟨List.contains_iff_mem.1 hmatched, (Option.some.inj h).symm⟩
      · next hmatched =>
        exact .inr ⟨fun hmem => hmatched (List.contains_iff_mem.2 hmem), (Option.some.inj h).symm⟩

/-- The names that a pattern matches and that lead to a field. -/
def leading (m : Mapping) (r : Resolution) (pattern field : String) : List String :=
  (m.matchingNames pattern).filter fun name =>
    target? m r (m.matchingNames pattern) name == some field

variable {R : Type} [ScoreNumber R]

open ScoreNumber (product)

/-- A field is given the weight once for every name that leads to it. -/
theorem get?_resolveOne (m : Mapping) (pattern : String) (weight : R) (r : Resolution)
    (field : String) : (resolveOne m pattern weight r).get? field =
      (nonEmpty? ((leading m r pattern field).map fun _ => weight)).map product := by
  have hfold : ∀ (names : List String) (weights : FieldWeights R) (given : List R),
      weights.get? field = (nonEmpty? given).map product →
      (names.foldl (fun weights name =>
        match target? m r (m.matchingNames pattern) name with
        | some field => weights.alter field fun before => before.getD ScoreNumber.one * weight
        | none => weights) weights).get? field =
        (nonEmpty? (given ++ (names.filter fun name =>
          target? m r (m.matchingNames pattern) name == some field).map fun _ => weight)).map
            product := by
    intro names
    induction names with
    | nil =>
      intro weights given h
      simpa using h
    | cons name names ih =>
      intro weights given h
      rw [List.foldl_cons, List.filter_cons]
      cases ht : target? m r (m.matchingNames pattern) name with
      | none => exact ih _ _ h
      | some reached =>
        by_cases heq : reached = field
        · subst heq
          have hgiven : ((nonEmpty? given).map product).getD ScoreNumber.one = product given := by
            cases given <;> rfl
          have hone : (weights.alter reached fun before =>
              before.getD ScoreNumber.one * weight).get? reached =
                (nonEmpty? (given ++ [weight])).map product := by
            rw [Dictionary.get?_alter, if_pos rfl, h, hgiven, nonEmpty?_concat, Option.map_some,
              ScoreNumber.product_concat]
          simpa using ih _ _ hone
        · have hother : (weights.alter reached fun before =>
              before.getD ScoreNumber.one * weight).get? field =
                (nonEmpty? given).map product := by
            rw [Dictionary.get?_alter, if_neg (Ne.symm heq), h]
          simpa [heq] using ih _ _ hother
  exact hfold _ _ [] rfl

theorem mem_keys_resolveOne {pattern : String} {weight : R} {field : String} :
    field ∈ (resolveOne m pattern weight r).keys ↔ leading m r pattern field ≠ [] := by
  rw [Dictionary.mem_keys_iff, get?_resolveOne, Option.isSome_map, nonEmpty?_map,
    Option.isSome_map, Option.isSome_iff_ne_none, ne_eq, nonEmpty?_eq_none_iff]

/-- No field that is resolved to is an alias of a field that is matched, in a valid mapping. -/
theorem not_mem_of_alias (hm : m.validate = .ok ()) {pattern : String} {weight : R}
    {field concrete : String} (hfield : field ∈ (resolveOne m pattern weight r).keys)
    (halias : m.aliases.get? field = some concrete) : concrete ∉ m.matchingNames pattern := by
  obtain ⟨name, hname⟩ := List.exists_mem_of_ne_nil _ (mem_keys_resolveOne.1 hfield)
  have htarget := beq_iff_eq.1 (List.mem_filter.1 hname).2
  obtain ⟨f, hf, hcases⟩ := target?_eq_some htarget
  obtain ⟨kind, hkind, rfl⟩ := Option.map_eq_some_iff.1 hf
  rcases hcases with ⟨-, rfl⟩ | ⟨hmatched, rfl⟩
  · -- the name of a concrete field is no alias
    have hcontains : m.fields.contains ((m.aliases.get? (suffixed m r name)).getD
        (suffixed m r name)) = true := by
      rw [Dictionary.contains, hkind]
      rfl
    rw [Mapping.not_contains_of_validate hm halias] at hcontains
    cases hcontains
  · rwa [halias] at hmatched

/-- What a pattern resolves to in a valid mapping. A field carries the product of as many times the
weight as there are names that lead to it, which is the weight where a single one does. No field
is an alias of a field that is matched. -/
theorem resolved_weights [ExactUnit R] (hm : m.validate = .ok ()) (pattern : String)
    (weight : R) (r : Resolution) :
    (∀ field, (resolveOne m pattern weight r).get? field =
      (nonEmpty? ((leading m r pattern field).map fun _ => weight)).map product) ∧
    (∀ field name, leading m r pattern field = [name] →
      (resolveOne m pattern weight r).get? field = some weight) ∧
    ∀ field ∈ (resolveOne m pattern weight r).keys, ∀ concrete,
      m.aliases.get? field = some concrete → concrete ∉ m.matchingNames pattern := by
  refine ⟨get?_resolveOne m pattern weight r, fun field name hname => ?_,
    fun field hfield concrete => not_mem_of_alias hm hfield⟩
  rw [get?_resolveOne, hname]
  exact congrArg some (ScoreNumber.product_singleton weight)

/-- All names of a mapping with an alias. -/
theorem resolved_weights_all :
    let m : Mapping := ((Mapping.empty.withField "title" .text).withField "body" .text).withAlias
      "headline" "title"
    m.validate = .ok () ∧
      (resolveOne m "*" (Single.ofValue 1.5) (resolution "*" none)).get? "body" =
        some (.ofValue 1.5) ∧
      "title" ∈ m.matchingNames "*" ∧
      "headline" ∉ (resolveOne m "*" (Single.ofValue 1.5) (resolution "*" none)).keys := by
  intro m
  have hm : m.validate = .ok () := by rfl
  have htitle : "title" ∈ m.matchingNames "*" := by decide +kernel
  obtain ⟨-, hsingle, halias⟩ := resolved_weights hm "*" (Single.ofValue 1.5)
    (resolution "*" none)
  exact ⟨hm, hsingle "body" "body" (by decide +kernel), htitle,
    fun hkeys => halias "headline" hkeys "title" (by decide +kernel) htitle⟩

/-- A field that is matched together with its alias is given the square of the weight. -/
theorem resolved_weights_not_once :
    let m : Mapping := (Mapping.empty.withField "title" .text).withAlias "headline" "title"
    m.validate = .ok () ∧
      (resolveOne m "*" (Single.ofCount 2) (resolution "*" none)).get? "title" =
        some (.ofCount 4) := by
  refine ⟨by rfl, ?_⟩
  decide +kernel

end FieldWeights

end TextSearch
