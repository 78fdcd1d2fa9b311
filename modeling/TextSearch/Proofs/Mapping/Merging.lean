import Mathlib.Data.Finset.Card
import Mathlib.Data.List.Flatten
import TextSearch.Proofs.Mapping.Resolving

/-!
# Merging resolved fields

Entries of fields with weights are resolved one after the other, and what they resolve to is merged
field by field. The entries and the fields of each of them may come in any order. Which fields are
resolved, and whether these are too many, does not depend on it at all, and the weights do not
where products are exact: `FieldWeights.merged_in_any_order`. The weight of a field is the
product of what the entries give it, which is more than their own weights where several of the names
that an entry matches lead to the field.
-/

namespace TextSearch

namespace FieldWeights

variable {R : Type} [ScoreNumber R]

open ScoreNumber (product)

/-! ### Reaching fields one after the other -/

/-- The fields that are reached with weights, one after the other. -/
def ofReached (es : List (String × R)) : FieldWeights R :=
  es.foldl (fun weights e => weights.reach e.1 e.2) Dictionary.empty

/-- The weights that a field is reached with. -/
def weightsOf (field : String) (es : List (String × R)) : List R :=
  es.filterMap fun e => if e.1 = field then some e.2 else none

/-- What is reached is what was reached, however it is weighed. -/
theorem mem_keys_ofReached {es : List (String × R)} {field : String} :
    field ∈ (ofReached es).keys ↔ field ∈ es.map (·.1) := by
  have hfold : ∀ (es : List (String × R)) (weights : FieldWeights R),
      field ∈ (es.foldl (fun weights e => weights.reach e.1 e.2) weights).keys ↔
        field ∈ weights.keys ∨ field ∈ es.map (·.1) := by
    intro es
    induction es with
    | nil => simp
    | cons e es ih =>
      intro weights
      have hreach : field ∈ (weights.reach e.1 e.2).keys ↔ field = e.1 ∨ field ∈ weights.keys :=
        Dictionary.mem_keys_alterEntries
      rw [List.foldl_cons, ih, hreach, List.map_cons, List.mem_cons]
      tauto
  have hempty : field ∉ (Dictionary.empty : FieldWeights R).keys := List.not_mem_nil
  rw [ofReached, hfold, or_iff_right hempty]

/-- A field has the product of all weights that it is reached with. -/
theorem get?_ofReached [ExactProduct R] (es : List (String × R)) (field : String) :
    (ofReached es).get? field = (nonEmpty? (weightsOf field es)).map product := by
  have hfold : ∀ (es : List (String × R)) (weights : FieldWeights R) (given : List R),
      weights.get? field = (nonEmpty? given).map product →
      (es.foldl (fun weights e => weights.reach e.1 e.2) weights).get? field =
        (nonEmpty? (given ++ weightsOf field es)).map product := by
    intro es
    induction es with
    | nil =>
      intro weights given h
      simpa [weightsOf] using h
    | cons e es ih =>
      intro weights given h
      obtain ⟨key, weight⟩ := e
      rw [List.foldl_cons, weightsOf, List.filterMap_cons]
      by_cases hkey : key = field
      · subst hkey
        have hone : (weights.reach key weight).get? key =
            (nonEmpty? (given ++ [weight])).map product := by
          rw [reach, Dictionary.get?_alter, if_pos rfl, h, nonEmpty?_concat, Option.map_some,
            ScoreNumber.product_concat]
          cases given with
          | nil => exact congrArg some (ExactProduct.one_mul weight).symm
          | cons x given => exact congrArg some (ExactProduct.mul_comm weight _)
        simpa [weightsOf] using ih _ _ hone
      · have hother : (weights.reach key weight).get? field = (nonEmpty? given).map product := by
          rw [reach, Dictionary.get?_alter, if_neg (Ne.symm hkey), h]
        simpa [weightsOf, hkey] using ih _ _ hother
  exact hfold es _ [] rfl

/-- Fields may be reached in any order. -/
theorem ofReached_perm [ExactProduct R] {es es' : List (String × R)} (h : es.Perm es') :
    ofReached es = ofReached es' := by
  refine Dictionary.ext_get? fun field => ?_
  rw [get?_ofReached, get?_ofReached]
  exact map_nonEmpty?_of_perm ScoreNumber.product_perm (h.filterMap _)

/-! ### Merging what entries resolve to -/

/-- What an entry resolves to. -/
def resolved (m : Mapping) (suffix : Option String) (e : String × R) : FieldWeights R :=
  resolveOne m e.1 e.2 (resolution e.1 suffix)

theorem merged_eq_ofReached (m : Mapping) (entries : List (String × R)) (suffix : Option String) :
    merged m entries suffix =
      ofReached (entries.flatMap fun e => (resolved m suffix e).entries) := by
  rw [merged, ofReached, List.foldl_flatMap]
  rfl

/-- The fields that some entry resolves to. -/
def reached (m : Mapping) (suffix : Option String) (entries : List (String × R)) : Finset String :=
  (entries.flatMap fun e => (resolved m suffix e).keys).toFinset

theorem mem_keys_merged {m : Mapping} {entries : List (String × R)} {suffix : Option String}
    {field : String} :
    field ∈ (merged m entries suffix).keys ↔ field ∈ reached m suffix entries := by
  rw [merged_eq_ofReached, mem_keys_ofReached, reached, List.mem_toFinset, List.map_flatMap]
  rfl

/-- Every field is counted once, however many entries resolve to it. -/
theorem size_merged (m : Mapping) (entries : List (String × R)) (suffix : Option String) :
    (merged m entries suffix).size = (reached m suffix entries).card := by
  have hset : (merged m entries suffix).keys.toFinset = reached m suffix entries := by
    ext field
    rw [List.mem_toFinset, mem_keys_merged]
  rw [← hset, List.toFinset_card_of_nodup (Dictionary.nodup_keys _), Dictionary.keys,
    List.length_map, Dictionary.size]

/-- The weight of a field is the product of what the entries give it. -/
theorem get?_merged [ExactProduct R] (m : Mapping) (entries : List (String × R))
    (suffix : Option String) (field : String) : (merged m entries suffix).get? field =
      (nonEmpty? (entries.filterMap fun e => (resolved m suffix e).get? field)).map product := by
  have hweights : weightsOf field (entries.flatMap fun e => (resolved m suffix e).entries) =
      entries.filterMap fun e => (resolved m suffix e).get? field := by
    rw [weightsOf, List.filterMap_flatMap, List.filterMap_eq_flatMap_toList]
    exact congrArg List.flatten (List.map_congr_left fun e _ =>
      (resolved m suffix e).filterMap_entries field)
  rw [merged_eq_ofReached, get?_ofReached, hweights]

/-- Entries of which every one that resolves to a field has a single name that leads there give the
field their own weights. -/
theorem get?_merged_of_single [ExactProduct R] (m : Mapping) (entries : List (String × R))
    (suffix : Option String) (field : String)
    (hsingle : ∀ e ∈ entries, (leading m (resolution e.1 suffix) e.1 field).length ≤ 1) :
    (merged m entries suffix).get? field = (nonEmpty? ((entries.filter fun e =>
      !(leading m (resolution e.1 suffix) e.1 field).isEmpty).map (·.2))).map product := by
  rw [get?_merged, ← List.filterMap_eq_map, List.filterMap_filter]
  refine congrArg (fun l => (nonEmpty? l).map product) (List.filterMap_congr fun e he => ?_)
  have hlength := hsingle e he
  rw [resolved, get?_resolveOne]
  match hnames : leading m (resolution e.1 suffix) e.1 field, hlength with
  | [], _ => rfl
  | [name], _ => exact congrArg some (ScoreNumber.product_singleton e.2)

/-! ### Any order -/

/-- The fields that expansions come to, in the order given. -/
def mergedFrom (expansions : List (List (String × R))) : FieldWeights R :=
  expansions.foldl (fun weights es =>
    es.foldl (fun weights e => weights.reach e.1 e.2) weights) Dictionary.empty

/-- The fields that expansions come to, unless there are too many of them. -/
def resolveFrom (ctx : SearchContext) (expansions : List (List (String × R))) :
    Except Fault (FieldWeights R) := do
  let weights := mergedFrom expansions
  checkCount weights.size ctx.settings.maxClauseCount none
  .ok weights

/-- Expansions of entries in some order, each of them with its fields in some order. -/
def AnyOrder (m : Mapping) (suffix : Option String) (entries : List (String × R))
    (expansions : List (List (String × R))) : Prop :=
  ∃ entries', entries.Perm entries' ∧
    List.Forall₂ (fun e es => (resolved m suffix e).entries.Perm es) entries' expansions

theorem mergedFrom_eq_ofReached (expansions : List (List (String × R))) :
    mergedFrom expansions = ofReached expansions.flatten := by
  rw [mergedFrom, ofReached, List.foldl_flatten]

theorem resolve_eq_resolveFrom (ctx : SearchContext) (entries : List (String × R))
    (suffix : Option String) : resolve ctx entries suffix =
      resolveFrom ctx (entries.map fun e => (resolved ctx.mapping suffix e).entries) := by
  have hmerged : merged ctx.mapping entries suffix =
      mergedFrom (entries.map fun e => (resolved ctx.mapping suffix e).entries) := by
    rw [mergedFrom, List.foldl_map]
    rfl
  rw [resolve, resolveFrom, hmerged]

/-- In any order the same fields are reached with the same weights, if not one after the other. -/
theorem AnyOrder.perm_flatten {m : Mapping} {suffix : Option String} {entries : List (String × R)}
    {expansions : List (List (String × R))} (h : AnyOrder m suffix entries expansions) :
    (entries.flatMap fun e => (resolved m suffix e).entries).Perm expansions.flatten := by
  obtain ⟨entries', hperm, hall⟩ := h
  exact (hperm.flatMap_right _).trans
    (perm_flatten_of_forall₂ (List.forall₂_map_left_iff.2 hall))

theorem AnyOrder.keys_eq {m : Mapping} {suffix : Option String} {entries : List (String × R)}
    {expansions : List (List (String × R))} (h : AnyOrder m suffix entries expansions) :
    (mergedFrom expansions).keys = (merged m entries suffix).keys := by
  refine Dictionary.keys_eq_of_mem_iff fun field => ?_
  rw [mergedFrom_eq_ofReached, merged_eq_ofReached, mem_keys_ofReached, mem_keys_ofReached]
  exact (h.perm_flatten.map _).mem_iff.symm

theorem AnyOrder.eq [ExactProduct R] {m : Mapping} {suffix : Option String}
    {entries : List (String × R)} {expansions : List (List (String × R))}
    (h : AnyOrder m suffix entries expansions) :
    mergedFrom expansions = merged m entries suffix := by
  rw [mergedFrom_eq_ofReached, merged_eq_ofReached]
  exact (ofReached_perm h.perm_flatten).symm

/-- Fields are refused if there are too many of them. -/
theorem resolve_eq (ctx : SearchContext) (entries : List (String × R)) (suffix : Option String) :
    resolve ctx entries suffix =
      if ctx.settings.maxClauseCount < (reached ctx.mapping suffix entries).card then
        .error (.tooManyFields none ctx.settings.maxClauseCount
          (reached ctx.mapping suffix entries).card)
      else .ok (merged ctx.mapping entries suffix) := by
  rw [resolve, size_merged, checkCount]
  split <;> rfl

/-- Entries are gone through in the order given, but they may come in any order, and the fields of
each of them as well. The same fields are resolved, those that some entry resolves to, or they are
refused as the fault of the configuration, exactly if there are more of them than clauses are
allowed. Where products are exact the weights are the same too: the weight of a field is the product
of what the entries give it, and that is the product of their own weights where each has a single
name that leads to the field. -/
theorem merged_in_any_order (ctx : SearchContext) (suffix : Option String)
    (entries : List (String × R)) :
    resolve ctx entries suffix =
      resolveFrom ctx (entries.map fun e => (resolved ctx.mapping suffix e).entries) ∧
    (∀ expansions, AnyOrder ctx.mapping suffix entries expansions →
      Dictionary.keys <$> resolveFrom ctx expansions =
          Dictionary.keys <$> resolve ctx entries suffix ∧
        (ExactProduct R → resolveFrom ctx expansions = resolve ctx entries suffix)) ∧
    ((∃ f, resolve ctx entries suffix = .error f) ↔
      ctx.settings.maxClauseCount < (reached ctx.mapping suffix entries).card) ∧
    (∀ f, resolve ctx entries suffix = .error f → f.isConfiguration = true) ∧
    ∀ weights, resolve ctx entries suffix = .ok weights →
      (∀ field, field ∈ weights.keys ↔ field ∈ reached ctx.mapping suffix entries) ∧
      (ExactProduct R → ∀ field,
        weights.get? field = (nonEmpty? (entries.filterMap fun e =>
            (resolved ctx.mapping suffix e).get? field)).map product ∧
        ((∀ e ∈ entries, (leading ctx.mapping (resolution e.1 suffix) e.1 field).length ≤ 1) →
          weights.get? field = (nonEmpty? ((entries.filter fun e =>
            !(leading ctx.mapping (resolution e.1 suffix) e.1 field).isEmpty).map (·.2))).map
              product)) := by
  refine ⟨resolve_eq_resolveFrom .., fun expansions h => ⟨?_, fun hexact => ?_⟩, ?_, ?_, ?_⟩
  · have hsize : (mergedFrom expansions).size = (merged ctx.mapping entries suffix).size := by
      have hlength := congrArg List.length h.keys_eq
      rwa [Dictionary.keys, Dictionary.keys, List.length_map, List.length_map] at hlength
    rw [resolveFrom, resolve, hsize]
    cases checkCount (merged ctx.mapping entries suffix).size ctx.settings.maxClauseCount none with
    | error => rfl
    | ok => exact congrArg Except.ok h.keys_eq
  · rw [resolveFrom, resolve, h.eq]
  · rw [resolve_eq]
    split
    · next hmany => exact iff_of_true ⟨_, rfl⟩ hmany
    · next hfew =>
      refine iff_of_false (fun hfails => ?_) hfew
      obtain ⟨f, hf⟩ := hfails
      cases hf
  · intro f hf
    rw [resolve_eq] at hf
    split at hf
    · cases hf
      rfl
    · cases hf
  · intro weights hweights
    rw [resolve_eq] at hweights
    split at hweights
    · cases hweights
    · cases hweights
      exact ⟨fun field => mem_keys_merged, fun hexact field =>
        ⟨get?_merged _ entries suffix field, get?_merged_of_single _ entries suffix field⟩⟩

/-- A field and all names, in the other order. The field has an alias, so it is given the weight of
all names twice. -/
theorem merged_in_any_order_two :
    let m : Mapping := ((Mapping.empty.withField "title" .text).withField "body" .text).withAlias
      "headline" "title"
    let ctx : SearchContext := ⟨m, default⟩
    let entries : List (String × ℚ) := [("title", 2), ("*", 3)]
    let expansions : List (List (String × ℚ)) := [[("title", 9), ("body", 3)], [("title", 2)]]
    AnyOrder m none entries expansions ∧
      resolveFrom ctx expansions = resolve ctx entries none ∧
      (∃ weights, resolve ctx entries none = .ok weights ∧ weights.get? "title" = some 18 ∧
        weights.get? "body" = some 3) ∧
      ∃ f, resolve ⟨m, { (default : Settings) with maxClauseCount := 1 }⟩ entries none =
        .error f ∧ f.isConfiguration = true := by
  intro m ctx entries expansions
  have horder : AnyOrder m none entries expansions :=
    ⟨[("*", 3), ("title", 2)], .swap .., .cons (by decide +kernel) (.cons (by decide +kernel) .nil)⟩
  obtain ⟨-, hany, -, -, hweights⟩ := merged_in_any_order ctx none entries
  obtain ⟨-, -, hfails, hfault, -⟩ := merged_in_any_order
    ⟨m, { (default : Settings) with maxClauseCount := 1 }⟩ none entries
  obtain ⟨f, hf⟩ := hfails.2 (by decide +kernel)
  have hok : resolve ctx entries none = .ok (merged m entries none) := by
    rw [resolve_eq, if_neg (by decide +kernel)]
  obtain ⟨-, hexact⟩ := hweights _ hok
  refine ⟨horder, (hany expansions horder).2 inferInstance, ⟨_, hok, ?_, ?_⟩, f, hf, hfault f hf⟩
  · exact (hexact inferInstance "title").1.trans (by decide +kernel)
  · exact ((hexact inferInstance "body").2 (by decide +kernel)).trans (by decide +kernel)

/-- Where two names lead to a field, a single entry gives it more than its own weight. -/
theorem merged_in_any_order_not_own_weight :
    let m : Mapping := (Mapping.empty.withField "title" .text).withAlias "headline" "title"
    let entries : List (String × Single) := [("*", .ofCount 2)]
    ((resolve ⟨m, default⟩ entries none).toOption.bind fun weights => weights.get? "title") =
        some (.ofCount 4) ∧
      (entries.map (·.2)).foldl (· * ·) (.ofCount 1) = .ofCount 2 := by
  decide +kernel

end FieldWeights

end TextSearch
