import TextSearch.Fault
import TextSearch.Json.Reader

/-!
# Settings

The limits of traversals and searches. They may be given as JSON: fields that
are missing take their defaults, and unknown ones are ignored.
-/

namespace TextSearch

/-- The limits and switches of traversals and searches. -/
structure Settings where
  /-- The most clauses that a multi-term query, and the most fields that a field pattern, may
  expand to. -/
  maxClauseCount : Nat
  /-- The most passes before a traversal or a grounding is given up. -/
  maxPasses : Nat
  /-- Whether segments may be searched at the same time. -/
  parallel : Bool
  deriving DecidableEq, Repr

namespace Settings

instance : Inhabited Settings := ⟨⟨1024, 16, false⟩⟩

/-- A count is a natural number of 64 bits. -/
def readCount? : Json.Value → Option Nat := Json.Value.toNat? 0x10000000000000000

/-- The settings that a value gives. -/
def ofValue? (v : Json.Value) : Option Settings := do
  match ← v.toFields? ["max_clause_count", "max_rewrite_passes", "parallel"] with
  | [clauses, passes, parallel] =>
    let base : Settings := default
    some
      { maxClauseCount := ← Json.fieldOr base.maxClauseCount readCount? clauses
        maxPasses := ← Json.fieldOr base.maxPasses readCount? passes
        parallel := ← Json.fieldOr base.parallel Json.Value.toBool? parallel }
  | _ => none

/-- The settings that a JSON text gives. -/
def ofJson (text : String) : Except Fault Settings :=
  match (Json.read? text).bind ofValue? with
  | some s => .ok s
  | none => .error .malformedJson

end Settings

/-- What one traversal is asked to do beyond its rules. -/
structure TraversalOptions where
  /-- When present, exact forms do not replace the terms they belong to but are added to them,
  boosted by this factor. -/
  boostExactTokens : Option Single

namespace TraversalOptions

instance : Inhabited TraversalOptions := ⟨⟨none⟩⟩

/-- A factor is a number, or null for none. -/
def readFactor? : Json.Value → Option (Option Single)
  | .null => some none
  | v => v.toSingle?.map some

/-- The options that a value gives. -/
def ofValue? (v : Json.Value) : Option TraversalOptions := do
  match ← v.toFields? ["boost_exact_tokens"] with
  | [factor] => some ⟨← Json.fieldOr none readFactor? factor⟩
  | _ => none

/-- The options that a JSON text gives. -/
def ofJson (text : String) : Except Fault TraversalOptions :=
  match (Json.read? text).bind ofValue? with
  | some o => .ok o
  | none => .error .malformedJson

end TraversalOptions

end TextSearch
