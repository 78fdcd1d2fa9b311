import TextSearch.Mapping.Basic
import TextSearch.Score.Number

/-!
# Weighted fields

A search over several fields names them with optional boosts, such as `title^2`,
`body` and `meta.*^0.5`. A list of such entries is parsed into weights by name,
and names and patterns are resolved against a mapping into concrete fields.
Fields that are reached more than once multiply their weights.
-/

namespace TextSearch

/-- The weights of fields, by name. -/
abbrev FieldWeights (R : Type) := Dictionary R

namespace FieldWeights

/-- An entry cut at its first caret, if it has one. -/
def splitBoost (cs : List Char) : List Char × Option (List Char) :=
  match cs.dropWhile (· != '^') with
  | [] => (cs, none)
  | _ :: boost => (cs.takeWhile (· != '^'), some boost)

/-- The name and the boost of an entry; without a boost it is one. -/
def parseEntry (entry : String) : Except Fault (String × Single) :=
  let (name, boost) := splitBoost entry.toList
  let name := String.ofList name
  match boost with
  | none => .ok (name, .ofCount 1)
  | some boost =>
    let boost := String.ofList boost
    match Single.ofText? boost with
    | some b => .ok (name, b)
    | none => .error (.invalidBoost boost name)

variable {R : Type} [ScoreNumber R]

/-- Reach a field with a weight. -/
def reach (weights : FieldWeights R) (name : String) (weight : R) : FieldWeights R :=
  weights.alter name fun
    | some before => weight * before
    | none => weight

omit [ScoreNumber R] in
/-- The weights that entries give. -/
def parse (entries : List String) : Except Fault (FieldWeights Single) :=
  entries.foldlM (fun weights entry => do
    let (name, boost) ← parseEntry entry
    .ok (weights.reach name boost)) Dictionary.empty

omit [ScoreNumber R] in
/-- Whether the pattern of all names is among entries. -/
def hasMatchAll (entries : List String) : Bool := entries.any isMatchAllPattern

/-- How a name or pattern may be resolved. -/
structure Resolution where
  /-- Whether fields that cannot be searched are taken as well. -/
  allKinds : Bool
  /-- Whether metadata fields are taken as well. -/
  metadata : Bool
  /-- An ending; a field whose name with this ending is mapped gives way to that one. -/
  suffix : Option String

omit [ScoreNumber R] in
/-- The field that a matched name leads to, if it is taken. A name whose concrete field was
matched as well leads to that one. -/
def target? (m : Mapping) (r : Resolution) (matched : List String) (name : String) :
    Option String :=
  let name := match r.suffix with
    | some suffix => if m.isMapped (name ++ suffix) then name ++ suffix else name
    | none => name
  match m.field? name with
  | none => none
  | some f =>
    if !r.metadata && f.isMetadata then none
    else if !r.allKinds && f.kind.searchability == .unsearchable then none
    else if matched.contains f.name then some f.name
    else some name

/-- The fields that a name or pattern resolves to. -/
def resolveOne (m : Mapping) (nameOrPattern : String) (weight : R) (r : Resolution) :
    FieldWeights R :=
  let matched := m.matchingNames nameOrPattern
  matched.foldl (fun weights name =>
    match target? m r matched name with
    | some field => weights.alter field fun before => before.getD ScoreNumber.one * weight
    | none => weights) Dictionary.empty

omit [ScoreNumber R] in
/-- Exact names take every field, patterns take what can be searched, and the pattern of all
names leaves out metadata. -/
def resolution (nameOrPattern : String) (suffix : Option String) : Resolution :=
  { allKinds := !isFieldPattern nameOrPattern
    metadata := !isMatchAllPattern nameOrPattern
    suffix }

omit [ScoreNumber R] in
/-- Refuse more fields than clauses are allowed. -/
def checkCount (count : Nat) (limit : Nat) (pattern : Option String) : Except Fault Unit :=
  if limit < count then .error (.tooManyFields pattern limit count) else .ok ()

/-- The fields that entries resolve to, in the order given. -/
def merged (m : Mapping) (entries : List (String × R)) (suffix : Option String) :
    FieldWeights R :=
  entries.foldl (fun weights (name, weight) =>
    (resolveOne m name weight (resolution name suffix)).entries.foldl
      (fun weights (field, w) => weights.reach field w) weights) Dictionary.empty

/-- The fields that entries resolve to, unless there are too many of them. -/
def resolve (ctx : SearchContext) (entries : List (String × R)) (suffix : Option String) :
    Except Fault (FieldWeights R) := do
  let weights := merged ctx.mapping entries suffix
  checkCount weights.size ctx.settings.maxClauseCount none
  .ok weights

end FieldWeights

end TextSearch
