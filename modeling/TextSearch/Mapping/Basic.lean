import TextSearch.Dictionary
import TextSearch.Settings
import TextSearch.Text.Glob

/-!
# Mappings

A mapping says which fields there are and of what kind, and gives some of them
further names. An alias is a name for a concrete field; in a valid mapping it is
the name of no concrete field itself. A field pattern is a name in which `*`
stands for any run of characters.
-/

namespace TextSearch

/-- The kind of a field. -/
inductive FieldKind where
  /-- Analysed text. -/
  | text
  /-- A single value. -/
  | keyword
  /-- An integer. -/
  | long
  /-- A real number. -/
  | double
  /-- A truth value. -/
  | boolean
  /-- Opaque bytes. -/
  | binary
  deriving DecidableEq, Repr, Inhabited

/-- How a field can be searched. -/
inductive Searchability where
  /-- Not at all. -/
  | unsearchable
  /-- By whole values. -/
  | untokenized
  /-- Token by token, with positions. -/
  | tokenized
  deriving DecidableEq, Repr

namespace FieldKind

/-- The name of a kind. -/
def name : FieldKind → String
  | text => "text"
  | keyword => "keyword"
  | long => "long"
  | double => "double"
  | boolean => "boolean"
  | binary => "binary"

/-- The kind with a name. -/
def ofName? (s : String) : Option FieldKind :=
  [text, keyword, long, double, boolean, binary].find? fun k => k.name == s

/-- How fields of a kind can be searched. -/
def searchability : FieldKind → Searchability
  | text => .tokenized
  | binary => .unsearchable
  | _ => .untokenized

/-- The kind that a value gives: its name, alone or as the key of null. -/
def ofValue? : Json.Value → Option FieldKind
  | .text (some s) => ofName? s
  | .record [(some s, .null)] => ofName? s
  | _ => none

end FieldKind

/-- A concrete field. -/
structure MappedField where
  /-- The name of the field. -/
  name : String
  /-- The kind of the field. -/
  kind : FieldKind
  deriving DecidableEq, Repr

namespace MappedField

/-- Metadata fields have a name that starts with an underscore. -/
def isMetadata (f : MappedField) : Bool := f.name.toList.head? == some '_'

end MappedField

/-- The fields and their further names. -/
structure Mapping where
  /-- The kinds of the concrete fields. -/
  fields : Dictionary FieldKind
  /-- The concrete fields that aliases stand for. -/
  aliases : Dictionary String
  deriving Inhabited

/-- Whether a name is the pattern of all names. -/
def isMatchAllPattern (name : String) : Bool := name == "*"

/-- Whether a name is a pattern. -/
def isFieldPattern (name : String) : Bool := name.toList.contains '*'

/-- Names in ascending order, each once. -/
def sortedNames (names : List String) : List String :=
  (names.foldl (fun d n => d.insert n ()) (Dictionary.empty : Dictionary Unit)).keys

namespace Mapping

/-- The mapping without fields. -/
def empty : Mapping := ⟨.empty, .empty⟩

/-- Add a concrete field. -/
def withField (m : Mapping) (name : String) (kind : FieldKind) : Mapping :=
  { m with fields := m.fields.insert name kind }

/-- Add an alias. -/
def withAlias (m : Mapping) (name target : String) : Mapping :=
  { m with aliases := m.aliases.insert name target }

/-- What is wrong with an alias, if anything. -/
def aliasFault? (m : Mapping) (name target : String) : Option Fault :=
  if m.fields.contains name then some (.aliasShadowsField name)
  else if m.fields.contains target then none
  else some (.aliasTargetUnmapped name target)

/-- Check that aliases stand for concrete fields and are none themselves; the first alias in
order that fails is reported. -/
def validate (m : Mapping) : Except Fault Unit :=
  match m.aliases.entries.findSome? fun a => m.aliasFault? a.1 a.2 with
  | some f => .error f
  | none => .ok ()

/-- The concrete field of a name or alias. -/
def field? (m : Mapping) (name : String) : Option MappedField :=
  let concrete := (m.aliases.get? name).getD name
  (m.fields.get? concrete).map fun kind => ⟨concrete, kind⟩

/-- Whether a name is a concrete field or an alias. -/
def isMapped (m : Mapping) (name : String) : Bool :=
  m.fields.contains name || m.aliases.contains name

/-- Whether a name stands for a tokenized field. -/
def isTokenized (m : Mapping) (name : String) : Bool :=
  (m.field? name).any fun f => f.kind.searchability == .tokenized

/-- The names, in order, that a name or pattern matches. A name that is no pattern matches
itself alone. -/
def matchingNames (m : Mapping) (pattern : String) : List String :=
  if isFieldPattern pattern then
    let glob := Glob.ofFieldPattern pattern.toList
    sortedNames ((m.fields.keys ++ m.aliases.keys).filter fun n => glob.accepts n.toList)
  else if m.isMapped pattern then [pattern]
  else []

/-- The entries of a record as a dictionary. -/
def readEntries? {β : Type} (read : Json.Value → Option β) (v : Json.Value) :
    Option (Dictionary β) := do
  let entries ← (← v.toMembers?).mapM fun (k, v) => (read v).map fun b => (k, b)
  some (.ofList entries)

/-- The mapping that a value gives. -/
def ofValue? (v : Json.Value) : Option Mapping := do
  match ← v.toFields? ["fields", "aliases"] with
  | [fields, aliases] =>
    some
      { fields := ← Json.fieldOr .empty (readEntries? FieldKind.ofValue?) fields
        aliases := ← Json.fieldOr .empty (readEntries? Json.Value.toText?) aliases }
  | _ => none

/-- The valid mapping that a JSON text gives. -/
def ofJson (text : String) : Except Fault Mapping := do
  match (Json.read? text).bind ofValue? with
  | some m =>
    m.validate
    .ok m
  | none => .error .malformedJson

end Mapping

/-- What traversals and searches may look up: the mapping and the settings. -/
structure SearchContext where
  /-- The fields. -/
  mapping : Mapping
  /-- The limits. -/
  settings : Settings
  deriving Inhabited

end TextSearch
