import TextSearch.Json.Reader
import TextSearch.Mark
import TextSearch.Threshold

/-!
# Rules and chains

A chain is a list of rules that change single nodes of a query, in the order in
which they are tried. Chains can be configured as JSON. There a rule is a type
name with at most one field, given as a record with the type name under `type`,
or as a list that starts with the type name; marks are referred to by name.
-/

namespace TextSearch

/-- A rule for the nodes of a query. -/
inductive Rule where
  /-- Traverse what a boost is put on. -/
  | throughBoost
  /-- Make terms exact. -/
  | exactTerm
  /-- Mark terms. -/
  | markTerm (mark : Mark)
  /-- Make terms exact that carry a mark. -/
  | exactMarkedTerm (mark : Mark)
  /-- Make prefixes and wildcards exact. -/
  | exactMultiTerm
  /-- Make multi-term queries exact that ask for a minimum frequency. -/
  | exactFrequentMultiTerm
  /-- Make terms exact that ask for a minimum frequency. -/
  | exactFrequentTerm
  /-- Ask for a minimum frequency of every term. -/
  | requireFrequency (least : Threshold)
  /-- Put off the traversal of ranges until they are expanded. -/
  | deferRange
  /-- Replace the text of a term by another. -/
  | replaceText (source target : String)
  deriving DecidableEq, Repr

/-- The rules of a traversal, in the order in which they are tried. -/
abbrev Chain := List Rule

/-- A rule as it is configured. -/
inductive RuleSpec where
  | throughBoost
  | exactTerm
  | markTerm (mark : String)
  | exactMarkedTerm (mark : String)
  | exactMultiTerm
  | exactFrequentMultiTerm
  | exactFrequentTerm
  | requireFrequency (least : Nat)
  | deferRange
  deriving DecidableEq, Repr

namespace RuleSpec

/-- The type name of a rule. -/
def typeName : RuleSpec → String
  | throughBoost => "clone_on_change_boost"
  | exactTerm => "exact_term"
  | markTerm _ => "mark_term"
  | exactMarkedTerm _ => "exact_marked_term"
  | exactMultiTerm => "exact_multi_term"
  | exactFrequentMultiTerm => "exact_min_frequency_prefix"
  | exactFrequentTerm => "exact_min_frequency_term"
  | requireFrequency _ => "transform_term_to_min_frequency"
  | deferRange => "lazy_range"

/-- The rules without a field. -/
def plain : List RuleSpec :=
  [throughBoost, exactTerm, exactMultiTerm, exactFrequentMultiTerm, exactFrequentTerm, deferRange]

/-- What a type name stands for: a rule without a field, or the name of the one field and the
rule that its value makes. -/
inductive Shape where
  | bare (rule : RuleSpec)
  | withField (name : String) (make : Json.Value → Option RuleSpec)

/-- The rule types that have a field. -/
def fielded : List (String × Shape) :=
  [("mark_term", .withField "context" fun v => v.toText?.map markTerm),
    ("exact_marked_term", .withField "context" fun v => v.toText?.map exactMarkedTerm),
    ("transform_term_to_min_frequency",
      .withField "min_frequency" fun v => (v.toNat? 0x100000000).map requireFrequency)]

/-- The shape of the rules of a type. -/
def shape? (typeName : String) : Option Shape :=
  match plain.find? fun r => r.typeName == typeName with
  | some r => some (.bare r)
  | none => fielded.lookup typeName

/-- A rule stands inside the list of rules inside the chain, and texts with more than 127 lists
and records around a value are refused. -/
def depthLimit : Nat := 125

/-- The value of a member that occurs exactly once. -/
def soleMember? (name : String) (members : List (String × Json.Value)) : Option Json.Value :=
  match members.filter fun m => m.1 == name with
  | [m] => some m.2
  | _ => none

/-- The rule that a value gives. All of the value has to be sound, what is ignored included. -/
def ofValue? (v : Json.Value) : Option RuleSpec :=
  if v.isSound && decide (v.depth ≤ depthLimit) then
    match v with
    | .list (tag :: fields) => do
      match ← shape? (← tag.toText?), fields with
      | .bare r, [] => some r
      | .withField _ make, [v] => make v
      | _, _ => none
    | _ => do
      let members ← v.toMembers?
      match ← shape? (← (← soleMember? "type" members).toText?) with
      | .bare r => some r
      | .withField name make => make (← soleMember? name members)
  else none

/-- Look up the marks of a configured rule and check its threshold. -/
def build (registry : MarkRegistry) : RuleSpec → Except Fault Rule
  | throughBoost => .ok .throughBoost
  | exactTerm => .ok .exactTerm
  | markTerm name => .markTerm <$> registry.resolve name
  | exactMarkedTerm name => .exactMarkedTerm <$> registry.resolve name
  | exactMultiTerm => .ok .exactMultiTerm
  | exactFrequentMultiTerm => .ok .exactFrequentMultiTerm
  | exactFrequentTerm => .ok .exactFrequentTerm
  | requireFrequency least =>
    match Threshold.ofNat least with
    | .ok t => .ok (.requireFrequency t)
    | .error _ => .error .zeroThresholdInChain
  | deferRange => .ok .deferRange

end RuleSpec

/-- A chain as it is configured. -/
abbrev ChainSpec := List RuleSpec

namespace ChainSpec

/-- The rules that a value gives. -/
def ofValue? (v : Json.Value) : Option ChainSpec := do
  match ← v.toFields? ["handlers"] with
  | [rules] =>
    Json.fieldOr [] (fun v => do (← v.toList?).mapM RuleSpec.ofValue?) rules
  | _ => none

/-- The chain that a JSON text gives. -/
def ofJson (text : String) : Except Fault ChainSpec :=
  match (Json.read? text).bind ofValue? with
  | some c => .ok c
  | none => .error .malformedChain

/-- Build every rule in order; the first one that fails is reported. -/
def build (registry : MarkRegistry) (c : ChainSpec) : Except Fault Chain :=
  c.mapM (RuleSpec.build registry)

end ChainSpec

end TextSearch
