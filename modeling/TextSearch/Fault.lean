import TextSearch.Term

/-!
# Failures

Every operation that can fail answers with a `Fault`, which names the cause and
carries what the cause is about. The class a fault belongs to and its wording
are functions of the cause: `Fault.kind` and `Fault.display`.
-/

namespace TextSearch

/-- The class under which a failure is reported. -/
inductive FaultKind where
  | configuration
  | indexingMismatch
  | invariantViolation
  | query
  | invalidArgument
  | invalidOperation
  | io
  | json
  | other
  deriving DecidableEq, Repr, Inhabited

/-- The words that introduce every failure of a class. -/
def FaultKind.heading : FaultKind → String
  | .configuration => "Configuration error: "
  | .indexingMismatch => "Indexing mismatch: "
  | .invariantViolation => "Invariant violation: "
  | .query => "Query error: "
  | .invalidArgument => "Invalid argument: "
  | .invalidOperation => "Invalid operation: "
  | .io => "I/O error: "
  | .json => "JSON error: "
  | .other => "Error: "

/-- The cause of a failure. Queries and patterns are carried in their written form. -/
inductive Fault where
  /-- A minimum frequency of zero was asked for. -/
  | zeroThreshold
  /-- A rule of a chain names a mark that is not registered. -/
  | unknownMark (name : String)
  /-- A rule of a chain was configured with a minimum frequency of zero. -/
  | zeroThresholdInChain
  /-- A chain configuration is not well formed. -/
  | malformedChain
  /-- A JSON text is not well formed, or not of the expected shape. -/
  | malformedJson
  /-- An alias has the name of a concrete field. -/
  | aliasShadowsField (name : String)
  /-- An alias stands for a name that is no concrete field. -/
  | aliasTargetUnmapped (name target : String)
  /-- The boost written after a field name is not a number. -/
  | invalidBoost (boost field : String)
  /-- A field pattern reached more fields than clauses are allowed. -/
  | tooManyFields (pattern : Option String) (limit got : Nat)
  /-- A multi-term query selected more terms than clauses are allowed. -/
  | tooManyTerms (query : String) (got limit : Nat)
  /-- An operand of a span query is not a span query. -/
  | operandNotSpan (query : String)
  /-- A clause of a span query is on another field than its siblings. -/
  | operandOffField (field query : String)
  /-- A proximity query has no clause. -/
  | emptyProximity
  /-- A span weight was asked of a query that has no spans. -/
  | notSpan (query : String)
  /-- A weight was asked of a query that still has to be expanded. -/
  | notGrounded (query : String)
  /-- Grounding was still changing the query after the last pass. -/
  | groundingDiverged (query : String) (passes : Nat)
  /-- The rules of a chain were still changing a query after the last pass. -/
  | traversalDiverged (query : String) (passes : Nat)
  /-- A document names a field that was not declared. -/
  | undeclaredField (field : String)
  /-- No document has this global id. -/
  | missingDocument (doc : Nat)
  /-- A segment holds no postings for the field. -/
  | fieldNotIndexed (field : String)
  /-- A dictionary entry points outside the dictionary of its field. -/
  | staleEntry (term : Term)
  /-- Dictionary entries were used against another snapshot than their own. -/
  | foreignEntries (term : Term)
  /-- Positions were asked of postings that were opened without them. -/
  | positionsNotRequested
  /-- Positions were asked of a field that does not store them. -/
  | positionsNotIndexed (term : Term)
  /-- A span query ran on a field that does not store positions. -/
  | spansNotIndexed (term : Term)
  /-- A loop was not at its end after all steps that were counted out for it. -/
  | outOfSteps
  /-- A failure that a caller reports in its own words. -/
  | reported (kind : FaultKind) (message : String)
  deriving DecidableEq, Repr, Inhabited

namespace Fault

/-- The class of a cause. -/
def kind : Fault → FaultKind
  | zeroThreshold => .invalidArgument
  | unknownMark _ => .configuration
  | zeroThresholdInChain => .configuration
  | malformedChain => .configuration
  | malformedJson => .json
  | aliasShadowsField _ => .configuration
  | aliasTargetUnmapped _ _ => .configuration
  | invalidBoost _ _ => .query
  | tooManyFields _ _ _ => .configuration
  | tooManyTerms _ _ _ => .configuration
  | operandNotSpan _ => .invalidArgument
  | operandOffField _ _ => .invalidArgument
  | emptyProximity => .invalidArgument
  | notSpan _ => .invalidArgument
  | notGrounded _ => .invariantViolation
  | groundingDiverged _ _ => .invariantViolation
  | traversalDiverged _ _ => .invariantViolation
  | undeclaredField _ => .invalidArgument
  | missingDocument _ => .invalidArgument
  | fieldNotIndexed _ => .invalidOperation
  | staleEntry _ => .invariantViolation
  | foreignEntries _ => .invariantViolation
  | positionsNotRequested => .invalidOperation
  | positionsNotIndexed _ => .indexingMismatch
  | spansNotIndexed _ => .indexingMismatch
  | outOfSteps => .invariantViolation
  | reported k _ => k

/-- What a cause says, without the words of its class. -/
def detail : Fault → String
  | zeroThreshold => "minimum frequency must be at least 1"
  | unknownMark name => "unknown mark context [" ++ name ++ "]"
  | zeroThresholdInChain =>
    FaultKind.invalidArgument.heading ++ "minimum frequency must be at least 1"
  | malformedChain => "invalid handler chain: "
  | malformedJson => ""
  | aliasShadowsField name => "alias [" ++ name ++ "] shadows a concrete field"
  | aliasTargetUnmapped name target =>
    "alias [" ++ name ++ "] points to unmapped field [" ++ target ++ "]"
  | invalidBoost boost field => "invalid boost [" ++ boost ++ "] for field [" ++ field ++ "]"
  | tooManyFields pattern limit got =>
    "field expansion " ++ (pattern.elim "" fun p => "for [" ++ p ++ "] ") ++
      s!"matches too many fields, limit: {limit}, got: {got}"
  | tooManyTerms query got limit =>
    "query [" ++ query ++ s!"] expanded to {got} terms, more than maxClauseCount {limit}"
  | operandNotSpan query => "span operand must be a span query, got [" ++ query ++ "]"
  | operandOffField field query =>
    "span clauses must all be on field [" ++ field ++ "], got [" ++ query ++ "]"
  | emptyProximity => "span near query needs at least one clause"
  | notSpan query => "[" ++ query ++ "] is not a span query"
  | notGrounded query =>
    "query [" ++ query ++ "] must be rewritten before a weight is created"
  | groundingDiverged query passes =>
    "rewrite of [" ++ query ++ s!"] did not converge after {passes} passes"
  | traversalDiverged query passes =>
    "traversal of [" ++ query ++ s!"] did not converge after {passes} passes"
  | undeclaredField field => "field \"" ++ field ++ "\" is not declared"
  | missingDocument doc => s!"document {doc} does not exist"
  | fieldNotIndexed field => "field \"" ++ field ++ "\" is not indexed"
  | staleEntry term => "stale term state for " ++ term.display
  | foreignEntries term =>
    "term states for " ++ term.display ++ " were not built for snapshot <snapshot>"
  | positionsNotRequested => "positions were not requested for this postings cursor"
  | positionsNotIndexed term =>
    "field \"" ++ term.field ++ "\" was indexed without position data (term=" ++ term.text ++ ")"
  | spansNotIndexed term =>
    "field \"" ++ term.field ++
      "\" was indexed without position data; cannot run SpanTermQuery (term=" ++ term.text ++ ")"
  | outOfSteps => "loop did not end"
  | reported _ message => message

/-- A fault is written as the words of its class followed by what its cause says. -/
def display (f : Fault) : String := f.kind.heading ++ f.detail

/-- Whether the caller's configuration is to blame. -/
def isConfiguration (f : Fault) : Bool := f.kind == .configuration

end Fault

end TextSearch
