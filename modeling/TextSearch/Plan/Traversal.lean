import TextSearch.Query.Change

/-!
# Traversals

A traversal applies the rules of a plan to a query. The first rule that accepts
a node changes it, and the result goes to the first accepting rule other than
the one that made it, until no rule accepts or the rule leaves the node as it
is. A node that goes through more passes than the settings allow is a fault. The
rules work on single nodes; what is inside of boosts and boolean combinations is
reached when no rule accepts these themselves, and inside of boosts also by the
rule made for them.
-/

namespace TextSearch

namespace Rule

/-- Whether a rule is responsible for a node. -/
def accepts (r : Rule) (q : Query) : Bool :=
  match r with
  | throughBoost =>
    match q with
    | .boost .. => true
    | _ => false
  | exactTerm =>
    match q with
    | .term _ => true
    | .markedTerm .. => true
    | _ => false
  | exactMarkedTerm _ =>
    match q with
    | .markedTerm .. => true
    | _ => false
  | exactMultiTerm =>
    match q with
    | .multiTerm m => !m.isRange && m.least.isNone
    | _ => false
  | exactFrequentMultiTerm =>
    match q with
    | .multiTerm m => m.least.isSome
    | _ => false
  | exactFrequentTerm =>
    match q with
    | .frequentTerm .. => true
    | _ => false
  | markTerm _ =>
    match q with
    | .term _ => true
    | _ => false
  | requireFrequency _ =>
    match q with
    | .term _ => true
    | _ => false
  | deferRange =>
    match q with
    | .multiTerm m => m.isRange
    | _ => false
  | replaceText source _ =>
    match q with
    | .term t => t.text == source
    | _ => false

end Rule

namespace Plan

/-- Whether the plan's mapping has text in a field. -/
def isTokenized (p : Plan) (field : String) : Bool := p.context.mapping.isTokenized field

/-- The places of a term without payloads: its exact form. -/
def exactPlaces (t : Term) : Query := .withoutPayload (.spanTerm t)

/-- The places of the selected terms without payloads. -/
def exactMultiPlaces (m : MultiTerm) : Query := .withoutPayload (.spanMultiTerm m)

/-- The exact form of a query for a term, or the query with its boosted exact form beside it
when that is asked for and the term does not come from a phrase. -/
def exactForm (p : Plan) (q : Query) (t : Term) (fromPhrase : Bool) : Query :=
  match p.options.boostExactTokens with
  | none => exactPlaces t
  | some factor =>
    if fromPhrase then exactPlaces t
    else .boolean [(.should, q), (.should, .boost (exactPlaces t) factor)]

/-- What a rule makes of a node without looking inside. -/
def changeNode (p : Plan) (r : Rule) (q : Query) : Option Query :=
  match r with
  | .throughBoost => none
  | .exactTerm =>
    match q with
    | .term t => if p.isTokenized t.field then some (p.exactForm q t false) else none
    | .markedTerm t mark =>
      if p.isTokenized t.field then some (p.exactForm q t (mark.same .phrase)) else none
    | _ => none
  | .markTerm mark =>
    match q with
    | .term t => if p.isTokenized t.field then some (.markedTerm t mark) else none
    | _ => none
  | .exactMarkedTerm mark =>
    match q with
    | .markedTerm t mark' =>
      if mark'.same mark && p.isTokenized t.field then some (exactPlaces t) else none
    | _ => none
  | .exactMultiTerm =>
    match q with
    | .multiTerm m => if p.isTokenized m.field then some (exactMultiPlaces m) else none
    | _ => none
  | .exactFrequentMultiTerm =>
    match q with
    | .multiTerm m =>
      match m.least with
      | some least =>
        if p.isTokenized m.field then
          some (.frequentSpan (exactMultiPlaces m.withoutMinimum) least)
        else none
      | none => none
    | _ => none
  | .exactFrequentTerm =>
    match q with
    | .frequentTerm t least _ =>
      if p.isTokenized t.field then some (.frequentSpan (exactPlaces t) least) else none
    | _ => none
  | .requireFrequency least =>
    match q with
    | .term t =>
      some (if p.isTokenized t.field then .frequentSpan (exactPlaces t) least
        else .frequentTerm t least none)
    | _ => none
  | .deferRange => some (.deferred q p)
  | .replaceText _ target =>
    match q with
    | .term t => some (.term { t with text := target })
    | _ => none

/-- What a rule makes of a node, where `inner` traverses what is inside. -/
def apply (p : Plan) (inner : Query → Except Fault (Option Query)) (r : Rule) (q : Query) :
    Except Fault (Option Query) :=
  match r with
  | .throughBoost =>
    match q with
    | .boost q' factor => Option.map (Query.boost · factor) <$> inner q'
    | _ => .ok none
  | r => .ok (p.changeNode r q)

/-- The first rule that accepts a node, and its place in the chain. The rule at the place
`passed` is passed over. -/
def find? (p : Plan) (passed : Option Nat) (q : Query) : Option (Nat × Rule) :=
  (p.chain.zipIdx.find? fun (r, i) => passed != some i && r.accepts q).map fun (r, i) => (i, r)

/-- Hand a node from rule to rule. The passes are counted down; `given` is the node that the
first rule was given. -/
def hand (p : Plan) (inner : Query → Except Fault (Option Query)) (given : Query) :
    Nat → Nat × Rule → Query → Except Fault (Option Query)
  | 0, _, _ => .error (.traversalDiverged given.display p.context.settings.maxPasses)
  | passes + 1, (i, r), q => do
    match ← p.apply inner r q with
    | none => pure none
    | some next =>
      match p.find? (some i) next with
      | none => pure (some next)
      | some found => pure (some ((← p.hand inner given passes found next).getD next))

/-- Traverse a query down to a depth. What lies deeper is left as it is. -/
def traverseTo (p : Plan) : Nat → Query → Except Fault (Option Query)
  | 0, _ => .ok none
  | depth + 1, q =>
    match p.find? none q with
    | some found =>
      p.hand (p.traverseTo depth) q p.context.settings.maxPasses found q
    | none =>
      match q with
      | .boost q' factor => Option.map (Query.boost · factor) <$> p.traverseTo depth q'
      | .boolean clauses =>
        Option.map Query.boolean <$> changeAll (changeClause (p.traverseTo depth)) clauses
      | _ => .ok none

/-- A depth that no traversal of a query gets to. Only leaves grow, by one level each time one
is reached, and a boost around a leaf has it reached once per pass. -/
def depthFor (p : Plan) (q : Query) : Nat :=
  q.height + Nat.pow (p.context.settings.maxPasses + 1) q.height + 3

/-- Traverse a query. The answer is nothing when the query is left as it is. -/
def traverse (p : Plan) (q : Query) : Except Fault (Option Query) :=
  p.traverseTo (p.depthFor q) q

/-- The query that a traversal ends with. -/
def traversed (p : Plan) (q : Query) : Except Fault Query := (·.getD q) <$> p.traverse q

end Plan

end TextSearch
