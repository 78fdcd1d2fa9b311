import TextSearch.Score.Number

/-!
# Explanations

An explanation is a tree that tells how the score of a document came about:
every node says whether it matched, what it contributed and why, and its
details explain the numbers it was computed from.
-/

namespace TextSearch

/-- How the score of a document was computed. -/
inductive Explanation (R : Type) where
  | node (isMatch : Bool) (value : R) (description : String) (details : List (Explanation R))

namespace Explanation

variable {R : Type}

/-- A node that matched, with the given details. -/
def matched (value : R) (description : String) (details : List (Explanation R)) :
    Explanation R :=
  node true value description details

/-- A node that did not match contributes zero. -/
def noMatch [ScoreNumber R] (description : String) (details : List (Explanation R)) :
    Explanation R :=
  node false ScoreNumber.zero description details

/-- Whether the document matched. -/
def isMatch : Explanation R → Bool
  | node m _ _ _ => m

/-- The contribution of a node. -/
def value : Explanation R → R
  | node _ v _ _ => v

/-- The reason a node gives. -/
def description : Explanation R → String
  | node _ _ d _ => d

/-- The nodes below a node. -/
def details : Explanation R → List (Explanation R)
  | node _ _ _ ds => ds

@[simp] theorem isMatch_matched (v : R) (d : String) (ds : List (Explanation R)) :
    (matched v d ds).isMatch = true := rfl

@[simp] theorem value_matched (v : R) (d : String) (ds : List (Explanation R)) :
    (matched v d ds).value = v := rfl

@[simp] theorem isMatch_noMatch [ScoreNumber R] (d : String) (ds : List (Explanation R)) :
    (noMatch d ds).isMatch = false := rfl

@[simp] theorem value_noMatch [ScoreNumber R] (d : String) (ds : List (Explanation R)) :
    (noMatch d ds).value = ScoreNumber.zero := rfl

mutual

/-- The lines of a tree, two blanks further in at every level. -/
def lines [ScoreNumber R] (depth : Nat) : Explanation R → String
  | node _ v d ds =>
    String.ofList (List.replicate (2 * depth) ' ') ++ ScoreNumber.text v ++ " = " ++ d ++ "\n" ++
      listLines (depth + 1) ds

/-- The lines of several trees, one after the other. -/
def listLines [ScoreNumber R] (depth : Nat) : List (Explanation R) → String
  | [] => ""
  | e :: rest => lines depth e ++ listLines depth rest

end

/-- The written form of a tree. -/
def display [ScoreNumber R] (e : Explanation R) : String := e.lines 0

end Explanation

end TextSearch
