import TextSearch.Fault

/-!
# Marks

A mark tags the terms that went through a pass, so that a later pass can tell
them apart. Marks are compared by identity: two marks made with the same label
are different. A registry gives marks names, so that configured rules can refer
to them.
-/

namespace TextSearch

/-- A tag with an identity of its own. -/
structure Mark where
  /-- The identity. -/
  id : Nat
  /-- The label that the mark is shown by. -/
  label : String
  deriving DecidableEq, Repr, Inhabited

namespace Mark

/-- Whether two marks are the same one. -/
def same (a b : Mark) : Bool := a.id == b.id

/-- The mark of terms that come from a phrase. -/
def phrase : Mark := ⟨0, "phrase"⟩

end Mark

/-- Marks by name. -/
structure MarkRegistry where
  /-- The registered marks, the latest first. -/
  named : List (String × Mark)
  /-- The identity of the next new mark. -/
  nextId : Nat
  deriving DecidableEq, Repr

namespace MarkRegistry

/-- The phrase mark is always registered. -/
def start : MarkRegistry := ⟨[("phrase", .phrase)], 1⟩

instance : Inhabited MarkRegistry := ⟨start⟩

/-- The mark registered under a name. -/
def get? (r : MarkRegistry) (name : String) : Option Mark := r.named.lookup name

/-- A new mark, registered under no name. -/
def fresh (r : MarkRegistry) (label : String) : Mark × MarkRegistry :=
  (⟨r.nextId, label⟩, { r with nextId := r.nextId + 1 })

/-- The mark registered under a name, or else a new one. -/
def register (r : MarkRegistry) (name : String) : Mark × MarkRegistry :=
  match r.get? name with
  | some m => (m, r)
  | none =>
    let (m, r) := r.fresh name
    (m, { r with named := (name, m) :: r.named })

/-- The mark that a configured rule refers to. -/
def resolve (r : MarkRegistry) (name : String) : Except Fault Mark :=
  match r.get? name with
  | some m => .ok m
  | none => .error (.unknownMark name)

end MarkRegistry

end TextSearch
