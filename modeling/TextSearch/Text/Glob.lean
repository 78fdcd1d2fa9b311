/-!
# Glob patterns

A glob is a list of pieces: a character that stands for itself, a piece that
stands for any one character, and a piece that stands for any run of characters.
Neither of the last two stands for a line feed. `Glob.Splits` says what it means
to match: the text falls into consecutive parts, one for every piece.
-/

namespace TextSearch

/-- An element of a glob pattern. -/
inductive GlobPiece where
  /-- The character itself. -/
  | literal (c : Char)
  /-- Any one character but a line feed. -/
  | anyOne
  /-- Any run of characters without a line feed. -/
  | anyRun
  deriving DecidableEq, Repr

namespace GlobPiece

/-- Whether a piece stands for runs of characters. -/
def isRun : GlobPiece → Bool
  | anyRun => true
  | _ => false

/-- Whether a piece may stand for a character, or for a run with the character in it. -/
def admits : GlobPiece → Char → Bool
  | literal d, c => d == c
  | _, c => c != '\n'

end GlobPiece

/-- A glob pattern. -/
abbrev Glob := List GlobPiece

namespace Glob

/-- The pieces of a wildcard pattern: `*` stands for any run, `?` for any one character, and a
backslash makes the next character stand for itself, or stands for itself at the end. -/
def ofWildcard : List Char → Glob
  | [] => []
  | '\\' :: c :: rest => .literal c :: ofWildcard rest
  | '*' :: rest => .anyRun :: ofWildcard rest
  | '?' :: rest => .anyOne :: ofWildcard rest
  | c :: rest => .literal c :: ofWildcard rest

/-- The pieces of a field pattern: `*` stands for any run and all else for itself. -/
def ofFieldPattern (cs : List Char) : Glob :=
  cs.map fun c => if c = '*' then .anyRun else .literal c

/-- The column of a glob that begins with a piece, given the column of the glob without it. -/
def columnWith (p : GlobPiece) : List Char → List Bool → List Bool
  | [], column => [p.isRun && column.headD false]
  | c :: cs, column =>
    let rest := columnWith p cs column.tail
    let here :=
      if p.isRun then column.headD false || (p.admits c && rest.headD false)
      else p.admits c && column.tail.headD false
    here :: rest

/-- The column of a glob over a text says of every end part of the text, the longest first,
whether it matches. Each answer is found from answers on shorter parts, and none is looked for
twice. -/
def column : Glob → List Char → List Bool
  | [], cs => cs.map (fun _ => false) ++ [true]
  | p :: ps, cs => columnWith p cs (column ps cs)

/-- Whether a whole text matches. -/
def accepts (g : Glob) (cs : List Char) : Bool := (g.column cs).headD false

theorem tail_column (g : Glob) (c : Char) (cs : List Char) :
    (g.column (c :: cs)).tail = g.column cs := by
  induction g with
  | nil => rfl
  | cons p ps ih => rw [column, columnWith, List.tail_cons, ih, column]

@[simp] theorem accepts_nil (cs : List Char) : accepts [] cs = cs.isEmpty := by
  cases cs <;> rfl

@[simp] theorem accepts_cons_nil (p : GlobPiece) (ps : Glob) :
    accepts (p :: ps) [] = (p.isRun && accepts ps []) := rfl

/-- A run ends in front of the first character or goes on over it; any other piece stands for it. -/
@[simp] theorem accepts_cons_cons (p : GlobPiece) (ps : Glob) (c : Char) (cs : List Char) :
    accepts (p :: ps) (c :: cs) =
      if p.isRun then accepts ps (c :: cs) || (p.admits c && accepts (p :: ps) cs)
      else p.admits c && accepts ps cs := by
  simp only [accepts, column, columnWith, tail_column, List.headD_cons]

/-- The parts of a text that a piece stands for. -/
def Part : GlobPiece → List Char → Prop
  | .literal c, part => part = [c]
  | .anyOne, part => ∃ c, c ≠ '\n' ∧ part = [c]
  | .anyRun, part => '\n' ∉ part

/-- A text falls into consecutive parts, one for every piece. -/
inductive Splits : Glob → List Char → Prop
  | nil : Splits [] []
  | cons {p : GlobPiece} {ps : Glob} {part rest : List Char} :
    Part p part → Splits ps rest → Splits (p :: ps) (part ++ rest)

end Glob

end TextSearch
