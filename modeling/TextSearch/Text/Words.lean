import TextSearch.Text.WordBreak

/-!
# Words

A text falls into pieces at the word boundaries of the Unicode standard, and the
pieces with a letter or a number in them are its words. A piece is read from its
first character on, one character at a time; the `Reading` says what has been
read. Marks such as an apostrophe join a word only if what follows them does,
so they are held back until that is known.
-/

namespace TextSearch.Text

/-- What was read last of a piece. -/
inductive Reading where
  | letter
  | hebrew
  | numeric
  | katakana
  | connector
  | space
  /-- The first half of a flag. -/
  | halfFlag
  /-- A whole flag. -/
  | flag
  /-- A joiner that nothing came before. -/
  | joiner
  /-- A picture that was joined to something before it. -/
  | picture
  /-- A character that joins nothing. -/
  | alone
  /-- A Hebrew letter and a single quote, which belongs to it in any case. -/
  | quotedHebrew
  /-- A mark that needs a letter after it. -/
  | beforeLetter
  /-- A mark that needs a Hebrew letter after it. -/
  | beforeHebrew
  /-- A mark that needs a digit after it. -/
  | beforeNumeric
  deriving DecidableEq, Repr

namespace Reading

/-- Whether the last mark and all that followed it were held back. -/
def isHeld : Reading → Bool
  | beforeLetter => true
  | beforeHebrew => true
  | beforeNumeric => true
  | _ => false

/-- What is read by a character that may follow a letter, a digit or a connector directly. -/
def wordPart? : WordBreak → Option Reading
  | .letter => some letter
  | .hebrew => some hebrew
  | .numeric => some numeric
  | .connector => some connector
  | _ => none

/-- What is read when a character of a class goes on with a piece, or none at a boundary.
`apart` says that extending marks stand in between somewhere in the piece. -/
def advance (apart : Bool) : Reading → WordBreak → Option Reading
  | letter, b =>
    match b with
    | .midLetter => some beforeLetter
    | .midBoth => some beforeLetter
    | .singleQuote => some beforeLetter
    | b => wordPart? b
  | hebrew, b =>
    match b with
    | .doubleQuote => some beforeHebrew
    | .singleQuote => some quotedHebrew
    | .midLetter => some beforeLetter
    | .midBoth => some beforeLetter
    | b => wordPart? b
  | numeric, b =>
    match b with
    | .midNumber => some beforeNumeric
    | .midBoth => some beforeNumeric
    | .singleQuote => some beforeNumeric
    | b => wordPart? b
  | katakana, b =>
    match b with
    | .katakana => some katakana
    | .connector => some connector
    | _ => none
  | connector, b =>
    match b with
    | .katakana => some katakana
    | b => wordPart? b
  | space, b => if b = .space ∧ apart = false then some space else none
  | halfFlag, b => if b = .regional then some flag else none
  | beforeLetter, b =>
    match b with
    | .letter => some letter
    | .hebrew => some hebrew
    | _ => none
  | quotedHebrew, b =>
    match b with
    | .letter => some letter
    | .hebrew => some hebrew
    | _ => none
  | beforeHebrew, b => if b = .hebrew then some hebrew else none
  | beforeNumeric, b => if b = .numeric then some numeric else none
  | _, _ => none

/-- What is read by the first character of a piece. -/
def start : WordBreak → Reading
  | .letter => letter
  | .hebrew => hebrew
  | .numeric => numeric
  | .katakana => katakana
  | .connector => connector
  | .regional => halfFlag
  | .joiner => joiner
  | .space => space
  | _ => alone

end Reading

/-- Whether a class stays with the character before it, whatever that is. -/
def WordBreak.stays : WordBreak → Bool
  | .extending => true
  | .format => true
  | .joiner => true
  | _ => false

/-- How many more characters belong to a piece. `held` is the number of characters held back,
`joined` says that the last character was a joiner, and `apart` that some character stayed with
the one before it. -/
def reach (held : Nat) (joined apart : Bool) : Reading → List Char → Nat
  | _, [] => 0
  | r, c :: rest =>
    let b := WordBreak.ofChar c
    let step (r' : Reading) (joined apart : Bool) : Nat :=
      if r'.isHeld then reach (held + 1) joined apart r' rest
      else held + 1 + reach 0 joined apart r' rest
    if b.stays then step r (b = .joiner) true
    else if joined && pictographs.has c then step .picture false apart
    else
      match r.advance apart b with
      | some r' => step r' false apart
      | none => 0

/-- How many characters the first piece has beyond the first character. -/
def pieceTail (c : Char) (rest : List Char) : Nat :=
  match WordBreak.ofChar c with
  | .carriageReturn => if rest.head? = some '\n' then 1 else 0
  | .lineFeed => 0
  | .newline => 0
  | b => reach 0 (b = .joiner) false (.start b) rest

/-- The pieces of a text between word boundaries. -/
def pieces : List Char → List (List Char)
  | [] => []
  | c :: rest =>
    (c :: rest.take (pieceTail c rest)) :: pieces (rest.drop (pieceTail c rest))
termination_by cs => cs.length
decreasing_by simp only [List.length_drop, List.length_cons]; omega

/-- The words of a text: its pieces with a letter or a number. -/
def words (cs : List Char) : List (List Char) := (pieces cs).filter fun p => p.any isAlphanumeric

/-- The pieces of a text are all of it. -/
theorem flatten_pieces (cs : List Char) : (pieces cs).flatten = cs := by
  fun_induction pieces cs with
  | case1 => rfl
  | case2 c rest ih =>
    rw [List.flatten_cons, ih, List.cons_append, List.take_append_drop]

end TextSearch.Text
