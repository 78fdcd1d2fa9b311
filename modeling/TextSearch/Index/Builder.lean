import TextSearch.Index.Snapshot
import TextSearch.Text.Lowercase
import TextSearch.Text.Words

/-!
# Building an index

Documents are added to a builder one by one, as tokens per field. They collect
in an open segment; committing closes it, and later documents go into a new one.
Documents are numbered in the order in which they were added, across segments.
A document that names a field which was not declared is refused as a whole and
leaves no trace.
-/

namespace TextSearch

/-- An analyzed token. -/
structure Token where
  /-- The text of the token. -/
  text : String
  /-- The position of the token in its field. -/
  position : UInt32
  /-- The payload, if analysis attached one. -/
  payload : Option Payload
  deriving DecidableEq, Repr, Inhabited

/-- The words of a text in lower case, each at the position that counts the words before it. -/
def Token.ofText (text : String) : List Token :=
  (Text.words text.toList).mapIdx fun i w =>
    ⟨String.ofList (Text.lowercase w), UInt32.ofNat i, none⟩

/-- A document is a list of fields with their tokens. -/
abbrev Document := List (String × List Token)

/-- The documents of one segment under construction. -/
structure SegmentBuffer where
  /-- The number of documents. -/
  docCount : Nat
  /-- The postings of every field that has tokens. -/
  fields : Dictionary FieldPostings

namespace SegmentBuffer

/-- A segment without documents. -/
def empty : SegmentBuffer := ⟨0, .empty⟩

instance : Inhabited SegmentBuffer := ⟨empty⟩

/-- What a field keeps of a token. Payloads without bytes are not kept. -/
def keep (options : IndexOptions) (t : Token) : Occurrence :=
  ⟨t.position, if options.hasPayloads then t.payload.filter fun p => !p.isEmpty else none⟩

/-- The occurrences of every term, in the order of the tokens. -/
def group (options : IndexOptions) (tokens : List Token) : Dictionary (List Occurrence) :=
  tokens.foldl (fun d t => d.alter t.text fun os => os.getD [] ++ [keep options t]) .empty

/-- The posting of a document for the occurrences of a term, ordered by position. -/
def posting (options : IndexOptions) (doc : Nat) (os : List Occurrence) : Posting :=
  match options with
  | .documents => .ofDoc doc
  | .frequencies => .ofFrequency doc os.length
  | _ => .ofOccurrences doc (os.mergeSort fun a b => decide (a.position ≤ b.position))

/-- Add the tokens of a document to the postings of a field. -/
def extend (options : IndexOptions) (doc : Nat) (tokens : List Token)
    (f : Option FieldPostings) : FieldPostings :=
  let f := f.getD ⟨options, .empty, 0, 0⟩
  let terms := (group options tokens).entries.foldl
    (fun d e => d.alter e.1 fun ps => ps.getD [] ++ [posting options doc e.2]) f.terms
  { f with terms, docCount := f.docCount + 1, tokenCount := f.tokenCount + tokens.length }

/-- Add one field of the document under construction. A field without tokens adds nothing. -/
def addField (options : IndexOptions) (field : String) (tokens : List Token)
    (b : SegmentBuffer) : SegmentBuffer :=
  if tokens.isEmpty then b
  else { b with fields := b.fields.alter field (extend options b.docCount tokens) }

end SegmentBuffer

/-- An index under construction. -/
structure IndexBuilder where
  /-- The declared fields, and what each of them stores. -/
  declared : Dictionary IndexOptions
  /-- The closed segments, in order. -/
  finished : List SegmentBuffer
  /-- The open segment. -/
  current : SegmentBuffer

namespace IndexBuilder

/-- A builder without documents. Where a field is declared twice the last declaration counts. -/
def ofFields (declared : List (String × IndexOptions)) : IndexBuilder :=
  ⟨.ofList declared, [], .empty⟩

/-- The number of documents in closed segments. -/
def base (b : IndexBuilder) : Nat := total (b.finished.map (·.docCount))

/-- The fields of a document with what each of them stores. -/
def resolve (b : IndexBuilder) (doc : Document) :
    Except Fault (List (String × IndexOptions × List Token)) :=
  doc.mapM fun (field, tokens) =>
    match b.declared.get? field with
    | some options => .ok (field, options, tokens)
    | none => .error (.undeclaredField field)

/-- Add a document, and answer its id. -/
def addDocument (doc : Document) (b : IndexBuilder) : Except Fault (Nat × IndexBuilder) := do
  let fields ← b.resolve doc
  let filled := fields.foldl
    (fun s (field, options, tokens) => s.addField options field tokens) b.current
  pure (b.base + b.current.docCount,
    { b with current := { filled with docCount := b.current.docCount + 1 } })

/-- Add a document that has the words of a text in one field, and answer its id. -/
def addText (field text : String) (b : IndexBuilder) : Except Fault (Nat × IndexBuilder) :=
  b.addDocument [(field, Token.ofText text)]

/-- Close the open segment, unless it has no documents. -/
def commit (b : IndexBuilder) : IndexBuilder :=
  if b.current.docCount = 0 then b
  else { b with finished := b.finished ++ [b.current], current := .empty }

/-- The segments of a snapshot, given the place and the base of the first one. -/
def freeze (snapshot : Nat) : Nat → Nat → List SegmentBuffer → List Segment
  | _, _, [] => []
  | ord, docBase, b :: rest =>
    { ord, snapshot, docBase, maxDoc := b.docCount, fields := b.fields } ::
      freeze snapshot (ord + 1) (docBase + b.docCount) rest

/-- Close the open segment and take the snapshot. -/
def build (id : Nat) (b : IndexBuilder) : Snapshot := ⟨id, freeze id 0 0 b.commit.finished⟩

end IndexBuilder

end TextSearch
