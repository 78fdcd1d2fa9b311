import TextSearch.Threshold

/-!
# Postings

The postings of a term say in which documents it occurs, how often, and, where
the field stores them, at which token positions and with which payloads. A
payload is a string of bytes that analysis attached to an occurrence; injected
tokens such as synonyms carry one.
-/

namespace TextSearch

/-- The document that a cursor reports before its first and after its last document. No
document has this id. -/
def endOfDocs : Nat := 0xffffffffffffffff

/-- The bytes attached to an occurrence. -/
abbrev Payload := List UInt8

/-- One occurrence of a term in a document. -/
structure Occurrence where
  /-- The token position. -/
  position : UInt32
  /-- The payload, if one was attached. -/
  payload : Option Payload
  deriving DecidableEq, Repr, Inhabited

namespace Occurrence

/-- Whether the payload is missing or has no bytes. -/
def hasEmptyPayload (o : Occurrence) : Bool := o.payload.all List.isEmpty

/-- The occurrence as it reads without payloads. -/
def withoutPayload (o : Occurrence) : Occurrence := { o with payload := none }

end Occurrence

/-- A document in the list of a term. -/
structure Posting where
  /-- The id of the document. -/
  doc : Nat
  /-- How often the term occurs in it. -/
  frequency : Nat
  /-- The occurrences, where the field stores them. -/
  occurrences : Option (List Occurrence)
  deriving DecidableEq, Repr, Inhabited

namespace Posting

/-- A posting that stores nothing but the document reads as one occurrence. -/
def ofDoc (doc : Nat) : Posting := ⟨doc, 1, none⟩

/-- A posting that stores how often the term occurs. -/
def ofFrequency (doc frequency : Nat) : Posting := ⟨doc, frequency, none⟩

/-- A posting that stores every occurrence. -/
def ofOccurrences (doc : Nat) (os : List Occurrence) : Posting := ⟨doc, os.length, some os⟩

/-- One more occurrence; the frequency becomes the number of stored occurrences. -/
def addOccurrence (p : Posting) (o : Occurrence) : Posting :=
  ofOccurrences p.doc (p.occurrences.getD [] ++ [o])

end Posting

/-- How much of a posting list is read; each level includes the one before it. -/
inductive Detail where
  | frequencies
  | positions
  | payloads
  deriving DecidableEq, Repr, Inhabited

namespace Detail

/-- Whether occurrences can be listed. -/
def hasPositions : Detail → Bool
  | frequencies => false
  | _ => true

/-- Whether occurrences are listed with their payloads. -/
def hasPayloads : Detail → Bool
  | payloads => true
  | _ => false

/-- The greater of two levels. -/
def max : Detail → Detail → Detail
  | payloads, _ => payloads
  | _, payloads => payloads
  | positions, _ => positions
  | _, positions => positions
  | frequencies, frequencies => frequencies

end Detail

end TextSearch
