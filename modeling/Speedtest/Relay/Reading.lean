import Speedtest.Relay.BinaryForm
import Speedtest.Relay.TextForm

/-!
# Reading a header off a stream

A stream hands over its bytes in chunks and then ends, fails or stays silent. Three loops read on, each until
the bytes gathered so far answer its question: which form the header has, where its line ends, and whether
it is there as a whole. Nothing is read beyond the chunk that holds the answer. A loop that has no chunk left
ends as the stream does, and on a silent stream it does not come back.
-/
namespace Speedtest.Relay

/-- What comes after the last byte of a stream. -/
inductive Ending where
  | closed
  | failure (reason : String)
  | silence
  deriving DecidableEq

/-- What a stream is still going to hand over. -/
structure Feed where
  chunks : List Bytes
  ending : Ending
  deriving DecidableEq

namespace Feed

def bytes (f : Feed) : Bytes := f.chunks.flatten

end Feed

/-- A header, or none, and the bytes behind it. -/
abbrev Outcome := Except HeaderError (Option Header × Bytes)

/-- What reading comes to. It may fail, and where it does not come back there is nothing. -/
abbrev Awaited (α : Type) := ExceptT HeaderError Option α

/-- What reading on comes to when no chunk is left: at the end of the stream `atEnd` decides. -/
def ranOut {α : Type} (atEnd : Except HeaderError α) : Ending → Awaited α
  | .closed => some atEnd
  | .failure reason => some (.error (.unreadable reason))
  | .silence => none

/-- Reads on until the bytes gathered so far give an answer: the answer and the chunks after it. -/
def gather {α : Type} (answer? : Bytes → Option α) (atEnd : Bytes → Except HeaderError α)
    (ending : Ending) : (gathered : Bytes) → List Bytes → Awaited (α × List Bytes)
  | gathered, [] =>
    match answer? gathered with
    | some a => return (a, [])
    | none => (·, []) <$> ranOut (atEnd gathered) ending
  | gathered, chunk :: chunks =>
    match answer? gathered with
    | some a => return (a, chunk :: chunks)
    | none => gather answer? atEnd ending (gathered ++ chunk) chunks

/-- What the first bytes of a stream say about the form of the header. -/
inductive Lead where
  | text
  | binary
  | undecided
  | absent
  deriving DecidableEq

/-- Whether bytes could still turn out to start with a lead. -/
def mayBecome (lead s : Bytes) : Bool := s.length < lead.length && Text.startsWith s lead

/-- The form of the header that bytes start with. -/
def detect (s : Bytes) : Lead :=
  if Text.startsWith TextForm.signature s then .text
  else if Text.startsWith BinaryForm.signature s then .binary
  else if mayBecome TextForm.signature s || mayBecome BinaryForm.signature s then .undecided
  else .absent

/-- The form of the header, with the bytes that tell it, when they do. -/
def leadOf? (s : Bytes) : Option (Lead × Bytes) :=
  match detect s with
  | .undecided => none
  | lead => some (lead, s)

/-- A stream that is over before its first byte has no header. -/
def leadAtEnd (s : Bytes) : Except HeaderError (Lead × Bytes) :=
  if s.isEmpty then .ok (.absent, s) else .error .truncated

/-- The bytes before the first line end that lies within the first `limit` bytes, and those after it. -/
def cutLine? : (limit : Nat) → Bytes → Option (Bytes × Bytes)
  | _ + 2, 0x0D :: 0x0A :: s => some ([], s)
  | limit + 1, b :: s => (cutLine? limit s).map fun (line, rest) => (b :: line, rest)
  | _, _ => none

/-- The line of a header in text form and the bytes behind its end, or the fault of a line that is too
long. -/
def lineOf? (s : Bytes) : Option (Except TextFault (Bytes × Bytes)) :=
  match cutLine? TextForm.maxLength s with
  | some cut => some (.ok cut)
  | none => if TextForm.maxLength ≤ s.length then some (.error .tooLong) else none

/-- The bytes gathered, when there are enough of them. -/
def enough? (length : Nat) (s : Bytes) : Option Bytes := if length ≤ s.length then some s else none

/-- A stream that is over inside a header. -/
def cutShort {α : Type} (_ : Bytes) : Except HeaderError α := .error .truncated

/-- What a line comes to, with the bytes behind its end. -/
def ofLine (line rest : Bytes) : Outcome :=
  match TextForm.read line with
  | .ok h => .ok (some h, rest)
  | .error fault => .error (.badText fault)

/-- What the bytes of a header in binary form come to, with those behind it. -/
def ofWhole (header rest : Bytes) : Outcome :=
  match BinaryForm.read header with
  | .ok h => .ok (some h, rest)
  | .error fault => .error (.badBinary fault)

/-- Reads a header in text form, of which some bytes have been gathered. -/
def readText (ending : Ending) (gathered : Bytes) (chunks : List Bytes) :
    Awaited ((Option Header × Bytes) × List Bytes) := do
  match ← gather lineOf? cutShort ending gathered chunks with
  | (.ok (line, rest), chunks) => (·, chunks) <$> ExceptT.mk (some (ofLine line rest))
  | (.error fault, _) => throw (.badText fault)

/-- The length of a header in binary form, from its fixed part. -/
def headerLength (s : Bytes) : Nat := BinaryForm.fixedLength + BinaryForm.bodyLength s

/-- Reads a header in binary form, of which some bytes have been gathered. -/
def readBinary (ending : Ending) (gathered : Bytes) (chunks : List Bytes) :
    Awaited ((Option Header × Bytes) × List Bytes) := do
  let (s, chunks) ← gather (enough? BinaryForm.fixedLength) cutShort ending gathered chunks
  let length := headerLength s
  let (s, chunks) ← gather (enough? length) cutShort ending s chunks
  (·, chunks) <$> ExceptT.mk (some (ofWhole (s.take length) (s.drop length)))

/-- Reads a header off the front of a stream: the header, if there is one, with the bytes read behind it, and the
chunks that were not read. -/
def await (f : Feed) : Awaited ((Option Header × Bytes) × List Bytes) := do
  let ((lead, s), chunks) ← gather leadOf? leadAtEnd f.ending [] f.chunks
  match lead with
  | .text => readText f.ending s chunks
  | .binary => readBinary f.ending s chunks
  | _ => return ((none, s), chunks)

/-- Reads a header off the front of a stream within the time that a peer has for it: the header, if there is one,
and what is left of the stream, with the bytes read behind the header first. -/
def read (f : Feed) : Except HeaderError (Option Header × Feed) :=
  match (await f).run with
  | some (.ok ((h, rest), chunks)) => .ok (h, ⟨rest :: chunks, f.ending⟩)
  | some (.error e) => .error e
  | none => .error .timeout

end Speedtest.Relay
