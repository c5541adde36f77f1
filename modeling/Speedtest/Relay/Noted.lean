import Speedtest.Relay.Reading

/-!
# Reading a header with notes

The reader of headers once more, which notes what it has gathered each time that it goes to the stream for more. The
notes stay when reading fails and when it does not come back. Apart from them this is `await`.
-/
namespace Speedtest.Relay

/-- What reading comes to, and what had been gathered ahead of each read from the stream, in order. -/
structure Noted (α : Type) where
  reads : List Bytes
  outcome : Awaited α

namespace Noted

/-- The reads that are made once reading has come to something, which are none when it came to nothing. -/
def readsAfter {α β : Type} (outcome : Awaited α) (f : α → Noted β) : List Bytes :=
  match outcome.run with
  | some (.ok a) => (f a).reads
  | _ => []

instance : Monad Noted where
  pure a := ⟨[], pure a⟩
  bind x f := ⟨x.reads ++ readsAfter x.outcome f, x.outcome >>= fun a => (f a).outcome⟩

def lift {α : Type} (outcome : Awaited α) : Noted α := ⟨[], outcome⟩

/-- A read, with the bytes gathered ahead of it. -/
def read (gathered : Bytes) : Noted Unit := ⟨[gathered], pure ()⟩

/-- Reads on until the bytes gathered so far give an answer: the answer and the chunks after it. -/
def gather {α : Type} (answer? : Bytes → Option α) (atEnd : Bytes → Except HeaderError α)
    (ending : Ending) : (gathered : Bytes) → List Bytes → Noted (α × List Bytes)
  | gathered, [] =>
    match answer? gathered with
    | some a => return (a, [])
    | none => do
      read gathered
      lift ((·, []) <$> ranOut (atEnd gathered) ending)
  | gathered, chunk :: chunks =>
    match answer? gathered with
    | some a => return (a, chunk :: chunks)
    | none => do
      read gathered
      gather answer? atEnd ending (gathered ++ chunk) chunks

/-- Reads a header in text form, of which some bytes have been gathered. -/
def readText (ending : Ending) (gathered : Bytes) (chunks : List Bytes) :
    Noted ((Option Header × Bytes) × List Bytes) := do
  match ← gather lineOf? cutShort ending gathered chunks with
  | (.ok (line, rest), chunks) => lift ((·, chunks) <$> ExceptT.mk (some (ofLine line rest)))
  | (.error fault, _) => lift (throw (.badText fault))

/-- Reads a header in binary form, of which some bytes have been gathered. -/
def readBinary (ending : Ending) (gathered : Bytes) (chunks : List Bytes) :
    Noted ((Option Header × Bytes) × List Bytes) := do
  let (s, chunks) ← gather (enough? BinaryForm.fixedLength) cutShort ending gathered chunks
  let length := headerLength s
  let (s, chunks) ← gather (enough? length) cutShort ending s chunks
  lift ((·, chunks) <$> ExceptT.mk (some (ofWhole (s.take length) (s.drop length))))

/-- Reads a header off the front of a stream. -/
def await (f : Feed) : Noted ((Option Header × Bytes) × List Bytes) := do
  let ((lead, s), chunks) ← gather leadOf? leadAtEnd f.ending [] f.chunks
  match lead with
  | .text => readText f.ending s chunks
  | .binary => readBinary f.ending s chunks
  | _ => return ((none, s), chunks)

variable {α β : Type}

theorem reads_bind (x : Noted α) (f : α → Noted β) : (x >>= f).reads = x.reads ++ readsAfter x.outcome f := rfl

theorem outcome_bind (x : Noted α) (f : α → Noted β) :
    (x >>= f).outcome = x.outcome >>= fun a => (f a).outcome := rfl

theorem outcome_gather (answer? : Bytes → Option α) (atEnd : Bytes → Except HeaderError α) (ending : Ending)
    (gathered : Bytes) (chunks : List Bytes) :
    (gather answer? atEnd ending gathered chunks).outcome = Relay.gather answer? atEnd ending gathered chunks := by
  induction chunks generalizing gathered with
  | nil =>
    rw [gather, Relay.gather]
    cases answer? gathered <;> rfl
  | cons chunk chunks ih =>
    rw [gather, Relay.gather]
    cases answer? gathered with
    | some a => rfl
    | none => exact ih (gathered ++ chunk)

theorem outcome_readText (ending : Ending) (gathered : Bytes) (chunks : List Bytes) :
    (readText ending gathered chunks).outcome = Relay.readText ending gathered chunks := by
  rw [readText, outcome_bind, outcome_gather, Relay.readText]
  congr 1
  funext ⟨found, chunks⟩
  cases found <;> rfl

theorem outcome_readBinary (ending : Ending) (gathered : Bytes) (chunks : List Bytes) :
    (readBinary ending gathered chunks).outcome = Relay.readBinary ending gathered chunks := by
  rw [readBinary, outcome_bind, outcome_gather, Relay.readBinary]
  congr 1
  funext ⟨s, chunks⟩
  rw [outcome_bind, outcome_gather]
  rfl

/-- The notes change nothing. -/
theorem outcome_await (f : Feed) : (await f).outcome = Relay.await f := by
  rw [await, outcome_bind, outcome_gather, Relay.await]
  congr 1
  funext ⟨⟨lead, s⟩, chunks⟩
  cases lead with
  | text => exact outcome_readText f.ending s chunks
  | binary => exact outcome_readBinary f.ending s chunks
  | undecided => rfl
  | absent => rfl

end Noted
end Speedtest.Relay
