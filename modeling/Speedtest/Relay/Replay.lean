import Speedtest.Relay.Reading

/-!
# Reading on after the header

The bytes that were read ahead of the payload are handed out before the stream is read again. Writing goes
straight to the stream.
-/
namespace Speedtest.Relay

/-- What the first chunk that is not empty gives to a read of at most `count` bytes, and the chunks after
the read. -/
def takeChunk? (count : Nat) : List Bytes → Option (Bytes × List Bytes)
  | [] => none
  | [] :: chunks => takeChunk? count chunks
  | chunk :: chunks =>
    some (chunk.take count, if count < chunk.length then chunk.drop count :: chunks else chunks)

/-- One read of at most `count` bytes: the bytes, or none when the stream fails, and the feed after it. A
feed that is over or silent gives the empty string. -/
def Feed.take (f : Feed) (count : Nat) : Option Bytes × Feed :=
  match takeChunk? count f.chunks, f.ending with
  | some (bytes, chunks), _ => (some bytes, { f with chunks })
  | none, .failure _ => (none, f)
  | none, _ => (some [], f)

/-- A stream with bytes that were read ahead of it. -/
structure Replay where
  ahead : Bytes
  inner : Feed
  written : Bytes
  flushes : Nat
  closed : Bool
  deriving DecidableEq

namespace Replay

/-- A stream that nothing has been written to. -/
def ofFeed (ahead : Bytes) (inner : Feed) : Replay := ⟨ahead, inner, [], 0, false⟩

/-- One read of at most `count` bytes. -/
def read (r : Replay) (count : Nat) : Option Bytes × Replay :=
  match r.ahead with
  | [] =>
    let (bytes, inner) := r.inner.take count
    (bytes, { r with inner := inner })
  | ahead => (some (ahead.take count), { r with ahead := ahead.drop count })

/-- Hands bytes to the stream, which takes up the first so many of them at most. -/
def writeUpTo (r : Replay) (most : Nat) (bytes : Bytes) : Nat × Replay :=
  (min most bytes.length, { r with written := r.written ++ bytes.take most })

/-- Writes bytes, all of which the stream accepts. -/
def write (r : Replay) (bytes : Bytes) : Nat × Replay := r.writeUpTo bytes.length bytes

/-- Writes several byte strings at once, all of which the stream accepts. -/
def writeAll (r : Replay) (parts : List Bytes) : Nat × Replay := r.write parts.flatten

def flush (r : Replay) : Replay := { r with flushes := r.flushes + 1 }

def close (r : Replay) : Replay := { r with closed := true }

/-- All the bytes that can still be read. -/
def remaining (r : Replay) : Bytes := r.ahead ++ r.inner.bytes

end Replay

/-- One use of a stream. What the stream underneath makes of a write is part of it: the number of bytes that it takes up
at most, or none where it refuses the write. -/
inductive Operation where
  | read (count : Nat)
  | write (bytes : Bytes) (uptake : Option Nat)
  | writeAll (parts : List Bytes) (uptake : Option Nat)
  | flush
  | close
  deriving DecidableEq

/-- What a use of a stream comes back with. -/
inductive Reply where
  | bytes (read : Bytes)
  | failed
  | wrote (count : Nat)
  | refused
  | done
  deriving DecidableEq

namespace Replay

/-- Hands bytes to the stream, which may refuse them. -/
def handOver (r : Replay) (bytes : Bytes) : (uptake : Option Nat) → Reply × Replay
  | some most =>
    let (count, r) := r.writeUpTo most bytes
    (.wrote count, r)
  | none => (.refused, r)

/-- One use of the stream: the reply and the stream after it. -/
def step (r : Replay) : Operation → Reply × Replay
  | .read count =>
    match r.read count with
    | (some bytes, r) => (.bytes bytes, r)
    | (none, r) => (.failed, r)
  | .write bytes uptake => r.handOver bytes uptake
  | .writeAll parts uptake => r.handOver parts.flatten uptake
  | .flush => (.done, r.flush)
  | .close => (.done, r.close)

/-- The replies to one use after the other, and the stream after the last. -/
def run : Replay → List Operation → List Reply × Replay
  | r, [] => ([], r)
  | r, operation :: operations =>
    let (reply, r) := r.step operation
    let (replies, r) := r.run operations
    (reply :: replies, r)

end Replay
end Speedtest.Relay
