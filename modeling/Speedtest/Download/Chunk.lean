import Speedtest.Bytes
import Speedtest.Text.Numeral

/-!
# Downloads

A download is one chunk of random bytes sent so many times over. The client asks for the number of
chunks; whatever is no count asks for nothing, and no count goes beyond the maximum. A stream gives the
chunk out once at each poll and keeps the books on what is left.
-/
namespace Speedtest.Download

def chunkSize : Nat := 1048576

/-- The most chunks that one download sends. -/
def maxChunks : Nat := 1024

/-- The number of chunks for what a client asked. A count has to fit into 64 bits to be one. -/
def chunkCount (requested : Option String) (default : Nat) : Nat :=
  match requested with
  | none => default
  | some text => match Text.readCount? (Nat.pow 2 64) text.toList with
    | some n => min n maxChunks
    | none => default

/-- A download under way. -/
structure ChunkStream where
  chunk : Bytes
  remaining : Nat
  started : Bool
  deriving DecidableEq

namespace ChunkStream

/-- A download that has sent nothing yet. -/
def ofCount (chunk : Bytes) (count : Nat) : ChunkStream := ⟨chunk, count, false⟩

/-- The bytes still to come. -/
def totalLength (s : ChunkStream) : Nat := s.chunk.length * s.remaining

/-- The least and the most items still to come, which are known exactly. -/
def sizeHint (s : ChunkStream) : Nat × Option Nat := (s.remaining, some s.remaining)

/-- Whether the download has started and has more to send. -/
def endedEarly (s : ChunkStream) : Bool := s.started && 0 < s.remaining

/-- The next item, if one is left, and the stream after it. -/
def poll (s : ChunkStream) : Option Bytes × ChunkStream :=
  match s.remaining with
  | 0 => (none, s)
  | n + 1 => (some s.chunk, ⟨s.chunk, n, true⟩)

/-- The items of so many polls, and the stream after them. -/
def polls : (count : Nat) → ChunkStream → List (Option Bytes) × ChunkStream
  | 0, s => ([], s)
  | n + 1, s =>
    let (item, s) := s.poll
    let (items, s) := polls n s
    (item :: items, s)

end ChunkStream
end Speedtest.Download
