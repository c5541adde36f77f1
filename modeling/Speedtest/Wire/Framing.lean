import Speedtest.Http.Body
import Speedtest.Text.Numeral
import Speedtest.Wire.Reading

/-!
# Where a body ends

A body has a length that is told in front of it, or it comes in chunks with a length each, up to one without
bytes, or it goes on to the end of the connection. Where it ends is a function of the bytes alone. A connection
that ends before its body does leaves a body that breaks off.
-/
namespace Speedtest.Wire

/-- How the end of a body is told. -/
inductive Framing where
  | length (n : Nat)
  | chunked
  | untilClosed
  deriving DecidableEq

/-- The length of a chunk up to its line end; what stands behind a semicolon is passed over. -/
def chunkLength (s : Bytes) : Reading Nat :=
  match s.dropWhile (· != 0x0A) with
  | [] => .unfinished
  | _ :: rest =>
    let line := (s.takeWhile (· != 0x0A)).map fun b => Char.ofNat b.toNat
    let digits := line.takeWhile Text.isHexDigit
    let after := (line.dropWhile Text.isHexDigit).dropWhile fun c => c == ' ' || c == '\t'
    if after.head? = some ';' ∨ after = ['\r'] ∨ after = [] then
      .ofOption .malformed ((Text.readHex? digits).filter (· < Nat.pow 2 64)) rest
    else .refused .malformed

/-- The chunks of a body and the fields behind them, which are dropped; every chunk takes some bytes, and `fuel`
is the number of bytes. -/
def chunks : (fuel : Nat) → Bytes → Reading (List Bytes)
  | 0, _ => .unfinished
  | fuel + 1, s =>
    (chunkLength s).bind fun n s =>
      if n = 0 then (fields maxFields s).map fun _ => []
      else if s.length < n then .unfinished
      else (literal [0x0D, 0x0A] (s.drop n)).bind fun _ rest =>
        (chunks fuel rest).map (s.take n :: ·)

/-- The chunks that are whole before a body breaks off. -/
def wholeChunks : (fuel : Nat) → Bytes → List Bytes
  | 0, _ => []
  | fuel + 1, s =>
    match chunkLength s with
    | .done n s =>
      if n = 0 ∨ s.isEmpty then []
      else s.take n :: wholeChunks fuel (s.drop (n + 2))
    | _ => []

/-- A body, and what follows it; nothing follows a body that broke off. -/
def Framing.read (reason : String) (s : Bytes) : Framing → Http.Body × Option Bytes
  | .length n =>
    if n ≤ s.length then (⟨if n = 0 then [] else [s.take n], none⟩, some (s.drop n))
    else (⟨[s], some reason⟩, none)
  | .chunked =>
    match chunks (s.length + 1) s with
    | .done frames rest => (⟨frames, none⟩, some rest)
    | _ => (⟨wholeChunks (s.length + 1) s, some reason⟩, none)
  | .untilClosed => (⟨[s], none⟩, none)

/-- How many bytes a body that is not there whole needs at least. -/
def Framing.missing (s : Bytes) : Framing → Nat
  | .length n => n - s.length
  | _ => 1

/-- The length of a body that its fields tell, when they agree. -/
def toldLength (h : Http.Headers) : Except Refusal (Option Nat) :=
  match (valuesOf h "content-length").mapM lengthOf? with
  | none => .error .malformed
  | some [] => .ok none
  | some (n :: others) => if others.all (· == n) then .ok (some n) else .error .malformed

/-- The framing of a request, by whether its version knows chunks. -/
def requestFraming (chunksKnown : Bool) (h : Http.Headers) : Except Refusal Framing :=
  match valuesOf h "transfer-encoding" with
  | [] => (toldLength h).map fun n => .length (n.getD 0)
  | codings =>
    let last := (codings.getLast?.bind fun v => (listed v).getLast?).getD ""
    if chunksKnown ∧ last = "chunked" then .ok .chunked else .error .malformed

end Speedtest.Wire
