import Speedtest.Http.Message
import Speedtest.Relay.Reading
import Speedtest.Wire.Framing

/-!
# The requests of a connection

A request is a line with method, target and version, fields, and a body. Requests follow one another on a
connection until one says that it is the last, or bytes come that are no request. Those are refused, and
nothing behind them is read.
-/
namespace Speedtest.Wire

/-- A request without its body: whether the version is 1.1 rather than 1.0, and the rest of its head. -/
structure Head where
  method : String
  target : Http.Target
  newer : Bool
  headers : Http.Headers
  deriving DecidableEq

namespace Head

def isTargetByte (b : UInt8) : Bool := 0x20 < b && b != 0x7F

def target? (written : Bytes) : Option Http.Target :=
  (Text.Utf8.decode? written).bind fun s => Http.Target.ofText? (String.ofList s)

def readTarget (s : Bytes) : Reading Http.Target :=
  (word isTargetByte 0x20 [] s).bind fun written rest =>
    if Http.Target.maxLength < written.length then .refused .targetTooLong
    else .ofOption .malformed (target? written) rest

def readVersion (s : Bytes) : Reading Bool :=
  (literal (Bytes.ofAscii "HTTP/1.") s).bind fun _ s =>
    match s with
    | [] => .unfinished
    | b :: rest =>
      if b = 0x31 then .done true rest
      else if b = 0x30 then .done false rest
      else .refused .malformed

/-- The most bytes of a head. -/
def maxLength : Nat := 417792

def readWhole (s : Bytes) : Reading Head :=
  (word isNameByte 0x20 [] (skipLineEnds s)).bind fun method s =>
    if method.isEmpty then .refused .malformed
    else (readTarget s).bind fun target s =>
      (readVersion s).bind fun newer s =>
        (lineEnd s).bind fun _ s =>
          (fields maxFields s).map fun headers =>
            ⟨String.ofList (method.map fun b => Char.ofNat b.toNat), target, newer, headers⟩

/-- The head at the front of the bytes, unless it is too long. -/
def read (s : Bytes) : Reading Head :=
  match readWhole s with
  | .unfinished => if maxLength ≤ s.length then .refused .tooManyFields else .unfinished
  | r => r

/-- Whether another request may follow. The older version has to ask for it. -/
def keepsAlive (h : Head) : Bool :=
  let words := (valuesOf h.headers "connection").flatMap listed
  if h.newer then !words.contains "close" else words.contains "keep-alive"

/-- Whether the client waits to be told that the body may come. -/
def awaitsLeave (h : Head) : Bool :=
  h.newer && ((valuesOf h.headers "expect").flatMap listed).contains "100-continue"

/-- The head at the front of the bytes, and how the end of its body is told. -/
def readFramed (s : Bytes) : Reading (Head × Framing) :=
  (read s).bind fun h rest =>
    match requestFraming h.newer h.headers with
    | .ok framing => .done (h, framing) rest
    | .error r => .refused r

def request (h : Head) (body : Http.Body) : Http.Request := ⟨h.method, h.target, h.headers, body, none⟩

end Head

/-- The requests of a connection, and what the bytes behind them were refused for. -/
structure Requests where
  list : List (Head × Http.Body)
  refusal : Option Refusal

def Requests.after (r : Requests) (h : Head) (body : Http.Body) : Requests :=
  ⟨(h, body) :: r.list, r.refusal⟩

/-- Reads requests from all bytes of a connection, where `reason` is why the connection breaks off. Every
request takes some bytes; `fuel` is the number of bytes. -/
def requestsFrom (reason : String) : (fuel : Nat) → Bytes → Requests
  | 0, _ => ⟨[], none⟩
  | fuel + 1, s =>
    match Head.readFramed s with
    | .unfinished => ⟨[], none⟩
    | .refused r => ⟨[], some r⟩
    | .done (head, framing) rest =>
      match framing.read reason rest with
      | (body, some rest) =>
        if head.keepsAlive then (requestsFrom reason fuel rest).after head body
        else ⟨[(head, body)], none⟩
      | (body, none) => ⟨[(head, body)], none⟩

def breakReason : Relay.Ending → String
  | .failure reason => reason
  | _ => "connection closed before message completed"

def requestsOf (f : Relay.Feed) : Requests :=
  requestsFrom (breakReason f.ending) (f.bytes.length + 1) f.bytes

def decode (f : Relay.Feed) : List Http.Request :=
  (requestsOf f).list.map fun (head, body) => head.request body

end Speedtest.Wire
