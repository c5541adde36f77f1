import Speedtest.Http.Reply
import Speedtest.Http.Status
import Speedtest.Time.Stamp
import Speedtest.Wire.Requests

/-!
# The responses on a connection

A response is a line with version and status, fields, and a body. A body whose length nobody knows before goes
out in chunks, or to the end of the connection when the version of the request does not know chunks. The other
way round, a response is read off all bytes of a connection that is over.
-/
namespace Speedtest.Wire

/-- How a response goes out: whether in the newer version, whether its body goes along, and whether other
requests may follow. -/
structure Manner where
  newer : Bool
  withBody : Bool
  keepsAlive : Bool
  deriving DecidableEq

/-- How the response to a request goes out. A body without a length ends the connection in the older version. -/
def Manner.ofHead (h : Head) (r : Http.Response) : Manner where
  newer := h.newer
  withBody := h.method != "HEAD"
  keepsAlive := h.keepsAlive && (h.newer || r.body.announced?.isSome)

def Manner.refusal : Manner := ⟨true, true, false⟩

def Manner.inChunks (m : Manner) (r : Http.Response) : Bool := m.newer && r.body.announced?.isNone

/-- The fields that say where the body ends. -/
def Manner.framingFields (m : Manner) (r : Http.Response) : Http.Headers :=
  match r.body.announced? with
  | some n =>
    if r.headers.has "content-length" then []
    else [("content-length", Bytes.ofAscii (String.ofList (Text.decimal n)))]
  | none => if m.newer then [Http.Headers.ascii "transfer-encoding" "chunked"] else []

/-- The field that says whether other requests may follow, unless that goes without saying. -/
def Manner.connectionFields (m : Manner) : Http.Headers :=
  if m.keepsAlive then (if m.newer then [] else [Http.Headers.ascii "connection" "keep-alive"])
  else if m.newer then [Http.Headers.ascii "connection" "close"] else []

/-- The fields of a response that stay as they are: the connection's own are not up to the response when it
ends. -/
def Manner.keptFields (m : Manner) (r : Http.Response) : Http.Headers :=
  if m.keepsAlive then r.headers else r.headers.filter (·.1 != "connection")

def writeField (f : String × Bytes) : Bytes :=
  Bytes.ofAscii (f.1 ++ ": ") ++ f.2 ++ [0x0D, 0x0A]

def writeHead (m : Manner) (now : Time.Instant) (r : Http.Response) : Bytes :=
  let version := if m.newer then "HTTP/1.1 " else "HTTP/1.0 "
  let fields := m.keptFields r ++ m.framingFields r ++ m.connectionFields ++
    [Http.Headers.ascii "date" now.stamp]
  Bytes.ofAscii (version ++ Http.Status.text r.status) ++ [0x0D, 0x0A] ++
    fields.flatMap writeField ++ [0x0D, 0x0A]

/-- A chunk as it goes out; the one without bytes is the last. -/
def writeChunk (b : Bytes) : Bytes :=
  Bytes.ofAscii (String.ofList (Text.hexadecimal b.length)) ++ [0x0D, 0x0A] ++ b ++ [0x0D, 0x0A]

/-- The pieces of a body as they go out, each with how many times it does. -/
def bodyPieces (m : Manner) (r : Http.Response) : List (Bytes × Nat) :=
  match m.withBody, r.body with
  | false, _ => []
  | true, .bytes b => [(b, 1)]
  | true, .chunks s =>
    if m.inChunks r then [(writeChunk s.chunk, s.remaining), (writeChunk [], 1)]
    else [(s.chunk, s.remaining)]

/-- What a client is sent that waits to be told that the body of its request may come. -/
def leave : Bytes := Bytes.ofAscii "HTTP/1.1 100 Continue\r\n\r\n"

def refusalResponse (r : Refusal) : Http.Response := .bare r.status

def statusLine (s : Bytes) : Reading Nat :=
  (literal (Bytes.ofAscii "HTTP/1.") s).bind fun _ s =>
    (word (fun b => 0x30 ≤ b && b ≤ 0x39) 0x20 [] s).bind fun _ s =>
      let digits := (s.take 3).map fun b => Char.ofNat b.toNat
      match s.dropWhile (· != 0x0A) with
      | [] => .unfinished
      | _ :: rest => .ofOption .malformed (Text.readDigits? digits) rest

/-- Whether a response with a status never has a body. -/
def isBodiless (status : Nat) : Bool := status < 200 || status == 204 || status == 304

def responseFraming (status : Nat) (h : Http.Headers) : Except Refusal Framing :=
  if isBodiless status then .ok (.length 0)
  else if (valuesOf h "transfer-encoding").isEmpty then
    (toldLength h).map fun n => (n.map Framing.length).getD .untilClosed
  else .ok .chunked

def replyOf (s : Bytes) : Http.Reply :=
  let head := (statusLine s).bind fun status s => (fields maxFields s).map fun h => (status, h)
  match head with
  | .done (status, h) rest =>
    match responseFraming status h with
    | .ok framing =>
      let body := (framing.read "closed" rest).1
      .answer status body.frames.flatten body.failure.isNone
    | .error _ => .closed
  | _ => .closed

/-- A question to another server as it goes out, with fields of its own. -/
def writeQuestion (target host : String) (own : Http.Headers) : Bytes :=
  let fields := own ++ [Http.Headers.ascii "accept" "*/*",
    ("host", Text.Utf8.encode host.toList), Http.Headers.ascii "connection" "close"]
  Text.Utf8.encode ("GET " ++ target ++ " HTTP/1.1").toList ++ [0x0D, 0x0A] ++
    fields.flatMap writeField ++ [0x0D, 0x0A]

end Speedtest.Wire
