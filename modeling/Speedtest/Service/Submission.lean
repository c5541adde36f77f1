import Speedtest.Http.Multipart
import Speedtest.Redaction.Scrub
import Speedtest.Service.Basic

/-!
# Taking results in

A client sends its result as a form, either encoded like a query or in parts, and what the form does not name
may stand in the query. The record of it is put into the store, and the client is told its identifier.
-/
namespace Speedtest.Service

/-- The most bytes of a form that are read. -/
def formLimit : Nat := 2097152

def isInParts (r : Http.Request) : Bool := hasContentType r "multipart/form-data"

def refusal : Http.BodyFault → Http.Response
  | .tooLong => .text 413 "Failed to buffer the request body: length limit exceeded"
  | .unreadable reason => .text 400 ("Failed to buffer the request body: " ++ reason)

def partsRefusal : Http.BodyFault → Http.Response
  | .tooLong => .text 413 "Request payload is too large"
  | .unreadable _ => .text 500 "failed to read stream"

/-- The response to a form in parts whose boundary is not told. -/
def noBoundary : Http.Response :=
  let tick := String.singleton (Char.ofNat 0x60)
  .text 400 ("Invalid " ++ tick ++ "boundary" ++ tick ++ " for " ++ tick ++ "multipart/form-data" ++
    tick ++ " request")

def readParts (r : Http.Request) : Except Http.Response Form.Pairs :=
  match (r.headers.text? "content-type").bind Http.Multipart.boundary? with
  | none => .error noBoundary
  | some boundary =>
    match r.body.gather formLimit with
    | .error fault => .error (partsRefusal fault)
    | .ok bytes =>
      match Http.Multipart.read boundary bytes with
      | .error fault => .error (.text 400 fault.message)
      | .ok parts => .ok (Http.Multipart.collect [] parts)

def readEncoded (r : Http.Request) : Except Http.Response Form.Pairs :=
  match r.body.gather formLimit with
  | .error fault => .error (refusal fault)
  | .ok bytes => .ok (Form.collect [] bytes)

/-- The named texts of a request, those of its body first, or the response that refuses it. -/
def readForm (r : Http.Request) : Except Http.Response Form.Pairs :=
  (if isInParts r then readParts r else readEncoded r).map fun fields => withQuery fields r

def fieldText (r : Http.Request) (name : String) : String := (r.headers.text? name).getD ""

def record (s : Service) (m : Moment) (client : String) (r : Http.Request) (form : Form.Pairs) :
    Telemetry.Record :=
  let field (name : String) : String := (form.lookup name).getD ""
  let hidden (text : String) : String :=
    if s.redactAddresses then Redaction.scrubText text else text
  let isp := field "ispinfo"
  { timestamp := m.time
    ipAddress := if s.redactAddresses then Redaction.placeholder else client
    ispInfo := hidden (if isp = "" then "\x7b\x7d" else isp)
    extra := field "extra"
    userAgent := fieldText r "user-agent"
    language := fieldText r "accept-language"
    download := field "dl"
    upload := field "ul"
    ping := field "ping"
    jitter := field "jitter"
    log := hidden (field "log")
    uuid := m.recordId }

/-- Puts a record into the store and tells its identifier. A store that fails or crashes leaves the client
without one. -/
def keep (rec : Telemetry.Record) (st : State) : Handled :=
  let (outcome, store) := st.store.insert rec
  let st := st.withStore store
  match outcome with
  | .ok () => (st.count (.inserts true) 1).respond (.text 200 ("id " ++ rec.uuid))
  | _ => (st.count (.inserts false) 1).respond (.bare 500)

def submit (s : Service) (m : Moment) (client : String) (r : Http.Request) (st : State) : Handled :=
  match readForm r with
  | .error response => st.respond response
  | .ok form => keep (record s m client r form) st

end Speedtest.Service
