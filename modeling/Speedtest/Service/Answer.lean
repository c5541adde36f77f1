import Speedtest.Service.Results
import Speedtest.Service.Submission
import Speedtest.Service.Transfer
import Speedtest.Service.Whereabouts

/-!
# Answering requests

A request is led to the endpoint that it asks for. Every response gets the fields that keep it out of caches,
those that open it to other origins, and the identifier of the request. A request for the options of a path
never reaches an endpoint, and a handler that crashes leaves a response that says so.
-/
namespace Speedtest.Service

/-- Handles a request at an endpoint, which counts it. Two endpoints need to know the connection, and a request
whose connection is not known never reaches them. -/
def handle (s : Service) (m : Moment) (e : Endpoint) (r : Http.Request) (st : State) : Handled :=
  let counted := st.count (.requests e) 1
  match e with
  | .empty => upload r counted
  | .garbage => download s r counted
  | .stats => results s r counted
  | .getIp =>
    match s.clientText? r with
    | some client => tellAddress s m client r counted
    | none => st.respond unknownConnection
  | .telemetry =>
    match s.clientText? r with
    | some client => submit s m client r counted
    | none => st.respond unknownConnection

def withFields (r : Http.Response) (fields : List (String × String)) : Http.Response :=
  fields.foldl (fun r (name, value) => r.withField name (Bytes.ofAscii value)) r

@[simp] theorem status_withFields (r : Http.Response) (fields : List (String × String)) :
    (withFields r fields).status = r.status := by
  induction fields generalizing r with
  | nil => rfl
  | cons field fields ih => exact ih _

@[simp] theorem body_withFields (r : Http.Response) (fields : List (String × String)) :
    (withFields r fields).body = r.body := by
  induction fields generalizing r with
  | nil => rfl
  | cons field fields ih => exact ih _

/-- The fields that keep a response out of caches. -/
def noCacheFields : List (String × String) :=
  [("cache-control",
      "no-cache, no-store, no-transform, must-revalidate, private, max-age=0"),
    ("pragma", "no-cache"), ("expires", "Thu, 01 Jan 1970 00:00:00 UTC"),
    ("x-accel-expires", "0")]

/-- The fields that open a response to every origin. -/
def originFields : List (String × String) :=
  [("access-control-allow-origin", "*"),
    ("vary", "origin, access-control-request-method, access-control-request-headers")]

def options : Http.Response :=
  withFields (.bare 200)
    [("access-control-allow-methods", "GET,POST,HEAD,OPTIONS"), ("access-control-allow-headers", "*")]

def crashed : Http.Response := .text 500 "Service panicked"

/-- The identifier of a request: its own, or else a new one. -/
def requestId (m : Moment) (r : Http.Request) : Bytes :=
  (r.headers.first? "x-request-id").getD (Text.Utf8.encode m.requestId.toList)

/-- The response with the methods of an endpoint told, if they are not all. -/
def withAllowed (e : Endpoint) (r : Http.Response) : Http.Response :=
  match e.allowed? with
  | some methods => r.withField "allow" (Bytes.ofAscii methods)
  | none => r

/-- The response of an endpoint as it goes out: with its length, and without its body where the method wants
none. A connection that is handed over has neither. -/
def framed (method : String) (r : Http.Response) : Http.Response :=
  if method = "CONNECT" ∧ r.succeeded then r.withoutBody
  else if method = "HEAD" then r.withLength.withoutBody
  else r.withLength

@[simp] theorem status_framed (method : String) (r : Http.Response) :
    (framed method r).status = r.status := by
  unfold framed
  split
  · rfl
  · split <;> simp

/-- Only two methods go without a body. -/
theorem body_framed {method : String} (hc : method ≠ "CONNECT") (hh : method ≠ "HEAD")
    (r : Http.Response) : (framed method r).body = r.body := by
  simp [framed, hc, hh]

/-- The response of a handler: kept out of caches, unless the handler crashed. -/
def Handled.outcome (h : Handled) : Http.Response :=
  match h.response with
  | some response => withFields response noCacheFields
  | none => crashed

/-- An answer: the response, and the locators that the lookup service was asked for. -/
structure Answer where
  response : Http.Response
  lookups : List Url := []

/-- Leads a request to the endpoint that it asks for. -/
def route (s : Service) (m : Moment) (r : Http.Request) (st : State) : Answer × State :=
  match Endpoint.find? s.mount r.target.path with
  | none =>
    (⟨if r.method = "OPTIONS" then options else withFields (.bare 404) noCacheFields, []⟩, st)
  | some e =>
    if r.method = "OPTIONS" then (⟨(withAllowed e options).withLength, []⟩, st)
    else if e.answersTo r.method then
      let handled := handle s m e r st
      (⟨framed r.method handled.outcome, handled.lookups⟩, handled.state)
    else (⟨framed r.method (withAllowed e (withFields (.bare 405) noCacheFields)), []⟩, st)

def answer (s : Service) (m : Moment) (r : Http.Request) (st : State) : Answer × State :=
  let (answer, st) := route s m r st
  let opened := withFields answer.response originFields
  (⟨opened.withField "x-request-id" (requestId m r), answer.lookups⟩, st)

/-- The state after a response has gone out whole, with the bytes of a download counted. -/
def State.delivered (st : State) (r : Http.Response) : State :=
  match r.body with
  | .chunks stream => if stream.remaining = 0 then st else st.count .downloaded stream.totalLength
  | .bytes _ => st

@[simp] theorem store_delivered (st : State) (r : Http.Response) :
    (st.delivered r).store = st.store := by
  unfold State.delivered
  split
  · split <;> rfl
  · rfl

def exchange (s : Service) (m : Moment) (r : Http.Request) (st : State) : Answer × State :=
  let (answer, st) := answer s m r st
  (answer, st.delivered answer.response)

abbrev Arrival := Moment × Http.Request

/-- Answers requests one after another and lets the responses go out. -/
def exchangeAll (s : Service) : List Arrival → State → List Answer × State
  | [], st => ([], st)
  | (m, r) :: rest, st =>
    let (answer, st) := s.exchange m r st
    let (answers, st) := exchangeAll s rest st
    (answer :: answers, st)

end Speedtest.Service
