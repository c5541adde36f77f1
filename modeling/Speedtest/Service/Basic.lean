import Speedtest.Access.Gate
import Speedtest.Geo.Lookup
import Speedtest.Http.ClientAddress
import Speedtest.Http.Message
import Speedtest.Service.Counters
import Speedtest.Telemetry.Store

/-!
# The service

What stays the same while the service runs, what changes, and what each request meets: the time, identifiers
that nobody has used, and what the lookup service does. A handler turns a request into a response and the
state after it. It may crash, and then there is no response, but the state after it counts all the same.
-/
namespace Speedtest

/-- What stays the same while the service runs. -/
structure Service where
  mount : Http.Mount
  chunk : Bytes
  defaultChunks : Nat
  coordinate : Geo.Coordinate
  lookup : Geo.Lookup
  gate : Access.Gate
  statsEnabled : Bool
  redactAddresses : Bool
  trustForwardedHeaders : Bool

namespace Service

/-- What changes while the service runs. -/
structure State where
  store : Telemetry.Store
  counters : Counters

/-- What a request meets. -/
structure Moment where
  time : Time.Instant
  recordId : String
  requestId : String
  reply : Http.Reply
  deriving DecidableEq

/-- What a handler comes to: a response, unless it crashed, the state after it, and the locators that the
lookup service was asked for. -/
structure Handled where
  response : Option Http.Response
  state : State
  lookups : List Url := []

/-- A response and nothing else that changed. -/
def State.respond (st : State) (r : Http.Response) : Handled := ⟨some r, st, []⟩

def State.count (st : State) (c : Counter) (n : Nat) : State :=
  { st with counters := st.counters.add c n }

@[simp] theorem State.store_count (st : State) (c : Counter) (n : Nat) :
    (st.count c n).store = st.store := rfl

def State.withStore (st : State) (s : Telemetry.Store) : State := { st with store := s }

/-- The client's address, when the connection is known. -/
def clientText? (s : Service) (r : Http.Request) : Option String :=
  r.peer.map fun peer => Http.ClientAddress.text peer r.headers s.trustForwardedHeaders

/-- The response to a request whose connection is not known. -/
def unknownConnection : Http.Response := .text 500 "missing connection info"

def hasContentType (r : Http.Request) (lead : String) : Bool :=
  (r.headers.text? "content-type").any fun t => Text.startsWith lead.toList t.toList

/-- The parameters of a request's query, behind those that are known already. -/
def withQuery (known : Form.Pairs) (r : Http.Request) : Form.Pairs :=
  match r.target.queryBytes with
  | some q => Form.collect known q
  | none => known

end Service
end Speedtest
