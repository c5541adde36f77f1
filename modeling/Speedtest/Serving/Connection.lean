import Speedtest.Relay.Unwrap
import Speedtest.Service.Answer
import Speedtest.Serving.Server

/-!
# Serving connections

A connection is served alone: the header in front of it is taken off, which tells the client, and every request
that the rest of its stream carries is answered as coming from that client. How requests are cut out of a
stream is not decided here; whatever does it sees the stream alone and not the client. A connection whose
header is bad gets no answer and is counted.
-/
namespace Speedtest.Serving

/-- A connection: who opened it, what arrives on it, and what its requests meet, one after another. -/
structure Connection where
  peer : Address.Endpoint
  feed : Relay.Feed
  moments : Nat → Service.Moment

abbrev Decoder := Relay.Feed → List Http.Request

namespace Server

/-- The client of a connection and what is left of its stream. Headers are looked for only where connections may
start with one. -/
def unwrap (s : Server) (peer : Address.Endpoint) (feed : Relay.Feed) :
    Except Relay.HeaderError (Address.Endpoint × Relay.Feed) :=
  match s.relays with
  | some list => Relay.unwrap list peer feed
  | none => .ok (peer, feed)

/-- The requests of a connection as they reach the service: each of them comes from the client. -/
def arrivals (s : Server) (decode : Decoder) (c : Connection) :
    Except Relay.HeaderError (List Service.Arrival) :=
  (s.unwrap c.peer c.feed).map fun (client, rest) =>
    (decode rest).mapIdx fun n r => (c.moments n, { r with peer := some client })

def serve (s : Server) (decode : Decoder) (c : Connection) (st : Service.State) :
    List Service.Answer × Service.State :=
  match s.arrivals decode c with
  | .ok arrivals => s.service.exchangeAll arrivals st
  | .error _ => ([], st.count .badHeaders 1)

/-- Serves connections one after another. -/
def serveAll (s : Server) (decode : Decoder) :
    List Connection → Service.State → List (List Service.Answer) × Service.State
  | [], st => ([], st)
  | c :: rest, st =>
    let (answers, st) := s.serve decode c st
    let (others, st) := serveAll s decode rest st
    (answers :: others, st)

end Server
end Speedtest.Serving
