import Speedtest.Serving.Server

/-!
# Starting up

What the server needs is set up in one order, and the first thing that fails ends the startup: the lookup
service and with it the server's coordinate, the store, and the server itself. The socket comes last, so that
connections come in only when they can be served. A process also publishes its counters at an address of
their own, which has to be one.
-/
namespace Speedtest.Serving

/-- A server that is ready to run, the state that it starts from, and the locators that the lookup service was
asked for on the way. -/
structure Ready where
  server : Server
  state : Service.State
  lookups : List Url

def configuredCoordinate (s : Settings) : Geo.Coordinate := ⟨s.serverLat, s.serverLng⟩

/-- Builds a server from settings, with the bytes that downloads repeat. -/
def prepare (files : Files) (reply : Http.Reply) (chunk : Bytes) (s : Settings) : Building Ready := do
  let lookup ← Building.ofExcept .lookup (Geo.Lookup.ofSettings s.lookupUrl s.lookupKey)
  let asked := lookup.serverCoordinate reply (configuredCoordinate s)
  let store ← Building.ofExcept .storage (Telemetry.Store.ofName s.databaseType)
  let server ← Server.build files s chunk asked.result lookup
  return ⟨server, ⟨store, .start⟩, asked.requests⟩

/-- Where the counters are published, if anywhere. -/
def metricsEndpoint (m : Machine) (s : Settings) : Building (Option Address.Endpoint) :=
  if s.metricsAddress = "" then .done none
  else match Address.Endpoint.ofText? s.metricsAddress.toList with
    | none => .failed (.metricsAddress s.metricsAddress)
    | some e =>
      if m.owns e.ip then .done (some (m.settle e))
      else .failed (.metricsUnavailable s.metricsAddress)

/-- What a process serves with: the server, where the counters are published, and the socket. -/
structure Started where
  ready : Ready
  metrics : Option Address.Endpoint
  socket : Socket

def socketOf (m : Machine) (inherited : List Socket) (s : Settings) : Building Socket :=
  .ofExcept .listener (listen m s inherited)

def startUp (m : Machine) (files : Files) (reply : Http.Reply) (chunk : Bytes)
    (inherited : List Socket) (s : Settings) : Building Started := do
  let metrics ← metricsEndpoint m s
  let ready ← prepare files reply chunk s
  let socket ← socketOf m inherited s
  return ⟨ready, metrics, socket⟩

end Speedtest.Serving
