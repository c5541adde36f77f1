import Speedtest.Address.Network
import Speedtest.Service.Basic
import Speedtest.Serving.Listener
import Speedtest.Settings.Loading
import Speedtest.Tls.Identity

/-!
# Building the server

A server is built from the settings and from what was found out before: the chunk that downloads repeat, the
coordinate, the lookup service and the store. Building mounts the endpoints first, then reads the certificate and
the key, then the networks of trusted relays. A base that nothing can be mounted under makes building crash,
which is not the same as failing.
-/
namespace Speedtest.Serving

/-- Why the server does not start. -/
inductive StartupError where
  | metricsAddress (address : String)
  | metricsUnavailable (address : String)
  | lookup (e : Geo.LookupError)
  | storage (e : Telemetry.StoreError)
  | listener (e : ListenerError)
  | tls (fault : Tls.Fault)
  | allowList (entry : Address.AllowList.BadEntry)
  deriving DecidableEq

def StartupError.message : StartupError → String
  | .metricsAddress address => "invalid metrics address " ++ Text.quoted address
  | .metricsUnavailable address => "failed to install metrics exporter: " ++ address
  | .lookup e => "failed to build ipinfo client: " ++ e.message
  | .storage e => "failed to open storage: " ++ e.message
  | .listener e => "failed to bind listener: " ++ e.message
  | .tls fault => "TLS setup failed: " ++ fault.message
  | .allowList entry => "invalid proxy allow-list: " ++ entry.message

/-- A server that is ready to run. -/
structure Server where
  service : Service
  identity : Option Tls.Identity
  relays : Option Address.AllowList
  http2 : Bool
  graceSeconds : Nat

/-- What building comes to. -/
inductive Building (α : Type) where
  | done (a : α)
  | failed (e : StartupError)
  | crashed

/-- The outcome of building something more out of what was built. -/
def Building.bind {α β : Type} (b : Building α) (f : α → Building β) : Building β :=
  match b with
  | .done a => f a
  | .failed e => .failed e
  | .crashed => .crashed

instance : Monad Building where
  pure := .done
  bind := .bind

/-- What building comes to when it cannot crash. -/
def Building.ofExcept {ε α : Type} (wrap : ε → StartupError) : Except ε α → Building α
  | .ok a => .done a
  | .error e => .failed (wrap e)

def serviceOf (s : Settings) (mount : Http.Mount) (chunk : Bytes) (coordinate : Geo.Coordinate)
    (lookup : Geo.Lookup) : Service where
  mount := mount
  chunk := chunk
  defaultChunks := s.downloadChunks
  coordinate := coordinate
  lookup := lookup
  gate := (Access.PasswordGate.mk s.statisticsPassword).toGate
  statsEnabled := s.databaseType != "none"
  redactAddresses := s.redactAddresses
  trustForwardedHeaders := s.trustForwardedHeaders

def mountOf (s : Settings) : Building Http.Mount :=
  match Http.Mount.ofBase? s.urlBase with
  | some mount => .done mount
  | none => .crashed

/-- The identity of the settings, when connections are to be secure. -/
def identityOf (files : Files) (s : Settings) : Building (Option Tls.Identity) :=
  if s.tls then
    .ofExcept .tls ((Tls.Identity.load files s.tlsCertFile s.tlsKeyFile).map some)
  else .done none

/-- The trusted relays of the settings, when connections may start with a header. -/
def relaysOf (s : Settings) : Building (Option Address.AllowList) :=
  if s.relayHeaders then
    .ofExcept .allowList ((Address.AllowList.ofEntries s.trustedRelays).map some)
  else .done none

def Server.build (files : Files) (s : Settings) (chunk : Bytes) (coordinate : Geo.Coordinate)
    (lookup : Geo.Lookup) : Building Server := do
  let mount ← mountOf s
  let identity ← identityOf files s
  let relays ← relaysOf s
  return {
    service := serviceOf s mount chunk coordinate lookup
    identity
    relays
    http2 := s.http2
    graceSeconds := s.shutdownGraceSeconds }

end Speedtest.Serving
