import Speedtest.Access.Gate

/-!
# Settings

Everything that the operator of the service can set, with the values that it ships with.
-/
namespace Speedtest

/-- The settings of the service. -/
structure Settings where
  bindAddress : String := ""
  listenPort : String := "8989"
  urlBase : String := ""
  /-- A port of its own for relays, which is no longer supported: it has to be empty or `0`. -/
  relayPort : String := "0"
  relayHeaders : Bool := false
  trustedRelays : List String := ["127.0.0.1/32", "::1/128"]
  serverLat : Float := 0
  serverLng : Float := 0
  lookupKey : String := ""
  lookupUrl : String := "https://ipinfo.io/"
  statisticsPassword : String := Access.placeholderPassword
  redactAddresses : Bool := false
  databaseType : String := "none"
  databaseHostname : String := "localhost"
  databaseName : String := "speedtest"
  databaseUsername : String := "postgres"
  databasePassword : String := ""
  databaseFile : String := "speedtest.db"
  http2 : Bool := false
  tls : Bool := false
  tlsCertFile : String := ""
  tlsKeyFile : String := ""
  downloadChunks : Nat := 4
  shutdownGraceSeconds : Nat := 10
  trustForwardedHeaders : Bool := true
  metricsAddress : String := ""
  logLevel : String := "info"

namespace Settings

/-- Whether the password is the one that the service ships with. -/
def passwordUnset (s : Settings) : Bool := s.statisticsPassword == Access.placeholderPassword

def hasExplicitBind (s : Settings) : Bool := s.bindAddress != "" || s.listenPort != ""

def usesRelayPort (s : Settings) : Bool := s.relayPort != "" && s.relayPort != "0"

end Settings

/-- What a backend is told about where to keep records. -/
structure StoreSettings where
  file : String
  hostname : String
  username : String
  password : String
  database : String
  deriving DecidableEq

/-- The part of the settings that a backend is told. -/
def Settings.store (s : Settings) : StoreSettings :=
  ⟨s.databaseFile, s.databaseHostname, s.databaseUsername, s.databasePassword, s.databaseName⟩

end Speedtest
