import Speedtest.Settings.Basic
import Speedtest.Toml.Reader

/-!
# Settings from a table

Each setting has a name and a type. A name that is missing leaves the value that the service ships with;
a name that is none is passed over; a value of another type makes the whole table unusable. A number may
be written as an integer where a float is wanted, and a date stands for its text.
-/
namespace Speedtest.Settings

def textNames : List String :=
  ["bind_address", "listen_port", "url_base", "proxyprotocol_port", "ipinfo_api_key", "ipinfo_url",
    "statistics_password", "database_type", "database_hostname", "database_name",
    "database_username", "database_password", "database_file", "tls_cert_file", "tls_key_file",
    "metrics_address", "log_level"]

def asText? : Toml.Value → Option String
  | .text s => some s
  | .moment s => some s
  | _ => none

def asBool? : Toml.Value → Option Bool
  | .boolean b => some b
  | _ => none

def asTexts? : Toml.Value → Option (List String)
  | .array items => items.mapM asText?
  | _ => none

/-- The float of a number; an integer counts as the float nearest to it. -/
def asFloat? : Toml.Value → Option Float
  | .float x => some x.toFloat
  | .integer n => some (Decimal.Reading.number ⟨n < 0, n.natAbs, 0⟩).toFloat
  | _ => none

/-- An integer from zero up to a bound, which is left out. -/
def asCount? (bound : Nat) : Toml.Value → Option Nat
  | .integer n => if 0 ≤ n ∧ n < bound then some n.toNat else none
  | _ => none

/-- The setting of a name, or the value that it has when the name is missing. -/
def setting {α : Type} (t : Toml.Table) (name : String) (read : Toml.Value → Option α)
    (default : α) : Option α :=
  match t.get? name with
  | some v => read v
  | none => some default

def ofTable? (t : Toml.Table) : Option Settings := do
  let d : Settings := {}
  return {
    bindAddress := ← setting t "bind_address" asText? d.bindAddress
    listenPort := ← setting t "listen_port" asText? d.listenPort
    urlBase := ← setting t "url_base" asText? d.urlBase
    relayPort := ← setting t "proxyprotocol_port" asText? d.relayPort
    relayHeaders := ← setting t "enable_proxyprotocol" asBool? d.relayHeaders
    trustedRelays := ← setting t "proxyprotocol_allowed_ips" asTexts? d.trustedRelays
    serverLat := ← setting t "server_lat" asFloat? d.serverLat
    serverLng := ← setting t "server_lng" asFloat? d.serverLng
    lookupKey := ← setting t "ipinfo_api_key" asText? d.lookupKey
    lookupUrl := ← setting t "ipinfo_url" asText? d.lookupUrl
    statisticsPassword := ← setting t "statistics_password" asText? d.statisticsPassword
    redactAddresses := ← setting t "redact_ip_addresses" asBool? d.redactAddresses
    databaseType := ← setting t "database_type" asText? d.databaseType
    databaseHostname := ← setting t "database_hostname" asText? d.databaseHostname
    databaseName := ← setting t "database_name" asText? d.databaseName
    databaseUsername := ← setting t "database_username" asText? d.databaseUsername
    databasePassword := ← setting t "database_password" asText? d.databasePassword
    databaseFile := ← setting t "database_file" asText? d.databaseFile
    http2 := ← setting t "enable_http2" asBool? d.http2
    tls := ← setting t "enable_tls" asBool? d.tls
    tlsCertFile := ← setting t "tls_cert_file" asText? d.tlsCertFile
    tlsKeyFile := ← setting t "tls_key_file" asText? d.tlsKeyFile
    downloadChunks := ← setting t "download_chunks" (asCount? (Nat.pow 2 32)) d.downloadChunks
    shutdownGraceSeconds := ←
      setting t "shutdown_grace_secs" (asCount? (Nat.pow 2 64)) d.shutdownGraceSeconds
    trustForwardedHeaders := ← setting t "trust_forwarded_headers" asBool? d.trustForwardedHeaders
    metricsAddress := ← setting t "metrics_address" asText? d.metricsAddress
    logLevel := ← setting t "log_level" asText? d.logLevel }

end Speedtest.Settings
