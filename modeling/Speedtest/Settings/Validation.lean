import Speedtest.Address.Network
import Speedtest.Download.Chunk
import Speedtest.Settings.Basic
import Speedtest.Telemetry.Store

/-!
# Checking settings

Settings that were read may still make no sense. Every problem is reported, in one order, and not only
the first. The networks of trusted relays are a single setting, of which the first bad entry is reported.
-/
namespace Speedtest.Settings

/-- What is wrong with settings. -/
inductive Problem where
  | relayPort
  | badPort (port : String)
  | badNetwork (entry : Address.AllowList.BadEntry)
  | missingTlsFile (name : String)
  | unknownDatabase (name : String)
  | tooManyChunks (count : Nat)
  deriving DecidableEq

def Problem.message : Problem → String
  | .relayPort => "proxyprotocol_port is deprecated, use enable_proxyprotocol"
  | .badPort port => "listen_port " ++ Text.quoted port ++ " is not a valid port"
  | .badNetwork e =>
    "proxyprotocol_allowed_ips entry " ++ Text.quoted e.entry ++ " is not a valid CIDR: " ++ e.reason
  | .missingTlsFile name => "enable_tls is set but " ++ name ++ " is empty"
  | .unknownDatabase name => "unsupported database type: " ++ name
  | .tooManyChunks count =>
    "download_chunks " ++ String.ofList (Text.decimal count) ++ " exceeds the maximum of 1024"

/-- The number of a port, with an optional plus sign. -/
def portNumber? (port : String) : Option Nat := Text.readCount? 65536 port.toList

def networkProblems (entries : List String) : List Problem :=
  match Address.AllowList.ofEntries entries with
  | .ok _ => []
  | .error e => [.badNetwork e]

/-- The problems of the settings, in order. -/
def problems (s : Settings) : List Problem :=
  (if s.usesRelayPort then [.relayPort] else []) ++
  (if s.listenPort != "" && (portNumber? s.listenPort).isNone then [.badPort s.listenPort] else []) ++
  networkProblems s.trustedRelays ++
  (if s.tls && s.tlsCertFile == "" then [.missingTlsFile "tls_cert_file"] else []) ++
  (if s.tls && s.tlsKeyFile == "" then [.missingTlsFile "tls_key_file"] else []) ++
  (if Telemetry.isKnownBackend s.databaseType then [] else [.unknownDatabase s.databaseType]) ++
  (if Download.maxChunks < s.downloadChunks then [.tooManyChunks s.downloadChunks] else [])

end Speedtest.Settings
