import Speedtest.Json.Record
import Speedtest.Time.Instant

/-!
# Telemetry records

A record is one result that a client sent in, with the time of its arrival. What was measured is kept as
the client wrote it. In JSON a record is an object of texts with all its fields.
-/
namespace Speedtest.Telemetry

/-- One result of a speed test. -/
structure Record where
  timestamp : Time.Instant
  ipAddress : String
  ispInfo : String
  extra : String
  userAgent : String
  language : String
  download : String
  upload : String
  ping : String
  jitter : String
  log : String
  uuid : String
  deriving DecidableEq

namespace Record

/-- The record with nothing in it, at the epoch. -/
def blank : Record := ⟨.epoch, "", "", "", "", "", "", "", "", "", "", ""⟩

/-- The names of the fields, in order. -/
def fieldNames : List String :=
  ["timestamp", "ip_address", "isp_info", "extra", "user_agent", "language", "download", "upload",
    "ping", "jitter", "log", "uuid"]

/-- The texts of the fields, in order. -/
def fieldTexts (r : Record) : List String :=
  [String.ofList r.timestamp.text, r.ipAddress, r.ispInfo, r.extra, r.userAgent, r.language,
    r.download, r.upload, r.ping, r.jitter, r.log, r.uuid]

def toJson (r : Record) : Json := .ofFields (fieldNames.zip r.fieldTexts)

/-- The record of the texts of its fields, when the time is one. -/
def ofTexts? : List String → Option Record
  | [time, ip, isp, extra, agent, language, down, up, ping, jitter, log, uuid] =>
    (Time.Instant.ofText? time.toList).map fun t =>
      ⟨t, ip, isp, extra, agent, language, down, up, ping, jitter, log, uuid⟩
  | _ => none

/-- The record that a document holds; every field has to be there. -/
def ofJson? (v : Json) : Option Record := do
  let fields ← v.readFields? fieldNames
  let texts ← fieldNames.mapM fun name => fields.lookup name
  ofTexts? texts

end Record
end Speedtest.Telemetry
