import Speedtest.Service.Basic

/-!
# Giving results out

Stored results are shown to whoever the gate lets pass: one result by its identifier, or the last ones. The
parameters come from a form, when there is one, and from the query.
-/
namespace Speedtest.Service

/-- The most bytes of a login form that are read. -/
def loginLimit : Nat := 16384

def lastResultsId : String := "L100"

/-- The most results that are shown together. -/
def lastResults : Nat := 100

def page (records : List Telemetry.Record) : Json :=
  .object [(Json.Lexeme.encode "data", .array (records.map Telemetry.Record.toJson))]

def pageRecords? (v : Json) : Option (List Telemetry.Record) := do
  let members ← v.readMembers? some ["data"]
  match ← members.lookup "data" with
  | .array items => items.mapM Telemetry.Record.ofJson?
  | _ => none

/-- The results that an identifier stands for. No identifier stands for none. -/
def fetch (store : Telemetry.Store) (id : String) : Telemetry.Outcome (List Telemetry.Record) :=
  if id = lastResultsId then store.last lastResults
  else if id = "" then .ok []
  else match store.find id with
    | .ok rec => .ok [rec]
    | .failed e => .failed e
    | .crashed => .crashed

def shown (fetched : Telemetry.Outcome (List Telemetry.Record)) : Http.Response :=
  match fetched with
  | .ok records => .json (page records)
  | _ => .bare 500

/-- The parameters of a request for results, as far as its body can be read. -/
def loginParameters (r : Http.Request) : Except Http.BodyFault Form.Pairs :=
  let form :=
    if hasContentType r "application/x-www-form-urlencoded" then
      (r.body.gather loginLimit).map (Form.collect [])
    else .ok []
  form.map fun known => withQuery known r

/-- The response to a request that may not pass. Presenting no credentials at all is told apart. -/
def turnedAway (r : Http.Request) (params : Form.Pairs) : Http.Response :=
  let presented := r.headers.has "authorization" || (params.lookup "password").isSome
  (Http.Response.text (if presented then 403 else 401) "Unauthorized").withField
    "www-authenticate" (Bytes.ofAscii "Bearer")

def results (s : Service) (r : Http.Request) (st : State) : Handled :=
  if !s.statsEnabled then st.respond (.text 200 "Statistics are disabled")
  else if !s.gate.configured then st.respond (.text 403 "Statistics password is not configured")
  else match loginParameters r with
    | .error _ => st.respond (.bare 400)
    | .ok params =>
      match s.gate.authorize r.headers params with
      | none => ⟨none, st, []⟩
      | some false => st.respond (turnedAway r params)
      | some true => st.respond (shown (fetch st.store ((params.lookup "id").getD "")))

end Speedtest.Service
