import Mathlib.Data.List.Forall2
import Speedtest.Proofs.Serving.ClientSeen

/-!
# Hidden addresses stay hidden

A service that hides addresses makes the same records of the same reports, times and identifiers apart, wherever the
reports come from and whatever they and the headers in front of them say about that. Two such servers that get the
same reports, and any other requests besides, keep the same results.
-/
namespace Speedtest

namespace Service

/-! ## Reports that say the same -/

/-- The fields that tell how the body of a report is to be read, and those that are kept with it. -/
def reportFields : List String := ["content-type", "user-agent", "accept-language"]

/-- Two requests that say the same in all that a record is made of. -/
structure SameReport (r r' : Http.Request) : Prop where
  query : r'.target.query = r.target.query
  content : r'.body.frames.flatten = r.body.frames.flatten
  failure : r'.body.failure = r.body.failure
  fields : ∀ name ∈ reportFields, r'.headers.first? name = r.headers.first? name

/-- Two records of the same result, made at some time and found under some identifier. -/
def SameResult (rec rec' : Telemetry.Record) : Prop :=
  rec' = { rec with timestamp := rec'.timestamp, uuid := rec'.uuid }

variable {s s' : Service} {r r' : Http.Request}

theorem SameReport.text? (h : SameReport r r') {name : String} (hname : name ∈ reportFields) :
    r'.headers.text? name = r.headers.text? name := by
  rw [Http.Headers.text?, Http.Headers.text?, h.fields name hname]

theorem SameReport.gather (h : SameReport r r') (limit : Nat) : r'.body.gather limit = r.body.gather limit := by
  simp only [Http.Body.gather, Http.Body.fits, Http.Body.received, h.content, h.failure]
  rfl

theorem SameReport.readForm (h : SameReport r r') : readForm r' = readForm r := by
  have hkind : isInParts r' = isInParts r := by
    rw [isInParts, hasContentType, h.text? (by decide)]
    rfl
  have hparts : readParts r' = readParts r := by
    simp only [readParts, h.text? (by decide : "content-type" ∈ reportFields), h.gather]
  have hencoded : readEncoded r' = readEncoded r := by
    simp only [readEncoded, h.gather]
  have hquery (fields : Form.Pairs) : withQuery fields r' = withQuery fields r := by
    simp only [withQuery, Http.Target.queryBytes, h.query]
  simp only [Service.readForm, hkind, hparts, hencoded, hquery]

/-- Where addresses are hidden, a record holds nothing of the client that its report came from. -/
theorem SameReport.sameResult (h : SameReport r r') (hhides : s.redactAddresses = true)
    (hhides' : s'.redactAddresses = true) (m m' : Moment) (client client' : String) (form : Form.Pairs) :
    SameResult (record s m client r form) (record s' m' client' r' form) := by
  have hfield {name : String} (hname : name ∈ reportFields) : fieldText r' name = fieldText r name := by
    rw [fieldText, h.text? hname]
    rfl
  have hagent := hfield (by decide : "user-agent" ∈ reportFields)
  have hlanguage := hfield (by decide : "accept-language" ∈ reportFields)
  simp only [SameResult, record, hhides, hhides', hagent, hlanguage, if_true]

/-- Two requests of which both submit results or neither does, and which then say the same. -/
structure Matched (s s' : Service) (r r' : Http.Request) : Prop where
  posts : isPost s' r' = isPost s r
  report : isPost s r = true → SameReport r r'

theorem Matched.from (h : Matched s s' r r') (peer peer' : Option Address.Endpoint) :
    Matched s s' { r with peer := peer } { r' with peer := peer' } := by
  refine ⟨h.posts, fun hpost => ?_⟩
  obtain ⟨query, content, failure, fields⟩ := h.report hpost
  exact ⟨query, content, failure, fields⟩

/-- Requests that match submit the same result where addresses are hidden. -/
theorem Matched.submitted? (h : Matched s s' r r') (hhides : s.redactAddresses = true)
    (hhides' : s'.redactAddresses = true) {peer peer' : Address.Endpoint} (hpeer : r.peer = some peer)
    (hpeer' : r'.peer = some peer') (m m' : Moment) :
    Option.Rel SameResult (submitted? s m r) (submitted? s' m' r') := by
  by_cases hpost : isPost s r = true
  · have hreport := h.report hpost
    simp only [Service.submitted?, h.posts, hpost, if_true, clientText?, hpeer, hpeer', Option.map_some,
      Option.bind_some, hreport.readForm]
    cases readForm r with
    | error response => exact .none
    | ok form => exact .some (hreport.sameResult hhides hhides' m m' _ _ form)
  · rw [Service.submitted?, Service.submitted?, h.posts, if_neg hpost, if_neg hpost]
    exact .none

/-! ## Stores that keep the same -/

/-- Two stores of one kind that hold the same results in the same order. -/
inductive KeepSame : Telemetry.Store → Telemetry.Store → Prop where
  | recent {kept kept' : Telemetry.Recent} (capacity : kept'.capacity = kept.capacity)
    (records : List.Forall₂ SameResult kept.records kept'.records) : KeepSame (.recent kept) (.recent kept')
  | forgetful : KeepSame .forgetful .forgetful
  | broken (reason : String) : KeepSame (.broken reason) (.broken reason)
  | crashing : KeepSame .crashing .crashing

theorem KeepSame.storing {store store' : Telemetry.Store} {rec rec' : Telemetry.Record} (h : KeepSame store store')
    (hsame : SameResult rec rec') : KeepSame (storing store rec) (storing store' rec') := by
  cases h with
  | @recent kept kept' capacity records =>
    refine .recent capacity ?_
    rw [Telemetry.Recent.records_insert, Telemetry.Recent.records_insert, capacity]
    exact List.forall₂_take _ (.cons hsame records)
  | forgetful => exact .forgetful
  | broken reason => exact .broken reason
  | crashing => exact .crashing

theorem KeepSame.foldl_storing {store store' : Telemetry.Store} {recs recs' : List Telemetry.Record}
    (h : KeepSame store store') (hsame : List.Forall₂ SameResult recs recs') :
    KeepSame (recs.foldl Service.storing store) (recs'.foldl Service.storing store') :=
  List.rel_foldl (fun _ _ h _ _ hsame => h.storing hsame) h hsame

end Service

namespace Serving

open Service (Arrival KeepSame SameResult Matched storing submitted?)

/-! ## Connections -/

def Server.brought (s : Server) (decode : Decoder) (c : Connection) : List Telemetry.Record :=
  match s.arrivals decode c with
  | .ok arrivals => arrivals.filterMap fun a => submitted? s.service a.1 a.2
  | .error _ => []

theorem Server.store_serve (s : Server) (decode : Decoder) (c : Connection) (st : Service.State) :
    (s.serve decode c st).2.store = (s.brought decode c).foldl storing st.store := by
  unfold serve brought
  cases s.arrivals decode c with
  | error e => rfl
  | ok arrivals => exact Service.store_exchangeAll _ _ _

/-- A run of connections puts the records into the store that they bring, in order. -/
theorem Server.store_serveAll (s : Server) (decode : Decoder) (cs : List Connection) (st : Service.State) :
    (s.serveAll decode cs st).2.store = (cs.flatMap (s.brought decode)).foldl storing st.store := by
  induction cs generalizing st with
  | nil => rfl
  | cons c cs ih =>
    have hstep : (s.serveAll decode (c :: cs) st).2 = (s.serveAll decode cs (s.serve decode c st).2).2 := rfl
    rw [hstep, ih, s.store_serve, List.flatMap_cons, List.foldl_append]

variable {s s' : Server} {decode decode' : Decoder}

/-- Two connections that are given up both, or behind whose headers the same reports come from any two clients. -/
inductive CarrySame (s s' : Server) (decode decode' : Decoder) (c c' : Connection) : Prop where
  | givenUp {e e' : Relay.HeaderError} (bad : s.unwrap c.peer c.feed = .error e)
    (bad' : s'.unwrap c'.peer c'.feed = .error e')
  | read {client client' : Address.Endpoint} {left left' : Relay.Feed}
    (found : s.unwrap c.peer c.feed = .ok (client, left)) (found' : s'.unwrap c'.peer c'.feed = .ok (client', left'))
    (reports : List.Forall₂ (Matched s.service s'.service) (decode left) (decode' left'))

theorem forall₂_mapIdx {α β γ δ : Type} {R : α → β → Prop} {S : γ → δ → Prop} {l : List α} {l' : List β}
    (h : List.Forall₂ R l l') {f : Nat → α → γ} {f' : Nat → β → δ} (hstep : ∀ n a b, R a b → S (f n a) (f' n b)) :
    List.Forall₂ S (l.mapIdx f) (l'.mapIdx f') := by
  induction h generalizing f f' with
  | nil => exact .nil
  | cons hab _ ih =>
    rw [List.mapIdx_cons, List.mapIdx_cons]
    exact .cons (hstep 0 _ _ hab) (ih fun n => hstep (n + 1))

theorem brought_of_unwrap {c : Connection} {client : Address.Endpoint} {left : Relay.Feed}
    (h : s.unwrap c.peer c.feed = .ok (client, left)) :
    s.brought decode c =
      ((decode left).mapIdx fun n r => ((c.moments n, { r with peer := some client }) : Arrival)).filterMap
        fun a => submitted? s.service a.1 a.2 := by
  rw [Server.brought, Server.arrivals, h]
  rfl

/-- Connections that carry the same bring the same results where addresses are hidden. -/
theorem brought_of_carrySame (hhides : s.service.redactAddresses = true)
    (hhides' : s'.service.redactAddresses = true) {c c' : Connection} (h : CarrySame s s' decode decode' c c') :
    List.Forall₂ SameResult (s.brought decode c) (s'.brought decode' c') := by
  cases h with
  | givenUp bad bad' =>
    simp only [Server.brought, Server.arrivals, bad, bad']
    exact .nil
  | @read client client' left left' found found' reports =>
    -- Every request comes from the client of its own connection, so what is the same is the rest of it.
    let Paired (a a' : Arrival) : Prop :=
      Matched s.service s'.service a.2 a'.2 ∧ a.2.peer = some client ∧ a'.2.peer = some client'
    have hpaired : List.Forall₂ Paired
        ((decode left).mapIdx fun n r => (c.moments n, { r with peer := some client }))
        ((decode' left').mapIdx fun n r => (c'.moments n, { r with peer := some client' })) :=
      forall₂_mapIdx reports fun n r r' hmatched => ⟨hmatched.from _ _, rfl, rfl⟩
    rw [brought_of_unwrap found, brought_of_unwrap found']
    refine List.rel_filterMap (fun a a' h => ?_) hpaired
    exact h.1.submitted? hhides hhides' h.2.1 h.2.2 a.1 a'.1

/-- Two servers that hide addresses keep the same results of connections that carry the same reports, whoever opened
them, whomever headers name as the clients and whatever the reports claim, be it believed or not. -/
theorem serveAll_keepSame (hhides : s.service.redactAddresses = true) (hhides' : s'.service.redactAddresses = true)
    {cs cs' : List Connection} (h : List.Forall₂ (CarrySame s s' decode decode') cs cs') (st st' : Service.State) :
    List.Forall₂ SameResult (cs.flatMap (s.brought decode)) (cs'.flatMap (s'.brought decode')) ∧
    (s.serveAll decode cs st).2.store = (cs.flatMap (s.brought decode)).foldl storing st.store ∧
    (s'.serveAll decode' cs' st').2.store = (cs'.flatMap (s'.brought decode')).foldl storing st'.store ∧
    (KeepSame st.store st'.store →
      KeepSame (s.serveAll decode cs st).2.store (s'.serveAll decode' cs' st').2.store) := by
  have hbrought : List.Forall₂ SameResult (cs.flatMap (s.brought decode)) (cs'.flatMap (s'.brought decode')) :=
    List.rel_flatMap h fun _ _ hcarry => brought_of_carrySame hhides hhides' hcarry
  have hstore := s.store_serveAll decode cs st
  have hstore' := s'.store_serveAll decode' cs' st'
  refine ⟨hbrought, hstore, hstore', fun hkept => ?_⟩
  rw [hstore, hstore']
  exact hkept.foldl_storing hbrought

def discreet (relays : Option Address.AllowList) (trusting : Bool) : Server where
  service := { Service.plain "secret" with redactAddresses := true, trustForwardedHeaders := trusting }
  identity := none
  relays := relays
  http2 := false
  graceSeconds := 10

/-- A report that claims to come from somewhere. -/
def reportFrom (address : String) : Http.Request where
  method := "POST"
  target := ⟨"/results/telemetry", none⟩
  headers := [Http.Headers.ascii "x-real-ip" address, Http.Headers.ascii "user-agent" "probe"]
  body := .ofBytes (Bytes.ofAscii "dl=9&log=from 203.0.113.9")
  peer := none

/-- A connection from elsewhere, whose reports are made under another identifier. -/
def fromElsewhere : Connection where
  peer := .v4 ⟨198, 51, 100, 99⟩ 40001
  feed := ⟨[], .silence⟩
  moments _ := ⟨.epoch, "another", "request", .refused⟩

def keptOf (s : Server) (address : String) (c : Connection) : Telemetry.Store :=
  (s.serveAll (fun _ => [reportFrom address]) [c] ⟨.recent (.empty 2), .start⟩).2.store

/-- One report from behind a relay to a server that believes what it claims, and one to a server that does not. -/
theorem serveAll_keepSame_reports :
    KeepSame (keptOf (discreet (some ⟨[]⟩) true) "203.0.113.9" fromRelay)
      (keptOf (discreet none false) "2001:db8::7" fromElsewhere) ∧
    (keptOf (discreet none false) "2001:db8::7" fromElsewhere).records.map (fun rec => (rec.ipAddress, rec.log)) =
      [("0.0.0.0", "from 0.0.0.0")] := by
  obtain ⟨left, -, hfound⟩ := unwrap_of_trusted (s := discreet (some ⟨[]⟩) true) (c := fromRelay) rfl (.inl rfl)
    Relay.settles_cutInside
  have hmatched : Matched (discreet (some ⟨[]⟩) true).service (discreet none false).service (reportFrom "203.0.113.9")
      (reportFrom "2001:db8::7") := ⟨by decide +kernel, fun _ => ⟨rfl, rfl, rfl, by decide⟩⟩
  have hcarry : CarrySame (discreet (some ⟨[]⟩) true) (discreet none false) (fun _ => [reportFrom "203.0.113.9"])
      (fun _ => [reportFrom "2001:db8::7"]) fromRelay fromElsewhere := .read hfound rfl (.cons hmatched .nil)
  obtain ⟨-, -, -, hkept⟩ := serveAll_keepSame rfl rfl (.cons hcarry .nil) ⟨.recent (.empty 2), .start⟩
    ⟨.recent (.empty 2), .start⟩
  exact ⟨hkept (.recent rfl .nil), by decide +kernel⟩

end Serving
end Speedtest
