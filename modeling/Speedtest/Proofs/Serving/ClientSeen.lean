import Speedtest.Proofs.Relay.Forms
import Speedtest.Proofs.Relay.Trust
import Speedtest.Proofs.Service.Storing
import Speedtest.Serving.Connection
import Speedtest.Wire.Requests

/-!
# The client that a connection's requests are taken to come from

While forwarding fields are not trusted, the address that the service sees is a function of the connection alone:
that of the peer, unless a trusted peer names another in a header in front of the stream. Nothing that the
requests carry enters it, so the records that they leave behind hold that address and no other.
-/
namespace Speedtest.Serving

open Service (Arrival storing submitted?)

def canonicalText (ip : Address.Ip) : String := String.ofList ip.canonical.text

def recordedText (s : Service) (ip : Address.Ip) : String :=
  if s.redactAddresses then "0.0.0.0" else canonicalText ip

/-- What is left of a connection's stream: all of it where no header is looked for, and otherwise what the header is
followed by. -/
inductive IsLeft (s : Server) (c : Connection) : Relay.Feed → Prop where
  | all (hrelays : s.relays = none) : IsLeft s c c.feed
  | behind {list : Address.AllowList} {h : Option Relay.Header} {left : Relay.Feed} (hrelays : s.relays = some list)
      (hbytes : Relay.Answers c.feed.bytes c.feed.ending (some (.ok (h, left.bytes))))
      (hending : left.ending = c.feed.ending) : IsLeft s c left

/-- All that a connection carries is taken to come from one address: every request on it is, whatever the state
of the service, and so is every record that it stores. -/
structure SeenAs (s : Server) (decode : Decoder) (c : Connection) (ip : Address.Ip) : Prop where
  /-- The requests that are served are those that are found in what is left of the stream, one for one and as they
  stand but for the peer. -/
  served : ∀ arrivals, s.arrivals decode c = .ok arrivals → ∃ left client, IsLeft s c left ∧ client.ip = ip ∧
    arrivals.map (·.2) = (decode left).map fun r => { r with peer := some client }
  request : ∀ arrivals, s.arrivals decode c = .ok arrivals → ∀ a ∈ arrivals,
    s.service.clientText? a.2 = some (canonicalText ip)
  record : ∀ arrivals, s.arrivals decode c = .ok arrivals → ∀ a ∈ arrivals, ∀ st,
    (s.service.exchange a.1 a.2 st).2.store = st.store ∨
    ∃ rec, rec.ipAddress = recordedText s.service ip ∧
      (s.service.exchange a.1 a.2 st).2.store = storing st.store rec
  connection : ∀ st, ∃ recs : List Telemetry.Record,
    (∀ rec ∈ recs, rec.ipAddress = recordedText s.service ip) ∧
    (s.serve decode c st).2.store = recs.foldl storing st.store

variable {s : Server} {decode : Decoder} {c : Connection}

/-! ## Requests -/

theorem clientText?_of_peer {s : Service} (hoff : s.trustForwardedHeaders = false)
    {r : Http.Request} {client : Address.Endpoint} (hpeer : r.peer = some client) :
    s.clientText? r = some (canonicalText client.ip) := by
  rw [Service.clientText?, hpeer, hoff]
  rfl

/-- A record that a request submits holds the address that the request is taken to come from. -/
theorem ipAddress_of_submitted {s : Service} {m : Service.Moment} {r : Http.Request} {ip : Address.Ip}
    (hseen : s.clientText? r = some (canonicalText ip)) {rec : Telemetry.Record}
    (hrec : submitted? s m r = some rec) : rec.ipAddress = recordedText s ip := by
  obtain ⟨client, form, hclient, -, rfl⟩ := Service.submitted?_eq_some hrec
  obtain rfl := Option.some.inj (hclient.symm.trans hseen)
  rfl

/-! ## Connections -/

theorem unwrap_of_no_relays (h : s.relays = none) (peer : Address.Endpoint) (f : Relay.Feed) :
    s.unwrap peer f = .ok (peer, f) := by
  rw [Server.unwrap, h]

theorem unwrap_of_relays {list : Address.AllowList} (h : s.relays = some list) (peer : Address.Endpoint)
    (f : Relay.Feed) : s.unwrap peer f = Relay.unwrap list peer f := by
  rw [Server.unwrap, h]

/-- Where requests arrive, the stream was taken apart, and they are what is found in the rest of it. -/
theorem exists_unwrap_of_arrivals {arrivals : List Arrival} (harrivals : s.arrivals decode c = .ok arrivals) :
    ∃ client left, s.unwrap c.peer c.feed = .ok (client, left) ∧
      arrivals.map (·.2) = (decode left).map fun r => { r with peer := some client } := by
  unfold Server.arrivals at harrivals
  cases hunwrap : s.unwrap c.peer c.feed with
  | error e =>
    rw [hunwrap] at harrivals
    exact nomatch harrivals
  | ok found =>
    rw [hunwrap] at harrivals
    obtain rfl := Except.ok.inj harrivals
    refine ⟨found.1, found.2, rfl, ?_⟩
    apply List.ext_getElem
    · simp
    · intro n _ _
      simp

/-- What is found behind a header is what is left of the stream. -/
theorem isLeft_of_unwrap {client : Address.Endpoint} {left : Relay.Feed}
    (h : s.unwrap c.peer c.feed = .ok (client, left)) : IsLeft s c left := by
  cases hrelays : s.relays with
  | none =>
    rw [unwrap_of_no_relays hrelays] at h
    obtain ⟨-, rfl⟩ := Prod.mk.inj (Except.ok.inj h)
    exact .all hrelays
  | some list =>
    rw [unwrap_of_relays hrelays] at h
    obtain ⟨header, hwhole, hending, -⟩ := Relay.unwrap_eq_ok h
    exact .behind hrelays (Relay.whole_eq_iff.1 hwhole) hending

/-- Requests arrive exactly where something is left of the stream. -/
theorem exists_arrivals_iff : (∃ arrivals, s.arrivals decode c = .ok arrivals) ↔ ∃ left, IsLeft s c left := by
  constructor
  · rintro ⟨arrivals, harrivals⟩
    obtain ⟨client, left, hunwrap, -⟩ := exists_unwrap_of_arrivals harrivals
    exact ⟨left, isLeft_of_unwrap hunwrap⟩
  · rintro ⟨left, hleft⟩
    cases hleft with
    | all hrelays => exact ⟨_, by rw [Server.arrivals, unwrap_of_no_relays hrelays]; rfl⟩
    | @behind list h left hrelays hbytes hending =>
      obtain ⟨left, -, hok⟩ := Relay.unwrap_of_whole (Relay.whole_eq_iff.2 hbytes)
      exact ⟨_, by rw [Server.arrivals, unwrap_of_relays hrelays, hok]; rfl⟩

/-- Whoever is found to be the client is seen on every request. -/
theorem seenAs_of_unwrap (hoff : s.service.trustForwardedHeaders = false) {ip : Address.Ip}
    (h : ∀ client left, s.unwrap c.peer c.feed = .ok (client, left) → client.ip = ip) :
    SeenAs s decode c ip := by
  have hserved : ∀ arrivals, s.arrivals decode c = .ok arrivals → ∃ left client, IsLeft s c left ∧ client.ip = ip ∧
      arrivals.map (·.2) = (decode left).map fun r => { r with peer := some client } := by
    intro arrivals harrivals
    obtain ⟨client, left, hunwrap, hrequests⟩ := exists_unwrap_of_arrivals harrivals
    exact ⟨left, client, isLeft_of_unwrap hunwrap, h client left hunwrap, hrequests⟩
  have hrequest : ∀ arrivals, s.arrivals decode c = .ok arrivals → ∀ a ∈ arrivals,
      s.service.clientText? a.2 = some (canonicalText ip) := by
    intro arrivals harrivals a ha
    obtain ⟨left, client, -, rfl, hrequests⟩ := hserved arrivals harrivals
    have hmem : a.2 ∈ arrivals.map (·.2) := List.mem_map_of_mem ha
    rw [hrequests] at hmem
    obtain ⟨r, -, hr⟩ := List.mem_map.1 hmem
    exact clientText?_of_peer hoff (congrArg Http.Request.peer hr).symm
  refine ⟨hserved, hrequest, ?_, ?_⟩
  · intro arrivals harrivals a ha st
    rw [Service.store_exchange]
    cases hrec : submitted? s.service a.1 a.2 with
    | none => exact .inl rfl
    | some rec =>
      exact .inr ⟨rec, ipAddress_of_submitted (hrequest arrivals harrivals a ha) hrec, rfl⟩
  · intro st
    cases harrivals : s.arrivals decode c with
    | error e =>
      refine ⟨[], by simp, ?_⟩
      rw [Server.serve, harrivals]
      rfl
    | ok arrivals =>
      refine ⟨arrivals.filterMap fun a => submitted? s.service a.1 a.2, ?_, ?_⟩
      · intro rec hrec
        obtain ⟨a, ha, hsub⟩ := List.mem_filterMap.1 hrec
        exact ipAddress_of_submitted (hrequest arrivals harrivals a ha) hsub
      · rw [Server.serve, harrivals]
        exact Service.store_exchangeAll _ _ _

/-- A peer that may not name a client is the client. -/
theorem unwrap_of_untrusted (h : ∀ list, s.relays = some list → ¬ Relay.Trusted list c.peer)
    {client : Address.Endpoint} {left : Relay.Feed}
    (hunwrap : s.unwrap c.peer c.feed = .ok (client, left)) : client = c.peer := by
  cases hrelays : s.relays with
  | none =>
    rw [unwrap_of_no_relays hrelays] at hunwrap
    exact (Prod.mk.inj (Except.ok.inj hunwrap)).1.symm
  | some list =>
    rw [unwrap_of_relays hrelays] at hunwrap
    obtain ⟨header, -, -, hclient⟩ := Relay.unwrap_eq_ok hunwrap
    exact hclient.unnamed fun _ _ => h list hrelays

/-- A trusted peer that sends a header in front of its stream names the client with it. -/
theorem unwrap_of_trusted {list : Address.AllowList} (hrelays : s.relays = some list)
    (htrusted : Relay.Trusted list c.peer) {route : Relay.Route} {payload : Bytes}
    (hsent : Relay.Settles c.feed.bytes (.ok (some (.proxied route), payload))) :
    ∃ left, left.bytes = payload ∧ s.unwrap c.peer c.feed = .ok (route.source, left) := by
  obtain ⟨left, hleft, hok⟩ := Relay.unwrap_of_whole ((Relay.whole_settled c.feed).1 _ hsent)
  have hclient := (Relay.isClient_clientOf list c.peer (some (.proxied route))).named route rfl htrusted
  refine ⟨left, hleft, ?_⟩
  rw [unwrap_of_relays hrelays, ← hclient]
  exact hok list c.peer

/-- While forwarding fields are not trusted, everything on a connection is taken to come from its peer, unless a
header from a trusted peer names the client; then everything on it is taken to come from there. Requests arrive as soon
as something is left of the stream, whoever the peer is. -/
theorem client_seen (s : Server) (decode : Decoder) (c : Connection)
    (hoff : s.service.trustForwardedHeaders = false) :
    ((∀ list, s.relays = some list → ¬ Relay.Trusted list c.peer) → SeenAs s decode c c.peer.ip) ∧
    (∀ list route payload, s.relays = some list → Relay.Trusted list c.peer →
      Relay.Settles c.feed.bytes (.ok (some (.proxied route), payload)) →
      (∃ arrivals, s.arrivals decode c = .ok arrivals) ∧ SeenAs s decode c route.source.ip) ∧
    ((∃ arrivals, s.arrivals decode c = .ok arrivals) ↔ ∃ left, IsLeft s c left) := by
  refine ⟨?_, ?_, exists_arrivals_iff⟩
  · intro huntrusted
    exact seenAs_of_unwrap hoff fun client left h => by rw [unwrap_of_untrusted huntrusted h]
  · intro list route payload hrelays htrusted hsent
    obtain ⟨left, -, hunwrap⟩ := unwrap_of_trusted hrelays htrusted hsent
    refine ⟨⟨_, by rw [Server.arrivals, hunwrap]; rfl⟩, seenAs_of_unwrap hoff fun client left' h => ?_⟩
    obtain ⟨rfl, -⟩ := Prod.mk.inj (Except.ok.inj (h.symm.trans hunwrap))
    rfl

def relayedFrom (network : Address.Network) : Server where
  service := .plain "secret"
  identity := none
  relays := some ⟨[network]⟩
  http2 := false
  graceSeconds := 10

/-- A connection from a relay, whose header names a client. -/
def fromRelay : Connection where
  peer := .v4 ⟨198, 51, 100, 20⟩ 40000
  feed := Relay.cutInside
  moments _ := ⟨.epoch, "record", "request", .refused⟩

/-- Finds one result on every stream, which claims twice to come from somewhere else. -/
def claiming : Decoder := fun _ =>
  [{ method := "POST"
     target := ⟨"/results/telemetry", none⟩
     headers := [Http.Headers.ascii "x-real-ip" "203.0.113.9"]
     body := .ofBytes (Bytes.ofAscii "ip=203.0.113.9")
     peer := none }]

/-- A header in a line, and behind it the bytes of a result that claims as much. -/
def submitting : Connection :=
  { fromRelay with
    feed :=
      ⟨[Relay.TextForm.bytes (.v4 ⟨192, 0, 2, 1⟩ 51000 ⟨198, 51, 100, 2⟩ 443),
        Bytes.ofAscii "POST /results/telemetry HTTP/1.1\r\nx-real-ip: 203.0.113.9\r\ncontent-length: 14\r\n\r\n",
        Bytes.ofAscii "ip=203.0.113.9"], .closed⟩ }

/-- The one request that the bytes make is served and stored as coming from the relay itself where it may not name a
client, and as coming from the client that it names where it may. -/
theorem client_seen_fromRelay :
    let distrusting := relayedFrom (.v4 ⟨10, 0, 0, 0⟩ 8)
    let trusting := relayedFrom (.v4 ⟨198, 51, 100, 0⟩ 24)
    SeenAs distrusting claiming fromRelay (.v4 ⟨198, 51, 100, 20⟩) ∧
    SeenAs trusting claiming fromRelay (.v4 ⟨192, 0, 2, 1⟩) ∧
    (∃ a, trusting.arrivals Wire.decode submitting = .ok [a] ∧ trusting.service.clientText? a.2 = some "192.0.2.1") ∧
    (distrusting.serve Wire.decode submitting ⟨.recent (.empty 1), .start⟩).2.store.records.map (·.ipAddress) =
      ["198.51.100.20"] ∧
    (trusting.serve Wire.decode submitting ⟨.recent (.empty 1), .start⟩).2.store.records.map (·.ipAddress) =
      ["192.0.2.1"] := by
  intro distrusting trusting
  have hdistrusted : ∀ list, distrusting.relays = some list → ¬ Relay.Trusted list fromRelay.peer := by
    intro list hlist
    obtain rfl := Option.some.inj hlist
    rw [← Relay.trusts_iff]
    decide
  have htrusted : Relay.Trusted ⟨[.v4 ⟨198, 51, 100, 0⟩ 24]⟩ fromRelay.peer := by
    rw [← Relay.trusts_iff]
    decide
  obtain ⟨⟨arrivals, harrivals⟩, hseen⟩ := (client_seen trusting Wire.decode submitting rfl).2.1 _ _ _ rfl htrusted
    (Relay.settles_text _ _)
  have hone : arrivals.length = 1 := by
    have hcount : (trusting.arrivals Wire.decode submitting).toOption.map List.length = some 1 := by decide +kernel
    rw [harrivals] at hcount
    exact Option.some.inj hcount
  obtain ⟨a, rfl⟩ := List.length_eq_one_iff.1 hone
  refine ⟨?_, ?_, ⟨a, harrivals, ?_⟩, ?_, ?_⟩
  · exact (client_seen distrusting claiming fromRelay rfl).1 hdistrusted
  · exact ((client_seen trusting claiming fromRelay rfl).2.1 _ _ _ rfl htrusted Relay.settles_cutInside).2
  · exact hseen.request _ harrivals a List.mem_cons_self
  · decide +kernel
  · decide +kernel

end Speedtest.Serving
