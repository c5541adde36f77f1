import Speedtest.Proofs.Http.ClientNaming
import Speedtest.Proofs.Service.Fields
import Speedtest.Proofs.Service.Provider
import Speedtest.Proofs.Serving.Anonymity

/-!
# What becomes of the client's address

Of the fields that may name a client nothing gets into the service but the address that they come to. It is what a
record holds, what a client is told and what the lookup service is asked for, in the one text that this address has. Two
requests that differ in nothing but their peers and these fields, and come to the same address, are the same to it.
-/
namespace Speedtest.Service

open Http.ClientAddress (Place Resolves)

/-- Two requests that are the same but for their connections and the fields that may name their clients. -/
structure SameBesides (r r' : Http.Request) : Prop where
  method : r'.method = r.method
  target : r'.target = r.target
  body : r'.body = r.body
  fields : ∀ name ∉ Place.all.map Place.name, r'.headers.first? name = r.headers.first? name

variable {s : Service} {r r' : Http.Request}

namespace SameBesides

theorem sameReport (h : SameBesides r r') : SameReport r r' := by
  have hother : ∀ name ∈ reportFields, name ∉ Place.all.map Place.name := by decide
  exact ⟨by rw [h.target], by rw [h.body], by rw [h.body], fun name hname => h.fields name (hother name hname)⟩

theorem record (h : SameBesides r r') (m : Moment) (client : String) (form : Form.Pairs) :
    Service.record s m client r' form = Service.record s m client r form := by
  have hagent := h.sameReport.text? (by decide : "user-agent" ∈ reportFields)
  have hlanguage := h.sameReport.text? (by decide : "accept-language" ∈ reportFields)
  simp only [Service.record, fieldText, hagent, hlanguage]

theorem submit (h : SameBesides r r') (m : Moment) (client : String) (st : State) :
    Service.submit s m client r' st = Service.submit s m client r st := by
  rw [Service.submit, Service.submit, h.sameReport.readForm]
  cases readForm r with
  | error response => rfl
  | ok form => simp only [h.record]

theorem tellAddress (h : SameBesides r r') (m : Moment) (client : String) (st : State) :
    Service.tellAddress s m client r' st = Service.tellAddress s m client r st := by
  have hwants : wantsProvider r' = wantsProvider r := by rw [wantsProvider, h.target, wantsProvider]
  have hunit : unitAsked r' = unitAsked r := by rw [unitAsked, h.target, unitAsked]
  simp only [Service.tellAddress, whereabouts, hwants, hunit]

/-- The results are shown to both or to neither, as far as the gate makes no difference between them. -/
theorem results (h : SameBesides r r')
    (hgate : ∀ params, s.gate.authorize r'.headers params = s.gate.authorize r.headers params) (st : State) :
    Service.results s r' st = Service.results s r st := by
  have hkind := h.sameReport.text? (by decide : "content-type" ∈ reportFields)
  have hcredentials := h.fields "authorization" (by decide)
  have hlogin : loginParameters r' = loginParameters r := by
    simp only [loginParameters, hasContentType, hkind, h.body, withQuery, h.target]
    rfl
  have haway (params : Form.Pairs) : turnedAway r' params = turnedAway r params := by
    simp only [turnedAway, Http.Headers.has, hcredentials]
    rfl
  simp only [Service.results, hlogin, hgate, haway]

theorem handle (h : SameBesides r r') (hclient : s.clientText? r' = s.clientText? r) {e : Endpoint}
    (hgate : e = .stats → ∀ params, s.gate.authorize r'.headers params = s.gate.authorize r.headers params)
    (m : Moment) (st : State) : Service.handle s m e r' st = Service.handle s m e r st := by
  cases e with
  | empty => simp only [Service.handle, upload, h.body]
  | garbage => simp only [Service.handle, download, chunksAsked, h.target]
  | stats => simp only [Service.handle, h.results (hgate rfl)]
  | getIp => simp only [Service.handle, hclient, h.tellAddress]
  | telemetry => simp only [Service.handle, hclient, h.submit]

/-- Requests that differ only in how they name their client are answered alike where the client is the same. -/
theorem exchange (h : SameBesides r r') (hclient : s.clientText? r' = s.clientText? r)
    (hgate : Endpoint.find? s.mount r.target.path = some .stats →
      ∀ params, s.gate.authorize r'.headers params = s.gate.authorize r.headers params) (m : Moment) (st : State) :
    s.exchange m r' st = s.exchange m r st := by
  have hroute : route s m r' st = route s m r st := by
    rw [route, route, h.target, h.method]
    cases hfind : Endpoint.find? s.mount r.target.path with
    | none => rfl
    | some e => simp only [h.handle hclient fun he => hgate (hfind.trans (congrArg some he))]
  have hid : requestId m r' = requestId m r := by rw [requestId, requestId, h.fields "x-request-id" (by decide)]
  simp only [Service.exchange, answer, hroute, hid]

theorem submitted? (h : SameBesides r r') (hclient : s.clientText? r' = s.clientText? r) (m : Moment) :
    Service.submitted? s m r' = Service.submitted? s m r := by
  have hpost : isPost s r' = isPost s r := by rw [isPost, h.target, h.method, isPost]
  simp only [Service.submitted?, hpost, hclient, h.sameReport.readForm, h.record]

end SameBesides

/-! ## Lookups -/

/-- The lookup service is asked for what the handler of a request asks it for. -/
theorem lookups_exchange (s : Service) (m : Moment) (r : Http.Request) (st : State) :
    (s.exchange m r st).1.lookups = (handled? s m r st).elim [] Handled.lookups := by
  have hroute : (s.exchange m r st).1.lookups = (route s m r st).1.lookups := rfl
  rw [hroute]
  cases hhandled : handled? s m r st with
  | some h => rw [route_of_handled? hhandled, Option.elim_some]
  | none =>
    rw [Option.elim_none, route]
    cases hfind : Endpoint.find? s.mount r.target.path with
    | none => rfl
    | some e =>
      by_cases hoptions : r.method = "OPTIONS"
      · simp only [hoptions, if_true]
      by_cases hanswers : e.answersTo r.method = true
      · have hled := handled?_of_answers hfind hoptions hanswers m st
        exact absurd (hled.symm.trans hhandled) (Option.some_ne_none _)
      · simp only [hoptions, hanswers, if_false]
        rfl

theorem lookups_results (s : Service) (r : Http.Request) (st : State) : (results s r st).lookups = [] := by
  unfold results
  split
  · rfl
  · split
    · rfl
    · split
      · rfl
      · split <;> rfl

theorem lookups_submit (s : Service) (m : Moment) (client : String) (r : Http.Request) (st : State) :
    (submit s m client r st).lookups = [] := by
  unfold submit
  split
  · rfl
  · unfold keep
    dsimp only
    split <;> rfl

/-- Only a question for an address asks the lookup service anything. -/
theorem lookups_handle {m : Moment} {e : Endpoint} {st : State} {u : Url} (hu : u ∈ (handle s m e r st).lookups) :
    ∃ client, e = .getIp ∧ s.clientText? r = some client ∧ u ∈ (whereabouts s m.reply client r).requests := by
  cases e with
  | empty =>
    have hnone : (handle s m .empty r st).lookups = [] := by
      simp only [handle, upload]
      cases r.body.failure <;> rfl
    rw [hnone] at hu
    cases hu
  | garbage => cases hu
  | stats =>
    rw [handle, lookups_results] at hu
    cases hu
  | getIp =>
    cases hclient : s.clientText? r with
    | none =>
      simp only [handle, hclient] at hu
      cases hu
    | some client =>
      simp only [handle, hclient] at hu
      exact ⟨client, rfl, rfl, hu⟩
  | telemetry =>
    have hnone : (handle s m .telemetry r st).lookups = [] := by
      cases hclient : s.clientText? r with
      | none =>
        simp only [handle, hclient]
        rfl
      | some client => simp only [handle, hclient, lookups_submit]
    rw [hnone] at hu
    cases hu

/-- A lookup is for the address of the client as it is shown. -/
theorem url_of_requests {client : String} {reply : Http.Reply} {u : Url}
    (hu : u ∈ (whereabouts s reply client r).requests) : s.lookup.url (some (shownAddress client)) = .ok u := by
  by_cases hwants : WantsLookup (shownAddress client) r
  · rw [whereabouts_of_wantsLookup hwants] at hu
    by_cases hask : s.lookup.CanBeAsked
    · obtain ⟨u', hu'⟩ := Geo.Lookup.url_of_canBeAsked hask (some (shownAddress client))
      simp only [Geo.Lookup.profile_of_url hu'] at hu
      split at hu
      · rw [List.mem_singleton.1 hu, hu']
      · exact nomatch hu
    · simp only [Geo.Lookup.profile_of_not_canBeAsked hask] at hu
      exact nomatch hu
  · rw [requests_of_not_wantsLookup hwants] at hu
    exact nomatch hu

/-- The lookup service is only ever asked by the endpoint that tells addresses. -/
theorem exists_of_lookups {m : Moment} {st : State} {u : Url} (hu : u ∈ (s.exchange m r st).1.lookups) :
    ∃ client, Endpoint.find? s.mount r.target.path = some .getIp ∧ s.clientText? r = some client ∧
      u ∈ (whereabouts s m.reply client r).requests := by
  rw [lookups_exchange] at hu
  cases hhandled : handled? s m r st with
  | none =>
    rw [hhandled] at hu
    exact nomatch hu
  | some h =>
    rw [hhandled] at hu
    obtain ⟨e, hfind, -, -, rfl⟩ := handled?_eq_some_iff.1 hhandled
    obtain ⟨client, rfl, hclient, hu⟩ := lookups_handle hu
    exact ⟨client, hfind, hclient, hu⟩

theorem lookups_of_other (h : Endpoint.find? s.mount r.target.path ≠ some .getIp) {m : Moment} {st : State} :
    (s.exchange m r st).1.lookups = [] := by
  refine List.eq_nil_iff_forall_not_mem.2 fun u hu => ?_
  obtain ⟨client, hfind, -⟩ := exists_of_lookups hu
  exact h hfind

/-! ## What is shown -/

/-- What is shown of a text is the text, or all of it behind the sign of an IPv4 address that is carried. -/
theorem shownAddress_cases (client : String) :
    client = shownAddress client ∨ client = "::ffff:" ++ shownAddress client := by
  rw [shownAddress, Address.bareText]
  cases hlead : Text.dropLead? "::ffff:".toList client.toList with
  | none => exact .inl String.ofList_toList.symm
  | some rest =>
    refine .inr (String.toList_inj.1 ?_)
    simp only [Text.dropLead?_eq_some_iff.1 hlead, String.toList_append, Option.getD_some, String.toList_ofList]

/-- The sentence that a client is told starts with its address. -/
theorem summary_whereabouts (s : Service) (reply : Http.Reply) (client : String) (r : Http.Request) :
    ∃ more, (whereabouts s reply client r).result.summary = shownAddress client ++ more := by
  unfold whereabouts
  dsimp only
  split
  · exact ⟨_, String.append_assoc⟩
  · split
    · exact ⟨_, String.append_assoc⟩
    · exact ⟨"", String.append_empty.symm⟩

/-! ## The address and nothing else -/

def addressText (c : Address.Ip) : String := String.ofList c.text

/-- All that the service has of a request's client is an address: a record holds its text, or the one that hides every
address, what a client is told starts with it, and the lookup service is asked for it. -/
structure KnownBy (s : Service) (r : Http.Request) (c : Address.Ip) : Prop where
  kept : ∀ m rec, submitted? s m r = some rec →
    rec.ipAddress = if s.redactAddresses then "0.0.0.0" else addressText c
  told : ∀ m st, Endpoint.find? s.mount r.target.path = some .getIp → Endpoint.getIp.answersTo r.method = true →
    ∃ more profile, Told r (s.exchange m r st).1.response ⟨shownAddress (addressText c) ++ more, profile⟩
  asked : ∀ m st u, u ∈ (s.exchange m r st).1.lookups → s.lookup.url (some (shownAddress (addressText c))) = .ok u
  shown : addressText c = shownAddress (addressText c) ∨ addressText c = "::ffff:" ++ shownAddress (addressText c)
  /-- A request that differs from it only where it comes from and in the fields that may name the client, and comes to
  the same address, leaves the same store behind and has the same lookups made. Its answer is the same, too, if it does
  not ask for results at a gate that tells such fields apart. -/
  same : ∀ r' peer', SameBesides r r' → r'.peer = some peer' →
    Resolves peer' r'.headers s.trustForwardedHeaders c → ∀ m st,
    (s.exchange m r' st).2.store = (s.exchange m r st).2.store ∧
    (s.exchange m r' st).1.lookups = (s.exchange m r st).1.lookups ∧
    ((Endpoint.find? s.mount r.target.path = some .stats →
      ∀ params, s.gate.authorize r'.headers params = s.gate.authorize r.headers params) →
      s.exchange m r' st = s.exchange m r st)

theorem clientText?_of_resolves {peer : Address.Endpoint} {c : Address.Ip} (hpeer : r.peer = some peer)
    (h : Resolves peer r.headers s.trustForwardedHeaders c) : s.clientText? r = some (addressText c) := by
  rw [clientText?, hpeer, Option.map_some, Http.ClientAddress.text, Http.ClientAddress.resolves_iff.1 h, addressText]

/-- Whoever is seen as an address is known by it in records, answers and lookups. -/
theorem knownBy_of_clientText? {c : Address.Ip} (hclient : s.clientText? r = some (addressText c)) : KnownBy s r c := by
  constructor
  case kept =>
    intro m rec hrec
    obtain ⟨client, form, hclient', -, rfl⟩ := submitted?_eq_some hrec
    obtain rfl := Option.some.inj (hclient'.symm.trans hclient)
    rfl
  case told =>
    intro m st hfind hanswers
    obtain ⟨-, -, htold⟩ := exchange_getIp hfind hanswers hclient m st
    obtain ⟨more, hsummary⟩ := summary_whereabouts s m.reply (addressText c) r
    refine ⟨more, (whereabouts s m.reply (addressText c) r).result.profile, ?_⟩
    rwa [← hsummary]
  case asked =>
    intro m st u hu
    obtain ⟨client, -, hclient', hu⟩ := exists_of_lookups hu
    obtain rfl := Option.some.inj (hclient'.symm.trans hclient)
    exact url_of_requests hu
  case shown => exact shownAddress_cases _
  case same =>
    intro r' peer' hbesides hpeer' hresolves m st
    have hsame : s.clientText? r' = s.clientText? r := by
      rw [hclient, clientText?_of_resolves hpeer' hresolves]
    refine ⟨?_, ?_, fun hgate => hbesides.exchange hsame hgate m st⟩
    · rw [store_exchange, store_exchange, hbesides.submitted? hsame]
    · -- Where results are asked for the gate may tell the two apart, but no lookup is made there.
      by_cases hfind : Endpoint.find? s.mount r.target.path = some .getIp
      · have hgate : Endpoint.find? s.mount r.target.path ≠ some .stats := by
          rw [hfind]
          nofun
        rw [hbesides.exchange hsame (fun h => absurd h hgate) m st]
      · have hfind' : Endpoint.find? s.mount r'.target.path ≠ some .getIp := by rwa [hbesides.target]
        rw [lookups_of_other hfind, lookups_of_other hfind']

/-- Whatever the header fields of a request hold, its client comes to one canonical address. Its text is that of this
address and reads back as it, and the service has nothing else of it. -/
theorem client_address (peer : Address.Endpoint) (h : Http.Headers) (trusted : Bool) :
    ∃ c, Resolves peer h trusted c ∧ (∀ c', Resolves peer h trusted c' → c' = c) ∧
      (∀ a quad, c = .v6 a → a.octets ≠ Address.V6.carrier quad) ∧
      Http.ClientAddress.text peer h trusted = addressText c ∧
      Address.Ip.ofText? (Http.ClientAddress.text peer h trusted).toList = some c ∧
      ∀ (s : Service) (r : Http.Request), s.trustForwardedHeaders = trusted → r.peer = some peer → r.headers = h →
        KnownBy s r c := by
  have hresolves := Http.ClientAddress.resolves_iff.2 (Eq.refl (Http.ClientAddress.resolve peer h trusted))
  refine ⟨_, hresolves, fun c' hc' => (Http.ClientAddress.resolves_iff.1 hc').symm, ?_, rfl, ?_, ?_⟩
  · intro a quad hc
    exact (Address.Ip.countsAs_iff.2 rfl).not_carrier hc quad
  · rw [Http.ClientAddress.text, String.toList_ofList, Address.Ip.ofText?_text]
  · rintro s r rfl hpeer rfl
    exact knownBy_of_clientText? (clientText?_of_resolves hpeer hresolves)

/-- Fields that name a client behind a relay: one that is no text with a second value behind it, one that is no address,
and a list. -/
def muddled : Http.Headers :=
  [("true-client-ip", [0xFF]), Http.Headers.ascii "true-client-ip" "8.8.8.8", Http.Headers.ascii "x-real-ip" "unknown",
    Http.Headers.ascii "x-forwarded-for" " ::FFFF:192.0.2.9 , 10.0.0.1"]

def muddledReport : Http.Request where
  method := "POST"
  target := ⟨"/results/telemetry", none⟩
  headers := muddled
  body := .ofBytes (Bytes.ofAscii "dl=9")
  peer := some (.v4 ⟨203, 0, 113, 5⟩ 40000)

/-- The same report with the same client, which it names in the first of the fields. -/
def plainReport : Http.Request :=
  { muddledReport with
    headers := [Http.Headers.ascii "true-client-ip" "192.0.2.9"]
    peer := some (.v4 ⟨10, 0, 0, 1⟩ 9) }

def believing : Service := { plain "secret" with trustForwardedHeaders := true }

/-- The first field that names an address decides, whatever the fields in front of it say. -/
theorem client_address_muddled :
    KnownBy believing muddledReport (.v4 ⟨192, 0, 2, 9⟩) ∧ SameBesides muddledReport plainReport ∧
    ∀ m st, believing.exchange m plainReport st = believing.exchange m muddledReport st := by
  obtain ⟨c, -, hunique, -, -, -, hknown⟩ :=
    client_address (.v4 ⟨203, 0, 113, 5⟩ 40000) muddled true
  obtain rfl : (.v4 ⟨192, 0, 2, 9⟩ : Address.Ip) = c :=
    hunique _ (Http.ClientAddress.resolves_iff.2 (by decide +kernel))
  have hthis := hknown believing muddledReport rfl rfl rfl
  have hbesides : SameBesides muddledReport plainReport := by
    refine ⟨rfl, rfl, rfl, fun name hname => ?_⟩
    have hnone {h : Http.Headers} (hall : ∀ field ∈ h, field.1 ∈ Place.all.map Place.name) : h.first? name = none :=
      List.lookup_eq_none_iff.2 fun field hfield => bne_iff_ne.2 fun hsame => hname (hsame ▸ hall field hfield)
    exact (hnone (by decide)).trans (hnone (by decide)).symm
  refine ⟨hthis, hbesides, fun m st => ?_⟩
  obtain ⟨-, -, hsame⟩ := hthis.same plainReport (.v4 ⟨10, 0, 0, 1⟩ 9) hbesides rfl
    (Http.ClientAddress.resolves_iff.2 (by decide +kernel)) m st
  exact hsame fun hstats => absurd hstats (by decide +kernel)

end Speedtest.Service
