import Speedtest.Proofs.Service.Submissions
import Speedtest.Proofs.Text.Scan

/-!
# Telling clients their provider

Whoever asks for an address is told it, whatever becomes of the lookup. The service is asked once for an address that
is known everywhere, when the client wants its provider told, and for no other address. A lookup that fails costs the
provider; a location that is no coordinate costs the distance and nothing else.
-/
namespace Speedtest

/-! ## Locators on the web -/

theorem Url.readRest_of_isWeb {scheme s : List Char} (hweb : isWeb scheme = true) {followed : Bool}
    {found : Option Authority × Path} (h : readRest scheme s followed = .ok found) :
    ∃ path, found.2 = .segments path := by
  simp only [readRest, hweb, if_true, bind, Except.bind, pure, Except.pure] at h
  split at h
  · exact nomatch h
  · obtain rfl := Except.ok.inj h
    exact ⟨_, rfl⟩

/-- A locator on the web has a path of segments. -/
theorem Url.segments_of_isWeb {text : List Char} {u : Url} (h : ofText text = .ok u) (hweb : isWeb u.scheme = true) :
    ∃ path, u.path = .segments path := by
  simp only [ofText, bind, Except.bind, pure, Except.pure] at h
  split at h
  · split at h
    · exact nomatch h
    · rename_i hrest
      obtain rfl := Except.ok.inj h
      exact readRest_of_isWeb hweb hrest
  · exact nomatch h

namespace Geo

/-! ## Replies of the lookup service -/

/-- A reply that tells nothing of an address. -/
inductive Fails : Http.Reply → Prop where
  | refused : Fails .refused
  | closed : Fails .closed
  | brokenOff (status : Nat) (body : Bytes) : Fails (.answer status body false)
  | errorStatus {status : Nat} (body : Bytes) (complete : Bool) (bad : 400 ≤ status ∧ status < 600) :
    Fails (.answer status body complete)
  | unreadable (status : Nat) {body : Bytes} (complete : Bool)
    (none : (Json.read? body).bind Profile.ofJson? = none) : Fails (.answer status body complete)

/-- A reply that tells a profile: it is whole, does not report an error, and its body writes the profile. -/
inductive Tells (p : Profile) : Http.Reply → Prop where
  | whole {status : Nat} {body : Bytes} (good : ¬ (400 ≤ status ∧ status < 600))
    (written : (Json.read? body).bind Profile.ofJson? = some p) : Tells p (.answer status body true)

theorem profileOf?_of_fails {reply : Http.Reply} (h : Fails reply) : profileOf? reply = none := by
  cases h with
  | refused => rfl
  | closed => rfl
  | brokenOff status body => simp [profileOf?]
  | errorStatus body complete bad => simp [profileOf?, bad]
  | unreadable status complete none => simp [profileOf?, none]

theorem profileOf?_of_tells {p : Profile} {reply : Http.Reply} (h : Tells p reply) : profileOf? reply = some p := by
  obtain ⟨good, written⟩ := h
  simp [profileOf?, good, written]

/-- A reply either fails or tells a profile, so every reply is accounted for. -/
theorem fails_or_tells (reply : Http.Reply) : Fails reply ∨ ∃ p, Tells p reply := by
  cases reply with
  | refused => exact .inl .refused
  | closed => exact .inl .closed
  | answer status body complete =>
    by_cases bad : 400 ≤ status ∧ status < 600
    · exact .inl (.errorStatus body complete bad)
    cases complete with
    | false => exact .inl (.brokenOff status body)
    | true =>
      cases hread : (Json.read? body).bind Profile.ofJson? with
      | none => exact .inl (.unreadable status true hread)
      | some p => exact .inr ⟨p, .whole bad hread⟩

/-! ## Questions to the lookup service -/

/-- A lookup service that can be asked, as its base has a path that an address can be put below. -/
def Lookup.CanBeAsked (l : Lookup) : Prop := ∃ path, l.base.path = .segments path

theorem Lookup.url_of_canBeAsked {l : Lookup} (h : l.CanBeAsked) (address : Option String) :
    ∃ u, l.url address = .ok u := by
  obtain ⟨path, hpath⟩ := h
  cases hkey : l.key with
  | none => exact ⟨_, by simp only [url, Url.below?, hpath, hkey]; rfl⟩
  | some key => exact ⟨_, by simp only [url, Url.below?, hpath, hkey]; rfl⟩

theorem Lookup.url_of_not_canBeAsked {l : Lookup} (h : ¬ l.CanBeAsked) (address : Option String) :
    ∃ e, l.url address = .error e := by
  cases hpath : l.base.path with
  | flat text => exact ⟨_, by simp only [url, Url.below?, hpath]; rfl⟩
  | segments path => exact absurd ⟨path, hpath⟩ h

/-- A service whose base was read as a locator on the web can be asked. -/
theorem Lookup.canBeAsked_of_web {base key : String} {l : Lookup} (h : ofSettings base key = .ok l)
    (hweb : Url.isWeb l.base.scheme = true) : l.CanBeAsked := by
  unfold ofSettings at h
  split at h
  · rename_i u hread
    obtain rfl := Except.ok.inj h
    exact Url.segments_of_isWeb hread hweb
  · exact nomatch h

theorem Lookup.profile_of_url {l : Lookup} {address : String} {u : Url} (h : l.url (some address) = .ok u)
    (reply : Http.Reply) :
    l.profile reply address = ⟨(profileOf? reply).getD {}, if reply.arrives then [u] else []⟩ := by
  rw [profile, ask, h]

theorem Lookup.profile_of_not_canBeAsked {l : Lookup} (h : ¬ l.CanBeAsked) (reply : Http.Reply) (address : String) :
    l.profile reply address = ⟨{}, []⟩ := by
  obtain ⟨e, he⟩ := url_of_not_canBeAsked h (some address)
  rw [profile, ask, he]
  rfl

/-! ## Summaries -/

/-- A location that is no coordinate is passed over. -/
theorem Profile.summary_of_not_coordinate {p : Profile}
    (h : ∀ c, Coordinate.ofLocation p.location.toList ≠ .ok c) (server : Coordinate) (unit : LengthUnit) :
    p.summary server unit = { p with location := "" }.summary server unit := by
  obtain ⟨e, herror⟩ : ∃ e, Distance.ofLocation p.location server unit = .error e := by
    rw [Distance.ofLocation]
    cases hread : Coordinate.ofLocation p.location.toList with
    | ok c => exact absurd hread (h c)
    | error e => exact ⟨e, rfl⟩
  simp only [summary, herror, ite_self, if_true]
  rfl

theorem Profile.summary_empty (server : Coordinate) (unit : LengthUnit) :
    ({} : Profile).summary server unit = "Unknown ISP" := by
  have hprovider : ({} : Profile).provider = "Unknown ISP" := by
    simp [provider, withoutNetworkNumbers]
  simp only [summary, hprovider, if_true]
  rfl

end Geo

namespace Service

/-! ## What a client is told -/

def shownAddress (client : String) : String := String.ofList (Address.bareText client.toList)

/-- A client that the lookup service is to be asked about: its address is known everywhere, and the first `isp` of
its query is exactly `true`. -/
structure WantsLookup (address : String) (r : Http.Request) : Prop where
  everywhere : (Address.Reach.ofText address.toList).isPublic = true
  provider : Form.first? r.target.queryBytes "isp" = some "true"

variable {s : Service} {r : Http.Request} {client : String}

theorem note?_eq_none_iff {reach : Address.Reach} : reach.note? = none ↔ reach.isPublic = true := by
  cases reach with
  | loopback family => cases family <;> simp [Address.Reach.note?, Address.Reach.isPublic]
  | _ => simp [Address.Reach.note?, Address.Reach.isPublic]

theorem wantsProvider_iff : wantsProvider r = true ↔ Form.first? r.target.queryBytes "isp" = some "true" :=
  beq_iff_eq

theorem whereabouts_of_wantsLookup (h : WantsLookup (shownAddress client) r) (reply : Http.Reply) :
    whereabouts s reply client r =
      let asked := s.lookup.profile reply (shownAddress client)
      ⟨⟨shownAddress client ++ " - " ++ asked.result.summary s.coordinate (unitAsked r), asked.result⟩,
        asked.requests⟩ := by
  have hnote := note?_eq_none_iff.2 h.everywhere
  rw [shownAddress, String.toList_ofList] at hnote
  simp only [whereabouts, hnote, wantsProvider_iff.2 h.provider, if_true]
  rfl

theorem requests_of_not_wantsLookup (h : ¬ WantsLookup (shownAddress client) r) (reply : Http.Reply) :
    (whereabouts s reply client r).requests = [] := by
  unfold whereabouts
  dsimp only
  split
  · rfl
  · rename_i hnote
    split
    · rename_i hwants
      refine absurd ⟨note?_eq_none_iff.1 ?_, wantsProvider_iff.1 hwants⟩ h
      rwa [shownAddress, String.toList_ofList]
    · rfl

/-! ## Questions for an address -/

/-- A response that tells a client something, in a body that a question for the fields alone goes without. -/
def Told (r : Http.Request) (response : Http.Response) (w : Whereabouts) : Prop :=
  response.body = if r.method = "HEAD" then .empty else .bytes w.toJson.write

/-- A question for an address over a known connection is told what is known of the address. -/
theorem exchange_getIp (hfind : Endpoint.find? s.mount r.target.path = some .getIp)
    (hanswers : Endpoint.getIp.answersTo r.method = true) (hclient : s.clientText? r = some client) (m : Moment)
    (st : State) :
    (s.exchange m r st).1.response.status = 200 ∧
    (s.exchange m r st).1.lookups = (whereabouts s m.reply client r).requests ∧
    Told r (s.exchange m r st).1.response (whereabouts s m.reply client r).result := by
  have hoptions : r.method ≠ "OPTIONS" := Text.ne_of_kind hanswers (by decide)
  have hconnect : r.method ≠ "CONNECT" := Text.ne_of_kind hanswers (by decide)
  obtain ⟨hstatus, hbody⟩ := response_exchange m st hfind hoptions hanswers
  have hhandle : handle s m .getIp r st = tellAddress s m client r (st.count (.requests .getIp) 1) := by
    simp only [handle, hclient]
  have houtcome : (handle s m .getIp r st).outcome =
      withFields (.json (whereabouts s m.reply client r).result.toJson) noCacheFields := by
    rw [hhandle]
    rfl
  rw [houtcome] at hstatus hbody
  refine ⟨hstatus.trans (status_withFields _ _), ?_, ?_⟩
  · simp only [exchange, answer, route, hfind, hoptions, if_false, hanswers, if_true, hhandle]
    rfl
  · rw [Told, hbody]
    by_cases hhead : r.method = "HEAD"
    · rw [if_pos hhead, hhead]
      rfl
    · rw [if_neg hhead, body_framed hconnect hhead, body_withFields]
      rfl

/-- What becomes of a question for an address. Where the provider is wanted one lookup goes out, which arrives unless
no connection comes about. -/
structure Informed (s : Service) (m : Moment) (r : Http.Request) (address : String) (answer : Answer) : Prop where
  status : answer.response.status = 200
  asked : s.lookup.CanBeAsked → WantsLookup address r →
    ∃ u, s.lookup.url (some address) = .ok u ∧ answer.lookups = if m.reply.arrives then [u] else []
  spared : ¬ (s.lookup.CanBeAsked ∧ WantsLookup address r) → answer.lookups = []
  settled : Geo.Fails m.reply ∨ ∃ p, Geo.Tells p m.reply
  failed : WantsLookup address r → (¬ s.lookup.CanBeAsked ∨ Geo.Fails m.reply) →
    Told r answer.response ⟨address ++ " - Unknown ISP", {}⟩
  found : s.lookup.CanBeAsked → WantsLookup address r → ∀ p, Geo.Tells p m.reply →
    Told r answer.response ⟨address ++ " - " ++ p.summary s.coordinate (unitAsked r), p⟩
  unplaced : s.lookup.CanBeAsked → WantsLookup address r → ∀ p, Geo.Tells p m.reply →
    (∀ c, Geo.Coordinate.ofLocation p.location.toList ≠ .ok c) →
    Told r answer.response
      ⟨address ++ " - " ++ ({ p with location := "" } : Geo.Profile).summary s.coordinate (unitAsked r), p⟩

/-- An answer that follows from what is known of the client tells what the lookup service said. -/
theorem informed_of_whereabouts {m : Moment} {answer : Answer} (hstatus : answer.response.status = 200)
    (hlookups : answer.lookups = (whereabouts s m.reply client r).requests)
    (htold : Told r answer.response (whereabouts s m.reply client r).result) :
    Informed s m r (shownAddress client) answer := by
  have hfound (hask : s.lookup.CanBeAsked) (hwants : WantsLookup (shownAddress client) r) (p : Geo.Profile)
      (htells : Geo.Tells p m.reply) : Told r answer.response
        ⟨shownAddress client ++ " - " ++ p.summary s.coordinate (unitAsked r), p⟩ := by
    obtain ⟨u, hu⟩ := Geo.Lookup.url_of_canBeAsked hask (some (shownAddress client))
    rwa [whereabouts_of_wantsLookup hwants, Geo.Lookup.profile_of_url hu, Geo.profileOf?_of_tells htells] at htold
  constructor
  case status => exact hstatus
  case asked =>
    intro hask hwants
    obtain ⟨u, hu⟩ := Geo.Lookup.url_of_canBeAsked hask (some (shownAddress client))
    rw [hlookups, whereabouts_of_wantsLookup hwants, Geo.Lookup.profile_of_url hu]
    exact ⟨u, hu, rfl⟩
  case spared =>
    intro hspared
    rw [hlookups]
    by_cases hwants : WantsLookup (shownAddress client) r
    · have hask : ¬ s.lookup.CanBeAsked := fun hask => hspared ⟨hask, hwants⟩
      rw [whereabouts_of_wantsLookup hwants, Geo.Lookup.profile_of_not_canBeAsked hask]
    · exact requests_of_not_wantsLookup hwants _
  case settled => exact Geo.fails_or_tells m.reply
  case failed =>
    intro hwants hfails
    -- Nobody could be asked, or the reply tells nothing: either way the empty profile is what is left.
    have hnothing : (s.lookup.profile m.reply (shownAddress client)).result = {} := by
      by_cases hask : s.lookup.CanBeAsked
      · obtain ⟨u, hu⟩ := Geo.Lookup.url_of_canBeAsked hask (some (shownAddress client))
        have hreply : Geo.Fails m.reply := hfails.resolve_left (not_not_intro hask)
        rw [Geo.Lookup.profile_of_url hu, Geo.profileOf?_of_fails hreply]
        rfl
      · rw [Geo.Lookup.profile_of_not_canBeAsked hask]
    rw [whereabouts_of_wantsLookup hwants] at htold
    simp only [hnothing, Geo.Profile.summary_empty] at htold
    rwa [String.append_assoc] at htold
  case found => exact hfound
  case unplaced =>
    intro hask hwants p htells hnowhere
    rw [← Geo.Profile.summary_of_not_coordinate hnowhere]
    exact hfound hask hwants p htells

/-- Whoever asks for an address over a known connection is informed, whatever the lookup service does, and that
service can be asked wherever on the web it is. -/
theorem informed_exchange (s : Service) (m : Moment) (r : Http.Request) (st : State) {peer : Address.Endpoint}
    (hfind : Endpoint.find? s.mount r.target.path = some .getIp)
    (hanswers : Endpoint.getIp.answersTo r.method = true) (hpeer : r.peer = some peer) :
    Informed s m r (shownAddress (Http.ClientAddress.text peer r.headers s.trustForwardedHeaders))
      (s.exchange m r st).1 ∧
    ∀ base key, Geo.Lookup.ofSettings base key = .ok s.lookup → Url.isWeb s.lookup.base.scheme = true →
      s.lookup.CanBeAsked := by
  have hclient : s.clientText? r = some (Http.ClientAddress.text peer r.headers s.trustForwardedHeaders) := by
    rw [clientText?, hpeer]
    rfl
  obtain ⟨hstatus, hlookups, htold⟩ := exchange_getIp hfind hanswers hclient m st
  exact ⟨informed_of_whereabouts hstatus hlookups htold, fun _ _ => Geo.Lookup.canBeAsked_of_web⟩

/-- A service with somewhere to look addresses up. -/
def curious : Service :=
  { plain "secret" with
    lookup := ⟨⟨"http".toList, some ⟨[], .name "lookup.test".toList, none⟩, .segments [[]], none, none⟩, none⟩ }

/-- A question for the provider behind an address. -/
def askedFrom (address : Address.V4) : Http.Request where
  method := "GET"
  target := ⟨"/getIP", some "isp=true"⟩
  headers := []
  body := .ofBytes []
  peer := some (.v4 address 51000)

/-- What is replied about an address that is placed nowhere. -/
def unplacedReply : Http.Reply :=
  .answer 200 (Bytes.ofAscii "\x7b\"org\":\"AS1 Net\",\"loc\":\"nowhere\"\x7d") true

def askedCurious (reply : Http.Reply) (address : Address.V4) : Answer :=
  (curious.exchange ⟨.epoch, "record", "drawn", reply⟩ (askedFrom address) ⟨.forgetful, .start⟩).1

/-- An address known everywhere, told with what the lookup service says of it and without, and one that is not. -/
theorem informed_exchange_curious :
    (∃ u, curious.lookup.url (some "8.8.8.8") = .ok u ∧
      (askedCurious unplacedReply ⟨8, 8, 8, 8⟩).lookups = [u]) ∧
    (askedCurious unplacedReply ⟨8, 8, 8, 8⟩).response.body =
      .bytes (Whereabouts.toJson ⟨"8.8.8.8 - Net", { organization := "AS1 Net", location := "nowhere" }⟩).write ∧
    (askedCurious .closed ⟨8, 8, 8, 8⟩).response.body =
      .bytes (Whereabouts.toJson ⟨"8.8.8.8 - Unknown ISP", {}⟩).write ∧
    (askedCurious unplacedReply ⟨127, 0, 0, 1⟩).lookups = [] := by
  have hask : curious.lookup.CanBeAsked := ⟨_, rfl⟩
  have haddress : shownAddress (Http.ClientAddress.text (.v4 ⟨8, 8, 8, 8⟩ 51000) (askedFrom ⟨8, 8, 8, 8⟩).headers
      curious.trustForwardedHeaders) = "8.8.8.8" := by decide +kernel
  have hwants : WantsLookup "8.8.8.8" (askedFrom ⟨8, 8, 8, 8⟩) := ⟨by decide +kernel, by decide +kernel⟩
  have htells : Geo.Tells { organization := "AS1 Net", location := "nowhere" } unplacedReply :=
    ⟨by decide, by decide +kernel⟩
  have hnowhere (c : Geo.Coordinate) : Geo.Coordinate.ofLocation "nowhere".toList ≠ .ok c := nofun
  have hsummary : ({ organization := "AS1 Net" } : Geo.Profile).summary curious.coordinate
      (unitAsked (askedFrom ⟨8, 8, 8, 8⟩)) = "Net" := by
    have hprovider : ({ organization := "AS1 Net" } : Geo.Profile).provider = "Net" := by decide +kernel
    simp only [Geo.Profile.summary, hprovider, if_true]
    decide
  obtain ⟨hknown, -⟩ := informed_exchange curious ⟨.epoch, "record", "drawn", unplacedReply⟩
    (askedFrom ⟨8, 8, 8, 8⟩) ⟨.forgetful, .start⟩ (by decide +kernel) (by decide) rfl
  obtain ⟨hclosed, -⟩ := informed_exchange curious ⟨.epoch, "record", "drawn", .closed⟩
    (askedFrom ⟨8, 8, 8, 8⟩) ⟨.forgetful, .start⟩ (by decide +kernel) (by decide) rfl
  obtain ⟨hloopback, -⟩ := informed_exchange curious ⟨.epoch, "record", "drawn", unplacedReply⟩
    (askedFrom ⟨127, 0, 0, 1⟩) ⟨.forgetful, .start⟩ (by decide +kernel) (by decide) rfl
  rw [haddress] at hknown hclosed
  have hunplaced := hknown.unplaced hask hwants _ htells hnowhere
  rw [hsummary] at hunplaced
  refine ⟨hknown.asked hask hwants, hunplaced, hclosed.failed hwants (.inr .closed), hloopback.spared ?_⟩
  rintro ⟨-, heverywhere, -⟩
  exact absurd heverywhere (by decide +kernel)

end Service
end Speedtest
