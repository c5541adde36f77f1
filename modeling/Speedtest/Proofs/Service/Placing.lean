import Speedtest.Proofs.Address.Reaching
import Speedtest.Proofs.Service.ClientKnown

/-!
# Clients and their addresses by number

What a client is told goes by the text of its address. For IPv4 this comes to the octets, and a client is told the same
whichever way it connects. For IPv6 it comes to the groups and the address is told whole, but for the addresses whose
text only looks as if it carried an IPv4 address: from these the part that looks so is taken off.
-/
namespace Speedtest.Service

open Address (V4 V6 Reach)
open Http.ClientAddress (Resolves)

variable {s : Service} {r : Http.Request}

/-- A request as it is when it comes from a peer. -/
def comingFrom (r : Http.Request) (peer : Address.Endpoint) : Http.Request := { r with peer := some peer }

/-! ## IPv4 -/

theorem clientText?_comingFrom (s : Service) (r : Http.Request) (peer : Address.Endpoint) :
    s.clientText? (comingFrom r peer) = some (Http.ClientAddress.text peer r.headers s.trustForwardedHeaders) :=
  rfl

/-- A peer with an IPv6 address that carries an IPv4 address comes to the client address that the one with this address
comes to. -/
theorem clientAddress_carried {a : V4} {b : V6} (h : b.octets = V6.carrier a) (headers : Http.Headers) (trusted : Bool)
    (port port' : UInt16) (scope : UInt32) :
    Http.ClientAddress.text (.v6 b port' scope) headers trusted = Http.ClientAddress.text (.v4 a port) headers trusted := by
  have hcanonical : (Address.Ip.v6 b).canonical = (Address.Ip.v4 a).canonical := by
    simp only [Address.Ip.canonical, V6.mapped?_eq_some_iff.2 h]
  rw [Http.ClientAddress.text, Http.ClientAddress.text, Http.ClientAddress.resolve, Http.ClientAddress.resolve]
  cases (if trusted then Http.ClientAddress.forwarded? headers else none) with
  | none => exact congrArg (fun ip : Address.Ip => String.ofList ip.text) hcanonical
  | some named => rfl

/-- An IPv4 address has the reach of its octets, also behind the lead that marks a carried address, and it makes no
difference to its client whether it connects with it or with the IPv6 address that carries it. -/
theorem placed_by_octets (a : V4) :
    (∀ reach, Reach.ofText a.text = reach ↔ a.Within reach) ∧
    (∀ reach, Reach.ofText ("::ffff:".toList ++ a.text) = reach ↔ a.Within reach) ∧
    ∀ b : V6, b.octets = V6.carrier a → ∀ (s : Service) (r : Http.Request) (port port' : UInt16) (scope : UInt32),
      (s.trustForwardedHeaders = false →
        s.clientText? (comingFrom r (.v4 a port)) = some (addressText (.v4 a))) ∧
      s.clientText? (comingFrom r (.v6 b port' scope)) = s.clientText? (comingFrom r (.v4 a port)) ∧
      ∀ m st, s.exchange m (comingFrom r (.v6 b port' scope)) st = s.exchange m (comingFrom r (.v4 a port)) st := by
  have hcarried : Reach.ofText ("::ffff:".toList ++ a.text) = Reach.ofText a.text := by
    rw [Reach.ofText, Reach.ofText, V4.bareText_carried, V4.bareText_text]
  refine ⟨a.ofText_text_iff, ?_, ?_⟩
  · rw [hcarried]
    exact a.ofText_text_iff
  · intro b hb s r port port' scope
    have hclient : s.clientText? (comingFrom r (.v6 b port' scope)) = s.clientText? (comingFrom r (.v4 a port)) := by
      rw [clientText?_comingFrom, clientText?_comingFrom, clientAddress_carried hb _ _ port]
    refine ⟨fun htrust => ?_, hclient, fun m st => ?_⟩
    · rw [clientText?_comingFrom, htrust]
      rfl
    · -- The gate reads the header fields alone, so it does not tell the two apart either.
      have hbesides : SameBesides (comingFrom r (.v4 a port)) (comingFrom r (.v6 b port' scope)) :=
        ⟨rfl, rfl, rfl, fun _ _ => rfl⟩
      exact hbesides.exchange hclient (fun _ _ => rfl) m st

/-- The address that carries `100.127.0.1`. -/
def carriedShared : V6 := ⟨[0, 0, 0, 0, 0, 0xFFFF, 0x647F, 1], rfl⟩

theorem placed_by_octets_shared :
    Reach.ofText "::ffff:100.127.0.1".toList = .carrier ∧
    carriedShared.octets = V6.carrier ⟨100, 127, 0, 1⟩ ∧
    ∀ m st, curious.exchange m (comingFrom (askedFrom ⟨8, 8, 8, 8⟩) (.v6 carriedShared 50000 0)) st =
      curious.exchange m (askedFrom ⟨100, 127, 0, 1⟩) st := by
  obtain ⟨-, hreach, hsame⟩ := placed_by_octets ⟨100, 127, 0, 1⟩
  have hcarries : carriedShared.octets = V6.carrier ⟨100, 127, 0, 1⟩ := by decide
  obtain ⟨-, -, hexchange⟩ := hsame carriedShared hcarries curious (askedFrom ⟨8, 8, 8, 8⟩) 51000 50000 0
  exact ⟨(hreach .carrier).2 ⟨rfl, by decide⟩, hcarries, hexchange⟩

/-! ## IPv6 -/

theorem shownAddress_of_bareText {a : V6} (h : Address.bareText a.text = a.text) :
    shownAddress (addressText (.v6 a)) = addressText (.v6 a) := by
  rw [shownAddress, addressText, Address.Ip.text, String.toList_ofList, h]

/-- What a request of a client is told about its address, and nothing is asked for but that address. -/
structure PlacedBy (a : V6) (s : Service) (r : Http.Request) (answer : Answer) : Prop where
  noted : ∀ reach note, a.Within reach → reach.note? = some note →
    Told r answer.response ⟨addressText (.v6 a) ++ " - " ++ note, {}⟩
  told : ∃ more profile, Told r answer.response ⟨addressText (.v6 a) ++ more, profile⟩
  asked : ∀ u ∈ answer.lookups, s.lookup.url (some (addressText (.v6 a))) = .ok u

/-- An address that is taken for what it is: its text has the reach of its groups, is kept whole, and is what clients
are told and what the lookup service is asked for. -/
structure TakenAsIs (a : V6) : Prop where
  reach : ∀ reach, Reach.ofText a.text = reach ↔ a.Within reach
  whole : Address.bareText a.text = a.text
  placed : ∀ (s : Service) (r : Http.Request) (peer : Address.Endpoint) (m : Moment) (st : State),
    r.peer = some peer → Resolves peer r.headers s.trustForwardedHeaders (.v6 a) →
    Endpoint.find? s.mount r.target.path = some .getIp → Endpoint.getIp.answersTo r.method = true →
    PlacedBy a s r (s.exchange m r st).1

/-- An address whose text is taken as it stands is placed by its bits. -/
theorem placedBy_of_bareText {a : V6} (hreach : ∀ reach, Reach.ofText a.text = reach ↔ a.Within reach)
    (hwhole : Address.bareText a.text = a.text) (hclient : s.clientText? r = some (addressText (.v6 a)))
    (hfind : Endpoint.find? s.mount r.target.path = some .getIp)
    (hanswers : Endpoint.getIp.answersTo r.method = true) (m : Moment) (st : State) :
    PlacedBy a s r (s.exchange m r st).1 := by
  have hknown := knownBy_of_clientText? hclient
  have hshown := shownAddress_of_bareText hwhole
  constructor
  case noted =>
    intro reach note hwithin hnote
    obtain ⟨-, -, htold⟩ := exchange_getIp hfind hanswers hclient m st
    have htext : Reach.ofText a.text = reach := (hreach reach).2 hwithin
    have hwhereabouts : whereabouts s m.reply (addressText (.v6 a)) r =
        ⟨⟨addressText (.v6 a) ++ " - " ++ note, {}⟩, []⟩ := by
      simp only [whereabouts, addressText, Address.Ip.text, String.toList_ofList, hwhole, htext, hnote]
    rwa [hwhereabouts] at htold
  case told =>
    obtain ⟨more, profile, htold⟩ := hknown.told m st hfind hanswers
    rw [hshown] at htold
    exact ⟨more, profile, htold⟩
  case asked =>
    intro u hu
    have hasked := hknown.asked m st u hu
    rwa [hshown] at hasked

/-- Among the addresses that carry none, exactly those that do not look as if they did are taken for what they are. -/
theorem takenAsIs_iff (a : V6) (h : ∀ quad, a.octets ≠ V6.carrier quad) : TakenAsIs a ↔ ¬ a.LooksCarried := by
  have hmapped : a.mapped? = none :=
    Option.eq_none_iff_forall_ne_some.2 fun quad hquad => h quad (V6.mapped?_eq_some_iff.1 hquad)
  constructor
  · intro htaken
    exact (V6.bareText_text_iff hmapped).1 htaken.whole
  · intro hlooks
    have hreach := V6.ofText_text_iff hmapped hlooks
    have hwhole := (V6.bareText_text_iff hmapped).2 hlooks
    constructor
    case reach => exact hreach
    case whole => exact hwhole
    case placed =>
      intro s r peer m st hpeer hresolves hfind hanswers
      exact placedBy_of_bareText hreach hwhole (clientText?_of_resolves hpeer hresolves) hfind hanswers m st

/-- The address whose text is `0:0:ffff::1:2`: it has the group that marks a carried address behind its first zeros, but
a longer run of zeros comes later. -/
def unmarked : V6 := ⟨[0, 0, 0xFFFF, 0, 0, 0, 1, 2], rfl⟩

theorem takenAsIs_iff_unmarked : (∀ quad, unmarked.octets ≠ V6.carrier quad) ∧ TakenAsIs unmarked := by
  have hmapped : unmarked.mapped? = none := by decide
  have hcarrier (quad : V4) : unmarked.octets ≠ V6.carrier quad := fun h =>
    absurd (hmapped.symm.trans (V6.mapped?_eq_some_iff.2 h)) nofun
  have hlooks : ¬ unmarked.LooksCarried := fun h =>
    absurd ((V6.startsWith_mark_iff hmapped).2 h) (by decide +kernel)
  exact ⟨hcarrier, (takenAsIs_iff unmarked hcarrier).2 hlooks⟩

/-- The address whose text is `::ffff:fe80:1:2`. -/
def marked : V6 := ⟨[0, 0, 0, 0, 0xFFFF, 0xFE80, 1, 2], rfl⟩

/-- This address carries none and does not start with the group of link-local ones, but its client is told another
address, and that this one is link-local. -/
theorem told_marked :
    (∀ quad, marked.octets ≠ V6.carrier quad) ∧ ¬ marked.IsLinkLocal ∧
    Http.ClientAddress.text (.v6 marked 50000 0) [] false = "::ffff:fe80:1:2" ∧
    Reach.ofText marked.text = .linkLocalV6 ∧ Address.bareText marked.text = "fe80:1:2".toList ∧
    ∀ m st, (curious.exchange m (comingFrom (askedFrom ⟨8, 8, 8, 8⟩) (.v6 marked 50000 0)) st).1.response.body =
      .bytes (Whereabouts.toJson ⟨"fe80:1:2 - link-local IPv6 access", {}⟩).write := by
  have hmapped : marked.mapped? = none := by decide
  have htext : Http.ClientAddress.text (.v6 marked 50000 0) [] false = "::ffff:fe80:1:2" := by decide +kernel
  have hlinkLocal : ¬ marked.IsLinkLocal := fun h => absurd (Option.some.inj h) (by decide)
  refine ⟨?_, hlinkLocal, htext, by decide +kernel, by decide +kernel, fun m st => ?_⟩
  · intro quad h
    exact absurd (hmapped.symm.trans (V6.mapped?_eq_some_iff.2 h)) nofun
  · have hclient : curious.clientText? (comingFrom (askedFrom ⟨8, 8, 8, 8⟩) (.v6 marked 50000 0)) =
        some "::ffff:fe80:1:2" := congrArg some htext
    obtain ⟨-, -, htold⟩ := exchange_getIp (by decide +kernel) (by decide) hclient m st
    exact htold

end Speedtest.Service
