import Speedtest.Proofs.Relay.HeaderReading
import Speedtest.Relay.Unwrap

/-!
# Trust names the client and nothing else

The header is read before anyone asks who sent it. So whether a connection is given up, for which reason, and
which bytes are left of it behind the header are the same for every allow-list and every peer. Trust decides
only whether the address that the header claims is believed.
-/
namespace Speedtest.Relay

/-- The peers that may name a client: everyone when no network is listed, and otherwise the members of the
listed networks. -/
def Trusted (list : Address.AllowList) (peer : Address.Endpoint) : Prop :=
  list.networks = [] ∨ ∃ n ∈ list.networks, n.contains peer.ip.canonical = true

theorem trusts_iff (list : Address.AllowList) (peer : Address.Endpoint) :
    list.trusts peer.ip = true ↔ Trusted list peer := by
  simp [Address.AllowList.trusts, Trusted]

/-- Who the client of a connection is: the source that a header names, if its sender is trusted, and in every
other case the peer itself. -/
structure IsClient (list : Address.AllowList) (peer : Address.Endpoint) (h : Option Header)
    (client : Address.Endpoint) : Prop where
  named : ∀ route, h = some (.proxied route) → Trusted list peer → client = route.source
  unnamed : (∀ route, h = some (.proxied route) → ¬ Trusted list peer) → client = peer

/-- The client that is chosen is the one that the rule names. -/
theorem isClient_clientOf (list : Address.AllowList) (peer : Address.Endpoint) (h : Option Header) :
    IsClient list peer h (clientOf (list.trusts peer.ip) peer h) := by
  constructor
  · rintro route rfl htrusted
    rw [clientOf, (trusts_iff list peer).2 htrusted, if_pos rfl]
  · intro hno
    cases h with
    | none => rfl
    | some h =>
      cases h with
      | own => rfl
      | proxied route =>
        have hdistrust : list.trusts peer.ip = false :=
          Bool.eq_false_iff.2 fun h => hno route rfl ((trusts_iff list peer).1 h)
        rw [clientOf, hdistrust]
        rfl

/-- Reading a stream settles everything but the client: why the stream is given up, or what is left of it, is
the same for every list and every peer. -/
theorem unwrap_cases (f : Feed) :
    (∃ e, (whole (await f)).getD (.error .timeout) = .error e ∧
      ∀ list peer, unwrap list peer f = .error e) ∨
    (∃ h left, whole (await f) = some (.ok (h, left.bytes)) ∧ left.ending = f.ending ∧
      ∀ list peer, unwrap list peer f = .ok (clientOf (list.trusts peer.ip) peer h, left)) := by
  obtain ⟨hwhole, hending⟩ := read_of_whole f
  cases hread : read f with
  | error e =>
    rw [hread] at hwhole
    exact .inl ⟨e, hwhole.symm, fun list peer => by rw [unwrap, hread]; rfl⟩
  | ok found =>
    obtain ⟨h, left⟩ := found
    rw [hread] at hwhole
    have hsome : whole (await f) = some (.ok (h, left.bytes)) := by
      cases hw : whole (await f) with
      | none => rw [hw] at hwhole; exact nomatch hwhole
      | some o => rw [hw] at hwhole; exact congrArg some hwhole.symm
    exact .inr ⟨h, left, hsome, hending h left hread, fun list peer => by rw [unwrap, hread]; rfl⟩

/-- What is left of a stream is what its header was followed by, and the client is the one that the rule names. -/
theorem unwrap_eq_ok {list : Address.AllowList} {peer client : Address.Endpoint} {f left : Feed}
    (hunwrap : unwrap list peer f = .ok (client, left)) :
    ∃ h, whole (await f) = some (.ok (h, left.bytes)) ∧ left.ending = f.ending ∧ IsClient list peer h client := by
  rcases unwrap_cases f with ⟨e, -, herror⟩ | ⟨h, rest, hwhole, hending, hok⟩
  · exact nomatch (herror list peer).symm.trans hunwrap
  · obtain ⟨rfl, rfl⟩ := Prod.mk.inj (Except.ok.inj ((hok list peer).symm.trans hunwrap))
    exact ⟨h, hwhole, hending, isClient_clientOf list peer h⟩

/-- A stream that comes to a header is not given up, whoever asks. -/
theorem unwrap_of_whole {f : Feed} {h : Option Header} {rest : Bytes}
    (hwhole : whole (await f) = some (.ok (h, rest))) :
    ∃ left, left.bytes = rest ∧
      ∀ list peer, unwrap list peer f = .ok (clientOf (list.trusts peer.ip) peer h, left) := by
  rcases unwrap_cases f with ⟨e, herror, -⟩ | ⟨h', left, hleft, -, hok⟩
  · rw [hwhole] at herror
    exact nomatch herror
  · obtain ⟨rfl, rfl⟩ := Prod.mk.inj (Except.ok.inj (Option.some.inj (hwhole.symm.trans hleft)))
    exact ⟨left, rfl, hok⟩

/-- Under any two allow-lists and for any two peers a stream is given up for the same reason, or it is left with
the same bytes behind its header, and only the client differs. Reason, header and bytes are what the stream comes
to: what its bytes settle, or what its ending makes of bytes that settle nothing. -/
theorem unwrap_differs_in_client (f : Feed) (list₁ list₂ : Address.AllowList)
    (peer₁ peer₂ : Address.Endpoint) :
    Answers f.bytes f.ending (whole (await f)) ∧
    ((∃ e, (whole (await f)).getD (.error .timeout) = .error e ∧
      unwrap list₁ peer₁ f = .error e ∧ unwrap list₂ peer₂ f = .error e) ∨
    (∃ h left client₁ client₂, whole (await f) = some (.ok (h, left.bytes)) ∧
      left.ending = f.ending ∧
      unwrap list₁ peer₁ f = .ok (client₁, left) ∧ unwrap list₂ peer₂ f = .ok (client₂, left) ∧
      IsClient list₁ peer₁ h client₁ ∧ IsClient list₂ peer₂ h client₂)) := by
  refine ⟨answers_await f, ?_⟩
  rcases unwrap_cases f with ⟨e, hwhole, herror⟩ | ⟨h, left, hwhole, hending, hok⟩
  · exact .inl ⟨e, hwhole, herror list₁ peer₁, herror list₂ peer₂⟩
  · exact .inr ⟨h, left, _, _, hwhole, hending, hok list₁ peer₁, hok list₂ peer₂,
      isClient_clientOf list₁ peer₁ h, isClient_clientOf list₂ peer₂ h⟩

end Speedtest.Relay
