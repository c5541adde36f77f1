import Speedtest.Address.Network
import Speedtest.Relay.Reading

/-!
# Taking the header off

Whoever connects, a header in front of the connection is taken off. Only a peer on the allow-list may name
the client with it; for every other peer the client is the peer.
-/
namespace Speedtest.Relay

/-- The client that a header stands for, when the peer is trusted or not. -/
def clientOf (trusted : Bool) (peer : Address.Endpoint) : Option Header → Address.Endpoint
  | some (.proxied route) => if trusted then route.source else peer
  | _ => peer

/-- The client of a connection and what is left of its stream. -/
def unwrap (list : Address.AllowList) (peer : Address.Endpoint) (f : Feed) :
    Except HeaderError (Address.Endpoint × Feed) :=
  (read f).map fun (h, rest) => (clientOf (list.trusts peer.ip) peer h, rest)

end Speedtest.Relay
