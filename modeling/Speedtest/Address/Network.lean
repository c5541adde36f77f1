import Speedtest.Address.Ip
import Speedtest.Text.Blank
import Speedtest.Text.Quoted

/-!
# Networks and the allow-list

A network is an address with the number of leading bits that its members share. The allow-list holds
the networks whose members may name the client they relay for. An empty list trusts everyone, which is
why a list with a bad entry is refused as a whole.
-/
namespace Speedtest.Address

/-- A network of either family. Bits of the address beyond the shared ones are kept but do not matter. -/
inductive Network where
  | v4 (address : V4) (bits : Fin 33)
  | v6 (address : V6) (bits : Fin 129)
  deriving DecidableEq

namespace Network

/-- Whether two numbers of `width` bits agree on their first `bits` bits. -/
def agree (width bits a b : Nat) : Bool :=
  a / Nat.pow 2 (width - bits) == b / Nat.pow 2 (width - bits)

/-- Whether an address belongs to the network. -/
def contains : Network → Ip → Bool
  | .v4 net bits, .v4 a => agree 32 bits net.toNat a.toNat
  | .v6 net bits, .v6 a => agree 128 bits net.toNat a.toNat
  | _, _ => false

/-- The number of leading ones of a mask that is ones followed by zeros. -/
def maskBits? (mask : V4) : Option (Fin 33) :=
  (List.finRange 33).find? fun n => mask.toNat == Nat.pow 2 32 - Nat.pow 2 (32 - n.val)

/-- The part behind the slash of an IPv4 network: a mask or a count of at most 32. -/
def readBits4? (s : List Char) : Option (Fin 33) :=
  match V4.ofText? s with
  | some mask => maskBits? mask
  | none => (Text.readCount? 256 s).bind fun n => if h : n < 33 then some ⟨n, h⟩ else none

/-- The part behind the slash of an IPv6 network: a count of at most 128. -/
def readBits6? (s : List Char) : Option (Fin 129) :=
  (Text.readCount? 256 s).bind fun n => if h : n < 129 then some ⟨n, h⟩ else none

/-- A network of a text. An address alone is the network that holds only itself. -/
def ofText? (s : List Char) : Option Network :=
  match s.splitOn '/' with
  | [address] =>
    match V4.ofText? address with
    | some a => some (.v4 a 32)
    | none => (V6.ofText? address).map fun a => .v6 a 128
  | [address, bits] =>
    match V4.ofText? address with
    | some a => (readBits4? bits).map (.v4 a)
    | none => (V6.ofText? address).bind fun a => (readBits6? bits).map (.v6 a)
  | _ => none

end Network

/-- The networks trusted to name the client they relay for. -/
structure AllowList where
  networks : List Network
  deriving DecidableEq

namespace AllowList

/-- An entry of the list, without blanks around it, that is no network. -/
structure BadEntry where
  entry : String
  deriving DecidableEq

namespace BadEntry

def reason (e : BadEntry) : String := "invalid address: " ++ e.entry

def message (e : BadEntry) : String :=
  "invalid CIDR " ++ Text.quoted e.entry ++ ": " ++ e.reason

end BadEntry

def everyone : AllowList := ⟨[]⟩

/-- The network of an entry, which may have blanks around it. -/
def readEntry (entry : String) : Except BadEntry Network :=
  let trimmed := Text.trim entry.toList
  match Network.ofText? trimmed with
  | some n => .ok n
  | none => .error ⟨String.ofList trimmed⟩

/-- The list of the networks that the entries name, or the first entry that names none. -/
def ofEntries (entries : List String) : Except BadEntry AllowList :=
  (entries.mapM readEntry).map AllowList.mk

/-- Whether a peer is trusted. Only the canonical form of its own address counts. -/
def trusts (list : AllowList) (peer : Ip) : Bool :=
  list.networks.isEmpty || list.networks.any (·.contains peer.canonical)

end AllowList
end Speedtest.Address
