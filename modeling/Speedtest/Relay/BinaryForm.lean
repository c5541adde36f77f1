import Speedtest.Relay.Header
import Speedtest.Text.Scan

/-!
# Headers in binary form

A signature of twelve bytes, a byte for version and command, a byte for family and transport, two bytes
for the length of the body, and the body: two addresses, two ports, and perhaps more, which is passed
over. Numbers have the high byte first.
-/
namespace Speedtest.Relay.BinaryForm

/-- The bytes that every header starts with. -/
def signature : Bytes := [0x0D, 0x0A, 0x0D, 0x0A, 0x00, 0x0D, 0x0A, 0x51, 0x55, 0x49, 0x54, 0x0A]

def fixedLength : Nat := 16

/-- The addresses and ports of a route as they stand in a body. -/
def block : Route → Bytes
  | .v4 a p b q => a.octets ++ b.octets ++ Bytes.ofNat 2 p.toNat ++ Bytes.ofNat 2 q.toNat
  | .v6 a p b q => a.octets ++ b.octets ++ Bytes.ofNat 2 p.toNat ++ Bytes.ofNat 2 q.toNat

def familyByte : Route → UInt8
  | .v4 .. => 0x11
  | .v6 .. => 0x21

/-- The header of a route as it is sent, with more bytes behind the ports. -/
def bytes (r : Route) (more : Bytes) : Bytes :=
  let body := block r ++ more
  signature ++ [0x21, familyByte r] ++ Bytes.ofNat 2 body.length ++ body

def v4? : Bytes → Option Address.V4
  | [a, b, c, d] => some ⟨a, b, c, d⟩
  | _ => none

def port (s : Bytes) : UInt16 := UInt16.ofNat (Bytes.toNat s)

def readV4? (body : Bytes) : Option Route := do
  let a ← v4? (body.take 4)
  let b ← v4? ((body.drop 4).take 4)
  if body.length < 12 then none
  else some (.v4 a (port ((body.drop 8).take 2)) b (port ((body.drop 10).take 2)))

def readV6? (body : Bytes) : Option Route := do
  let a ← Address.V6.ofOctets? (body.take 16)
  let b ← Address.V6.ofOctets? ((body.drop 16).take 16)
  if body.length < 36 then none
  else some (.v6 a (port ((body.drop 32).take 2)) b (port ((body.drop 34).take 2)))

/-- The route of a body that is long enough, or the fault of one that is not. -/
def required (fault : BinaryFault) : Option Route → Except BinaryFault Header
  | some r => .ok (.proxied r)
  | none => .error fault

/-- The header of a command to relay, by its family. -/
def readBody (family : Nat) (body : Bytes) : Except BinaryFault Header :=
  match family with
  | 1 => required .shortV4 (readV4? body)
  | 2 => required .shortV6 (readV6? body)
  | 0 | 3 => .ok .own
  | _ => .error .unknownFamily

/-- The header of a byte string that holds it as a whole. -/
def read (s : Bytes) : Except BinaryFault Header :=
  match Text.dropLead? signature s with
  | some (a :: b :: _ :: _ :: body) =>
    if a.toNat / 16 ≠ 2 then .error .badVersion
    else match a.toNat % 16 with
      | 0 => .ok .own
      | 1 => readBody (b.toNat / 16) body
      | _ => .error .unknownCommand
  | _ => .error .noSignature

def bodyLength (s : Bytes) : Nat := Bytes.toNat ((s.drop 14).take 2)

end Speedtest.Relay.BinaryForm
