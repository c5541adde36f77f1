import Speedtest.Relay.BinaryForm

/-!
# The binary form with a cursor

A cursor stands in front of the bytes that have not been read, and a field is taken off there. Looking for more than
there is crashes, be it for a byte, for what stands behind a position or for a field. So a length has to be asked for
first, and `scan` asks where a header in binary form has to.
-/
namespace Speedtest.Relay.BinaryForm

/-- What a cursor comes to, and where it stands then. When it crashed there is nothing. -/
abbrev Cursor := StateT Bytes Option

namespace Cursor

def take (width : Nat) : Cursor Bytes := fun s =>
  if width ≤ s.length then some (s.take width, s.drop width) else none

def v4 : Cursor Address.V4 := do
  let octets ← take 4
  v4? octets

def v6 : Cursor Address.V6 := do
  let octets ← take 16
  Address.V6.ofOctets? octets

def port : Cursor UInt16 := BinaryForm.port <$> take 2

def routeV4 : Cursor Route := do
  let a ← v4
  let b ← v4
  let p ← port
  let q ← port
  return .v4 a p b q

def routeV6 : Cursor Route := do
  let a ← v6
  let b ← v6
  let p ← port
  let q ← port
  return .v6 a p b q

end Cursor

/-- What stands behind a position. -/
def behind (position : Nat) (s : Bytes) : Option Bytes :=
  if position ≤ s.length then some (s.drop position) else none

/-- The route that a cursor finds at the front of a body, which has to be so long. -/
def scanRoute (length : Nat) (fault : BinaryFault) (route : Cursor Route) (body : Bytes) :
    Option (Except BinaryFault Header) :=
  if body.length < length then some (.error fault)
  else (route.run' body).map fun r => .ok (.proxied r)

/-- The header of a command to relay, by its family. -/
def scanBody (family : Nat) (body : Bytes) : Option (Except BinaryFault Header) :=
  match family with
  | 1 => scanRoute 12 .shortV4 .routeV4 body
  | 2 => scanRoute 36 .shortV6 .routeV6 body
  | 0 | 3 => some (.ok .own)
  | _ => some (.error .unknownFamily)

/-- The header of a byte string that holds it as a whole. -/
def scan (s : Bytes) : Option (Except BinaryFault Header) :=
  if s.length < fixedLength ∨ Text.startsWith signature s = false then some (.error .noSignature)
  else do
    let first ← s[12]?
    let second ← s[13]?
    let body ← behind fixedLength s
    if first.toNat / 16 ≠ 2 then some (.error .badVersion)
    else match first.toNat % 16 with
      | 0 => some (.ok .own)
      | 1 => scanBody (second.toNat / 16) body
      | _ => some (.error .unknownCommand)

end Speedtest.Relay.BinaryForm
