import Speedtest.Address.V6

/-!
# Addresses of both families

An address is IPv4 or IPv6. Its canonical form takes an IPv4 address out of the IPv6 address that
carries it, so that one client has one address whichever way it connects. An endpoint adds a port, and
for IPv6 the number of the interface that a link-local address belongs to.
-/
namespace Speedtest.Address

/-- An address of either family. -/
inductive Ip where
  | v4 (a : V4)
  | v6 (a : V6)
  deriving DecidableEq

namespace Ip

def text : Ip → List Char
  | .v4 a => a.text
  | .v6 a => a.text

/-- IPv4 for an address that carries one. -/
def canonical : Ip → Ip
  | .v4 a => .v4 a
  | .v6 a => match a.mapped? with
    | some quad => .v4 quad
    | none => .v6 a

/-- The address of a text that is one and nothing else. -/
def ofText? (s : List Char) : Option Ip :=
  match V4.ofText? s with
  | some a => some (.v4 a)
  | none => (V6.ofText? s).map .v6

end Ip

/-- An address with a port. -/
inductive Endpoint where
  | v4 (address : V4) (port : UInt16)
  | v6 (address : V6) (port : UInt16) (scope : UInt32)
  deriving DecidableEq

namespace Endpoint

def ip : Endpoint → Ip
  | .v4 a _ => .v4 a
  | .v6 a _ _ => .v6 a

def port : Endpoint → UInt16
  | .v4 _ p => p
  | .v6 _ p _ => p

/-- An endpoint on no particular interface. -/
def ofIp (a : Ip) (port : UInt16) : Endpoint :=
  match a with
  | .v4 a => .v4 a port
  | .v6 a => .v6 a port 0

/-- Address and port with a colon between them; IPv6 stands in brackets, with its interface behind a
percent sign when it has one. -/
def text : Endpoint → List Char
  | .v4 a p => a.text ++ ':' :: Text.decimal p.toNat
  | .v6 a p scope =>
    let interface := if scope = 0 then [] else '%' :: Text.decimal scope.toNat
    '[' :: a.text ++ interface ++ [']', ':'] ++ Text.decimal p.toNat

/-- A decimal numeral below `bound` at the front of a text. -/
def readNumeral? (bound : Nat) (s : List Char) : Option (Nat × List Char) :=
  match Text.readDigits? (s.takeWhile Text.isAsciiDigit) with
  | some n => if n < bound then some (n, s.dropWhile Text.isAsciiDigit) else none
  | none => none

/-- The port that ends the text of an endpoint. -/
def readPort? : List Char → Option UInt16
  | ':' :: s => match readNumeral? 65536 s with
    | some (n, []) => some (UInt16.ofNat n)
    | _ => none
  | _ => none

/-- The interface of an IPv6 endpoint, zero when the text names none. -/
def readScope? : List Char → Option (UInt32 × List Char)
  | '%' :: s => (readNumeral? 4294967296 s).map fun (n, rest) => (UInt32.ofNat n, rest)
  | s => some (0, s)

def ofText? (s : List Char) : Option Endpoint :=
  match V4.read? s with
  | some (a, rest) => (readPort? rest).map (.v4 a)
  | none => do
    let s ← Text.dropLead? ['['] s
    let (a, s) ← V6.read? s
    let (scope, s) ← readScope? s
    let s ← Text.dropLead? [']'] s
    return .v6 a (← readPort? s) scope

end Endpoint
end Speedtest.Address
