import Speedtest.Address.Ip
import Speedtest.Settings.Validation

/-!
# Where connections come from

A process serves from one socket: one that it opens itself at the address and port of the settings, or one
that was handed to it. The decision is made once, from the settings and the sockets that were handed over,
and a socket next to an explicit address or port is a conflict rather than a choice.
-/
namespace Speedtest.Serving

/-- A socket that listens. -/
structure Socket where
  endpoint : Address.Endpoint
  deriving DecidableEq

/-- Why there is no socket to serve from. -/
inductive ListenerError where
  | relayPort
  | conflict
  | tooManySockets (count : Nat)
  | badPort (port : String)
  | bind (place reason : String)
  deriving DecidableEq

def ListenerError.message : ListenerError → String
  | .relayPort => "proxyprotocol_port is deprecated, use enable_proxyprotocol"
  | .conflict =>
    "configure either 'bind_address' and 'listen_port' or socket activation, not both " ++
      "(set both to '' to use the inherited socket)"
  | .tooManySockets count =>
    "asked to listen on " ++ String.ofList (Text.decimal count) ++
      " sockets via socket activation, only 1 is supported"
  | .badPort port => "invalid listen_port " ++ Text.quoted port
  | .bind place reason => "failed to listen on " ++ place ++ ": " ++ reason

/-- Where the socket comes from. -/
inductive Source where
  | fresh (address : String) (port : UInt16)
  | inherited (socket : Socket)
  deriving DecidableEq

/-- The port of the settings; none stands for any port that is free. -/
def readPort (port : String) : Except ListenerError UInt16 :=
  if port = "" then .ok 0
  else match Settings.portNumber? port with
    | some n => .ok (UInt16.ofNat n)
    | none => .error (.badPort port)

def Source.resolve (s : Settings) (inherited : List Socket) : Except ListenerError Source :=
  if s.usesRelayPort then .error .relayPort
  else match inherited with
    | [] => (readPort s.listenPort).map (.fresh s.bindAddress)
    | [socket] => if s.hasExplicitBind then .error .conflict else .ok (.inherited socket)
    | _ => .error (.tooManySockets inherited.length)

/-- What a socket needs from the machine: which addresses are its own, and a port that is free. -/
structure Machine where
  owns : Address.Ip → Bool
  freePort : UInt16

namespace Machine

/-- Whether a machine without a network owns an address: the unspecified one, loopback addresses, and the
IPv4 addresses of groups. -/
def ownsAlone : Address.Ip → Bool
  | .v4 a => a == .unspecified || a.o1 == 127 || 224 ≤ a.o1 && a.o1 ≤ 239 || a.toNat == Nat.pow 2 32 - 1
  | .v6 a => a == .unspecified || a.toNat == 1

/-- A machine without a network. -/
def alone : Machine := ⟨ownsAlone, 49152⟩

end Machine

/-- The host of an address, which may stand in brackets. -/
def hostText (address : String) : List Char :=
  Text.dropBack (· == ']') (address.toList.dropWhile (· == '['))

/-- The endpoint at which a socket is opened; every address of the machine when none is named. -/
def bindEndpoint (address : String) (port : UInt16) : Except ListenerError Address.Endpoint :=
  let host := hostText address
  if host.isEmpty then .ok (.v4 .unspecified port)
  else match Address.Ip.ofText? host with
    | some ip => .ok (.ofIp ip port)
    | none => .error (.bind
        (address ++ ":" ++ String.ofList (Text.decimal port.toNat)) "invalid IP address syntax")

/-- An endpoint at which something listens, with a free port in the place of none. -/
def Machine.settle (m : Machine) (e : Address.Endpoint) : Address.Endpoint :=
  if e.port = 0 then .ofIp e.ip m.freePort else e

def Source.opened (m : Machine) : Source → Except ListenerError Socket
  | .inherited socket => .ok socket
  | .fresh address port =>
    (bindEndpoint address port).bind fun e =>
      if m.owns e.ip then .ok ⟨m.settle e⟩
      else .error (.bind (String.ofList e.text) "Cannot assign requested address (os error 99)")

/-- The socket that the process serves from. -/
def listen (m : Machine) (s : Settings) (inherited : List Socket) : Except ListenerError Socket :=
  (Source.resolve s inherited).bind (Source.opened m)

end Speedtest.Serving
