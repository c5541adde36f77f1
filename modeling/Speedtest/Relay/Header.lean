import Speedtest.Address.Ip

/-!
# What a relay tells

A relay that passes a connection on may put a header in front of it, which names the two ends of the
connection that it relays. A header may also say that the connection is the relay's own.
-/
namespace Speedtest.Relay

/-- The two ends of a connection, in one family. -/
inductive Route where
  | v4 (source : Address.V4) (sourcePort : UInt16) (destination : Address.V4)
      (destinationPort : UInt16)
  | v6 (source : Address.V6) (sourcePort : UInt16) (destination : Address.V6)
      (destinationPort : UInt16)
  deriving DecidableEq

namespace Route

def source : Route → Address.Endpoint
  | .v4 a p _ _ => .v4 a p
  | .v6 a p _ _ => .v6 a p 0

def destination : Route → Address.Endpoint
  | .v4 _ _ a p => .v4 a p
  | .v6 _ _ a p => .v6 a p 0

end Route

/-- What a header says. -/
inductive Header where
  /-- The connection is relayed for a client. -/
  | proxied (route : Route)
  /-- The connection is the relay's own, or not one of addresses. -/
  | own
  deriving DecidableEq

/-- What is wrong with a header in text form. -/
inductive TextFault where
  | tooLong
  | notText
  | fieldCount
  | unknownProtocol
  | badAddress
  | badPort
  deriving DecidableEq, Repr

def TextFault.message : TextFault → String
  | .tooLong => "header line too long"
  | .notText => "not ASCII"
  | .fieldCount => "wrong field count"
  | .unknownProtocol => "unknown protocol"
  | .badAddress => "invalid address"
  | .badPort => "invalid port"

/-- What is wrong with a header in binary form. -/
inductive BinaryFault where
  | noSignature
  | badVersion
  | unknownCommand
  | shortV4
  | shortV6
  | unknownFamily
  deriving DecidableEq, Repr

def BinaryFault.message : BinaryFault → String
  | .noSignature => "missing signature"
  | .badVersion => "unsupported version"
  | .unknownCommand => "unknown command"
  | .shortV4 => "short IPv4 address block"
  | .shortV6 => "short IPv6 address block"
  | .unknownFamily => "unknown address family"

/-- Why no header was read. -/
inductive HeaderError where
  /-- Reading failed, for a reason that the stream gives. -/
  | unreadable (reason : String)
  | truncated
  | timeout
  | badText (fault : TextFault)
  | badBinary (fault : BinaryFault)
  deriving DecidableEq

def HeaderError.message : HeaderError → String
  | .unreadable reason => "I/O error reading PROXY header: " ++ reason
  | .truncated => "connection closed inside the PROXY header"
  | .timeout => "timed out waiting for the PROXY header"
  | .badText fault => "malformed PROXY v1 header: " ++ fault.message
  | .badBinary fault => "malformed PROXY v2 header: " ++ fault.message

end Speedtest.Relay
