/-!
# Failures to accept

A failure to accept a connection has a kind, and a number where it comes from the system. It belongs to the one
connection, or to resources that are free again after a while, or else to the socket. Which numbers stand for
resources depends on the platform.
-/
namespace Speedtest.Serving

/-- The kinds of failures that are told apart. -/
inductive FailureKind where
  | refused
  | aborted
  | reset
  | interrupted
  | wouldBlock
  | other
  deriving DecidableEq

/-- What a server runs on. -/
inductive Platform where
  | linux
  | bsd
  | windows
  | other
  deriving DecidableEq

/-- The numbers for a lack of descriptors, buffers or memory. -/
def Platform.resourceNumbers : Platform → List Int
  | .linux => [23, 24, 105, 12]
  | .bsd => [23, 24, 55, 12]
  | .windows => [10024, 10055]
  | .other => []

/-- A failure to accept a connection, as a platform reports it. -/
structure AcceptError where
  platform : Platform
  kind : FailureKind
  number : Option Int
  reason : String
  deriving DecidableEq

/-- What a failure to accept is laid to. -/
inductive AcceptFault where
  /-- Something was wrong with the connection. -/
  | connection
  /-- There was no room for another connection. -/
  | resources
  /-- Something is wrong with the socket. -/
  | socket
  deriving DecidableEq

namespace AcceptError

/-- The kinds of failures that are over with the connection. -/
def connectionKinds : List FailureKind := [.refused, .aborted, .reset, .interrupted, .wouldBlock]

def isOfConnection (e : AcceptError) : Bool := connectionKinds.contains e.kind

def isOfResources (e : AcceptError) : Bool := e.number.any e.platform.resourceNumbers.contains

/-- What a failure is laid to. The connection comes first. -/
def fault (e : AcceptError) : AcceptFault :=
  if e.isOfConnection then .connection
  else if e.isOfResources then .resources
  else .socket

theorem fault_eq_socket_iff {e : AcceptError} :
    e.fault = .socket ↔ e.isOfConnection = false ∧ e.isOfResources = false := by
  unfold fault
  cases e.isOfConnection <;> cases e.isOfResources <;> simp

end AcceptError
end Speedtest.Serving
