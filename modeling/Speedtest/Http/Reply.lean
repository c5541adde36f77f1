import Speedtest.Bytes

/-!
# What another server does

A question to another server meets one of a few fates. What it is does not follow from anything known here, so
it is an input of whatever asks.
-/
namespace Speedtest.Http

/-- What another server does with a question. -/
inductive Reply where
  /-- No connection comes about. -/
  | refused
  /-- The connection is closed without an answer. -/
  | closed
  /-- A final answer with the body that is received with it, which may break off. -/
  | answer (status : Nat) (body : Bytes) (complete : Bool)
  deriving DecidableEq

/-- Whether a question arrives at the server. -/
def Reply.arrives : Reply → Bool
  | .refused => false
  | _ => true

end Speedtest.Http
