import Speedtest.Bytes

/-!
# Bodies of requests

A body arrives in frames, and its source may fail after the last one. Whoever gathers a body sets a limit; a
frame that would go beyond the limit ends the reading, and so does the failure.
-/
namespace Speedtest.Http

/-- The frames of a body in order, and the reason if its source fails after them. -/
structure Body where
  frames : List Bytes
  failure : Option String
  deriving DecidableEq

/-- Why a body cannot be gathered. -/
inductive BodyFault where
  | tooLong
  | unreadable (reason : String)
  deriving DecidableEq

namespace Body

def ofBytes (b : Bytes) : Body := ⟨[b], none⟩

def received (b : Body) : Nat := b.frames.flatten.length

/-- Whether frames keep within a limit. -/
def fits (limit : Nat) (b : Body) : Bool := b.received ≤ limit

def gather (limit : Nat) (b : Body) : Except BodyFault Bytes :=
  if !b.fits limit then .error .tooLong
  else match b.failure with
    | some reason => .error (.unreadable reason)
    | none => .ok b.frames.flatten

end Body
end Speedtest.Http
