import Speedtest.Serving.AcceptError
import Speedtest.Serving.Tracker

/-!
# The life of a server

A server starts, serves, drains and stops, and publishes each of these as it comes to it. While it serves it
takes connections in, each with a task of its own. A connection that could not be accepted does not stop it. Where
there was no room for one it rests for a while, and nothing but its tasks goes on meanwhile. Any other failure to
accept makes it drain, and so does the end of its time. From then on it takes nothing in and waits for its
tasks, until they have finished or the grace period has elapsed and the rest of them are aborted. A socket that
cannot tell its address ends the run before it serves. Nothing else happens to a server, so an event that cannot
happen has no outcome.
-/
namespace Speedtest.Serving

/-- What a server publishes of itself. -/
inductive Phase where
  | starting
  | serving
  | draining
  | stopped
  deriving DecidableEq

def Phase.name : Phase → String
  | .starting => "Starting"
  | .serving => "Serving"
  | .draining => "Draining"
  | .stopped => "Stopped"

/-- Why a run failed. -/
inductive RunError where
  | accept (reason : String)
  | listener (reason : String)
  deriving DecidableEq

def RunError.message : RunError → String
  | .accept reason => "failed to accept connection: " ++ reason
  | .listener reason => "listener error: " ++ reason

/-- What happens to a server. -/
inductive Event where
  /-- The server begins to serve. -/
  | begin
  /-- The socket cannot tell its address. -/
  | unplaced (reason : String)
  /-- A connection is accepted. -/
  | accepted
  /-- No connection is accepted. -/
  | refused (error : AcceptError)
  /-- The rest for want of resources is over. -/
  | rested
  /-- The task of a connection finishes, which goes by the number of its guard. -/
  | finished (connection : Nat)
  /-- The server takes notice that it is to shut down. -/
  | shutdown
  /-- The grace period is over. -/
  | graceElapsed
  deriving DecidableEq

/-- A run of a server: what it has published, latest last, the connections that it has taken in, whether it
rests, and the failure that it ends with. -/
structure Run where
  phase : Phase
  published : List Phase
  tracked : Tracked
  resting : Bool
  failure : Option RunError
  deriving DecidableEq

namespace Run

/-- A server that has not begun to serve. -/
def start : Run := ⟨.starting, [.starting], .ofCount 1, false, none⟩

def openCount (r : Run) : Nat := r.tracked.trackers.activeCount 0

/-- What the run has come back with, if it has. -/
def returned? (r : Run) : Option (Except RunError Unit) :=
  match r.phase, r.failure with
  | .starting, some e => some (.error e)
  | .stopped, some e => some (.error e)
  | .stopped, none => some (.ok ())
  | _, _ => none

def publish (r : Run) (p : Phase) : Run :=
  { r with phase := p, published := r.published ++ [p] }

/-- The run stopped, if it is draining and no connection is open. -/
def settle (r : Run) : Run :=
  if r.phase = .draining ∧ r.tracked.live = [] then r.publish .stopped else r

def drain (r : Run) (failure : Option RunError) : Run :=
  settle { r.publish .draining with failure }

def takeIn (r : Run) : Run := { r with tracked := (r.tracked.track 0).2 }

def refuse (r : Run) (e : AcceptError) : Run :=
  match e.fault with
  | .connection => r
  | .resources => { r with resting := true }
  | .socket => r.drain (some (.accept e.reason))

def without (r : Run) (connection : Nat) : Run :=
  { r with tracked := (r.tracked.drop connection).2 }

/-- The run with all tasks gone. -/
def aborted (r : Run) : Run := r.tracked.live.foldl (fun r g => r.without g.id) r

def hasTask (r : Run) (connection : Nat) : Bool := (r.tracked.guard? connection).isSome

/-- The run after an event, if the event can happen. -/
def step (r : Run) (e : Event) : Option Run :=
  match r.phase, e with
  | .starting, .begin => if r.failure.isNone then some (r.publish .serving) else none
  | .starting, .unplaced reason =>
    if r.failure.isNone then some { r with failure := some (.listener reason) } else none
  | .serving, .accepted => if r.resting then none else some r.takeIn
  | .serving, .refused error => if r.resting then none else some (r.refuse error)
  | .serving, .shutdown => if r.resting then none else some (r.drain none)
  | .serving, .rested => if r.resting then some { r with resting := false } else none
  | .serving, .finished c => if r.hasTask c then some (r.without c) else none
  | .draining, .finished c => if r.hasTask c then some (r.without c).settle else none
  | .draining, .graceElapsed => some r.aborted.settle
  | _, _ => none

/-- The run after events, if they can happen in this order. -/
def steps (r : Run) : List Event → Option Run
  | [] => some r
  | e :: es => (r.step e).bind fun r => steps r es

end Run
end Speedtest.Serving
