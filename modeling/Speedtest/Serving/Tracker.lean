import Speedtest.Text.Numeral

/-!
# Counting connections

A tracker counts the connections that are open. Taking a connection in gives out a guard, and dropping
the guard takes the connection off the count. Guards carry numbers that are unique over all trackers. A
tracker is reached through handles: it comes with one, and whoever has a handle can make another on the
same tracker. A guard keeps to the tracker that gave it out, whichever handle that was.
-/
namespace Speedtest.Serving

/-- A connection that is counted: its number, and the tracker that counts it. -/
structure Guard where
  id : Nat
  tracker : Nat
  deriving DecidableEq

/-- The name of a connection in diagnostics. -/
def Guard.name (g : Guard) : String := "conn-" ++ String.ofList (Text.decimal g.id)

/-- The counts of all trackers and the number that the next guard gets. -/
structure Trackers where
  nextId : Nat
  active : List Nat
  deriving DecidableEq

namespace Trackers

/-- So many trackers that have counted nothing, before the first guard of all. -/
def ofCount (count : Nat) : Trackers := ⟨1, List.replicate count 0⟩

def activeCount (t : Trackers) (tracker : Nat) : Nat := (t.active[tracker]?).getD 0

def track (t : Trackers) (tracker : Nat) : Guard × Trackers :=
  (⟨t.nextId, tracker⟩, ⟨t.nextId + 1, t.active.modify tracker (· + 1)⟩)

def drop (t : Trackers) (g : Guard) : Trackers :=
  { t with active := t.active.modify g.tracker (· - 1) }

end Trackers

/-- The trackers together with the guards that were given out and are still there, the latest first. -/
structure Tracked where
  trackers : Trackers
  live : List Guard
  deriving DecidableEq

namespace Tracked

def ofCount (count : Nat) : Tracked := ⟨.ofCount count, []⟩

def track (t : Tracked) (tracker : Nat) : Guard × Tracked :=
  let (g, trackers) := t.trackers.track tracker
  (g, ⟨trackers, g :: t.live⟩)

/-- The guard with a number, if it is still there. -/
def guard? (t : Tracked) (id : Nat) : Option Guard := t.live.find? (·.id == id)

/-- Drops the guard with a number, and tells whether it was still there. -/
def drop (t : Tracked) (id : Nat) : Bool × Tracked :=
  match t.guard? id with
  | some g => (true, ⟨t.trackers.drop g, t.live.erase g⟩)
  | none => (false, t)

end Tracked

/-- One more tracker, which has counted nothing. -/
def Trackers.create (t : Trackers) : Trackers := { t with active := t.active ++ [0] }

/-- The trackers with their guards, and the tracker of each handle in the order in which they were made. -/
structure Handles where
  tracked : Tracked
  trackers : List Nat
  deriving DecidableEq

namespace Handles

def start : Handles := ⟨.ofCount 0, []⟩

/-- Makes a tracker; the number of the handle on it comes back. -/
def create (s : Handles) : Nat × Handles :=
  (s.trackers.length,
    { tracked := { s.tracked with trackers := s.tracked.trackers.create }
      trackers := s.trackers ++ [s.tracked.trackers.active.length] })

/-- Makes another handle from a handle; its number comes back. -/
def clone (s : Handles) (h : Nat) : Option Nat × Handles :=
  match s.trackers[h]? with
  | some tracker => (some s.trackers.length, { s with trackers := s.trackers ++ [tracker] })
  | none => (none, s)

def track (s : Handles) (h : Nat) : Option Guard × Handles :=
  match s.trackers[h]? with
  | some tracker => (some (s.tracked.track tracker).1, { s with tracked := (s.tracked.track tracker).2 })
  | none => (none, s)

/-- Drops the guard with a number, and tells which it was. -/
def drop (s : Handles) (id : Nat) : Option Guard × Handles :=
  (s.tracked.guard? id, { s with tracked := (s.tracked.drop id).2 })

def activeCount? (s : Handles) (h : Nat) : Option Nat :=
  s.trackers[h]?.map s.tracked.trackers.activeCount

end Handles
end Speedtest.Serving
