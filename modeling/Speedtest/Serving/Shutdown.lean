/-!
# Asking for shutdown

A shutdown is asked for through any handle, and whoever waits for it is woken. The handles send on a broadcast
channel that holds one message; each waiter reads from the place at which the channel stood when it started. A
waiter that finds its message overwritten has still been woken, and so has one whose channel has no
sender left.
-/
namespace Speedtest.Serving

/-- A broadcast channel that holds one message. The messages are numbered as they are sent. -/
structure Channel where
  /-- The number that the next message gets. -/
  next : Nat
  /-- The number of the message that is held. -/
  held : Option Nat
  senders : Nat
  receivers : Nat
  deriving DecidableEq, Repr

/-- What a receiver finds. -/
inductive Received where
  | message
  /-- Messages were overwritten before they were read. -/
  | lagged (missed : Nat)
  | empty
  | closed
  deriving DecidableEq, Repr

namespace Channel

/-- Sends a message over the one that is held. Without a receiver nothing is sent. -/
def send (c : Channel) : Channel :=
  if c.receivers = 0 then c else { c with next := c.next + 1, held := some c.next }

/-- Another receiver, which reads from the next message on. -/
def subscribe (c : Channel) : Channel := { c with receivers := c.receivers + 1 }

def unsubscribe (c : Channel) : Channel := { c with receivers := c.receivers - 1 }

def addSender (c : Channel) : Channel := { c with senders := c.senders + 1 }

def removeSender (c : Channel) : Channel := { c with senders := c.senders - 1 }

/-- What a receiver finds that has read all there was. -/
def vacant (c : Channel) : Received := if c.senders = 0 then .closed else .empty

/-- What a receiver finds that reads the message `position` next. -/
def receive (c : Channel) (position : Nat) : Received :=
  match c.held with
  | none => c.vacant
  | some n =>
    if n < position then c.vacant
    else if n = position then .message
    else .lagged (n - position)

end Channel

/-- The channel together with the handles and waiters that were made, those that are gone as `false` and
`none`. A waiter is the place that it reads from. -/
structure Shutdown where
  channel : Channel
  handles : List Bool
  waiters : List (Option Nat)
  deriving DecidableEq, Repr

namespace Shutdown

def start : Shutdown := ⟨⟨0, none, 1, 0⟩, [true], []⟩

def hasHandle (s : Shutdown) (h : Nat) : Bool := s.handles[h]? == some true

/-- Makes a waiter from a handle; its number comes back. -/
def wait (s : Shutdown) (h : Nat) : Option Nat × Shutdown :=
  if s.hasHandle h then
    (some s.waiters.length,
      { s with channel := s.channel.subscribe, waiters := s.waiters ++ [some s.channel.next] })
  else (none, s)

/-- Makes another handle from a handle; its number comes back. -/
def clone (s : Shutdown) (h : Nat) : Option Nat × Shutdown :=
  if s.hasHandle h then
    (some s.handles.length, { s with channel := s.channel.addSender, handles := s.handles ++ [true] })
  else (none, s)

def trigger (s : Shutdown) (h : Nat) : Bool × Shutdown :=
  if s.hasHandle h then (true, { s with channel := s.channel.send }) else (false, s)

/-- The coordinator without a waiter. -/
def withoutWaiter (s : Shutdown) (w : Nat) : Shutdown :=
  { s with channel := s.channel.unsubscribe, waiters := s.waiters.set w none }

/-- Asks a waiter whether it has been woken; one that has is gone afterwards. -/
def poll (s : Shutdown) (w : Nat) : Option Bool × Shutdown :=
  match s.waiters[w]? with
  | some (some position) =>
    if s.channel.receive position = .empty then (some false, s) else (some true, s.withoutWaiter w)
  | _ => (none, s)

/-- Drops a waiter, and tells whether it was there. -/
def forget (s : Shutdown) (w : Nat) : Bool × Shutdown :=
  match s.waiters[w]? with
  | some (some _) => (true, s.withoutWaiter w)
  | _ => (false, s)

/-- Drops a handle, and tells whether it was there. -/
def drop (s : Shutdown) (h : Nat) : Bool × Shutdown :=
  if s.hasHandle h then
    (true, { s with channel := s.channel.removeSender, handles := s.handles.set h false })
  else (false, s)

/-- How many waiters are there, as long as some handle can tell. -/
def receiverCount (s : Shutdown) : Option Nat :=
  if s.handles.any id then some s.channel.receivers else none

end Shutdown
end Speedtest.Serving
