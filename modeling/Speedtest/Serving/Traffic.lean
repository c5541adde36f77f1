import Speedtest.Serving.Connection

/-!
# Connections at the same time

Connections that are open at the same time take turns. The first turn of a connection takes the header off it, and
each turn after that answers its next request. The service and its state are shared, and nothing else is; so whatever
order the turns come in, one turn is all that happens at a time.
-/
namespace Speedtest.Serving

/-- How far a connection has come. -/
inductive Stage where
  /-- Nothing has been taken off it. -/
  | opened
  /-- Its header has been taken off: the answers so far, the latest last, and the requests still to come. -/
  | talking (answers : List Service.Answer) (waiting : List Service.Arrival)
  /-- It was dropped for its header. -/
  | dropped

/-- The answers that went out on a connection. -/
def Stage.answers : Stage → List Service.Answer
  | .talking answers _ => answers
  | _ => []

/-- Connections, each by a number, and the state that they share. -/
structure Traffic where
  stage : Nat → Stage
  state : Service.State

/-- Connections of which none has had a turn. -/
def Traffic.start (st : Service.State) : Traffic := ⟨fun _ => .opened, st⟩

namespace Server

/-- A turn of a connection. One that was dropped has nothing to do in it, nor has one without requests left. -/
def advance (s : Server) (decode : Decoder) (c : Connection) : Stage → Service.State → Stage × Service.State
  | .opened, st =>
    match s.arrivals decode c with
    | .ok arrivals => (.talking [] arrivals, st)
    | .error _ => (.dropped, st.count .badHeaders 1)
  | .talking answers ((m, r) :: waiting), st =>
    let (answer, st) := s.service.exchange m r st
    (.talking (answers ++ [answer]) waiting, st)
  | .talking answers [], st => (.talking answers [], st)
  | .dropped, st => (.dropped, st)

def turn (s : Server) (decode : Decoder) (conn : Nat → Connection) (t : Traffic) (n : Nat) : Traffic :=
  let (stage, state) := s.advance decode (conn n) (t.stage n) t.state
  ⟨fun k => if k = n then stage else t.stage k, state⟩

def turns (s : Server) (decode : Decoder) (conn : Nat → Connection) (order : List Nat) (t : Traffic) : Traffic :=
  order.foldl (s.turn decode conn) t

end Server
end Speedtest.Serving
