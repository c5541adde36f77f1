import Speedtest.Service.Answer

/-!
# Responses given out piece by piece

The body of a download is made while it goes out: whoever sends it polls it for one piece after another, each piece
is counted when it is given out, and a client that goes away leaves the rest of it unmade. A visit is a request
together with the number of polls of its response, and it is an exchange when the polls reach the end.
-/
namespace Speedtest

/-- The pieces that so many polls of a body give out. A byte string is there from the start. -/
def Http.Payload.pieces : Http.Payload → (polls : Nat) → List Bytes
  | .bytes b, _ => [b]
  | .chunks stream, polls => (stream.polls polls).1.reduceOption

namespace Service

/-- The state after so many polls of a body, each of which counts the piece that it gives out. -/
def State.streamed (st : State) (body : Http.Payload) (polls : Nat) : State :=
  match body with
  | .bytes _ => st
  | .chunks _ => (body.pieces polls).foldl (fun st piece => st.count .downloaded piece.length) st

/-- A request with what it meets, and how often the body of its response is polled before it is dropped. -/
structure Visit where
  moment : Moment
  request : Http.Request
  polls : Nat

/-- What happened at a visit: the state that it found, and the answer that it got. -/
structure Event extends Visit where
  before : State
  answer : Answer

/-- Answers a request and lets as much of its response go out as it is polled for. -/
def visit (s : Service) (v : Visit) (st : State) : Event × State :=
  let (answer, after) := s.answer v.moment v.request st
  (⟨v, st, answer⟩, after.streamed answer.response.body v.polls)

def visitAll (s : Service) : List Visit → State → List Event × State
  | [], st => ([], st)
  | v :: rest, st =>
    let (event, st) := s.visit v st
    let (events, st) := visitAll s rest st
    (event :: events, st)

end Service
end Speedtest
