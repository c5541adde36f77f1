import Speedtest.Http.Status
import Speedtest.Json.Pretty
import Speedtest.Text.Charset

/-!
# Reporting an answer

The client prints the document that it got, laid out for people, or whatever else it got as it is. An answer
that reports a failure is told with its status and what came with it.
-/
namespace Speedtest.Client

/-- What a program has printed, and the code that it exits with. -/
structure Report where
  output : String
  errors : String
  code : Nat
  deriving DecidableEq

def answerText (body : Bytes) : String := String.ofList (Text.Charset.decode .utf8 body)

/-- A text laid out for people, if it is a document. -/
def laidOut (text : String) : String :=
  match (Json.Pretty.ofBytes? (Text.Utf8.encode text.toList)).bind Text.Utf8.decode? with
  | some s => String.ofList s
  | none => text

namespace Report

/-- A failure, of which only the message is printed. -/
def failed (message : String) : Report := ⟨"", "Error: " ++ message ++ "\n", 1⟩

/-- What is printed of an answer, whose body may break off. -/
def ofAnswer (status : Nat) (body : Bytes) (complete : Bool) : Report :=
  if 200 ≤ status ∧ status < 300 then
    if complete then ⟨laidOut (answerText body) ++ "\n", "", 0⟩
    else failed "error decoding response body"
  else
    let first := "Error: stats endpoint returned status " ++ Http.Status.text status ++ "\n"
    ⟨"", if complete then first ++ "Response: " ++ answerText body ++ "\n" else first, 0⟩

end Report
end Speedtest.Client
