import Speedtest.CommandLine.Stats
import Speedtest.Http.Message
import Speedtest.Url.Edit

/-!
# Asking for results

The client asks for the statistics below the base of a server, with what to show as a parameter and the
password as a bearer's token. The base may end in slashes, which do not matter. Only the two schemes of the
web can be asked.
-/
namespace Speedtest.Client

open CommandLine.Stats (Subject)

/-- Why nothing can be asked. -/
inductive Fault where
  | badPassword
  | badUrl (fault : Url.Fault)
  | badScheme
  deriving DecidableEq

/-- A question: where it goes, and the token that it carries. -/
structure Query where
  url : Url
  authorization : Bytes
  deriving DecidableEq

def subjectText : Subject → String
  | .last => "L100"
  | .single id => id

def bearerToken (password : String) : Bytes :=
  Text.Utf8.encode ("Bearer " ++ password).toList

def schemes : List (List Char) := ["http".toList, "https".toList]

/-- The locator of the statistics below a base. -/
def statsText (base : String) : List Char :=
  Text.dropBack (· == '/') base.toList ++ "/stats".toList

def locator (base : String) (subject : Subject) : Except Fault Url :=
  match Url.ofText (statsText base) with
  | .ok u =>
    if schemes.contains u.scheme then .ok (u.withParameter "id" (subjectText subject))
    else .error .badScheme
  | .error fault => .error (.badUrl fault)

namespace Query

/-- The question of a command line. -/
def build (base password : String) (subject : Subject) : Except Fault Query :=
  let token := bearerToken password
  if token.all Http.Headers.isValueByte then
    (locator base subject).map fun url => ⟨url, token⟩
  else .error .badPassword

/-- The question as it arrives at the server, over a connection from a peer. -/
def arriving? (q : Query) (peer : Option Address.Endpoint) : Option Http.Request :=
  (Http.Target.ofText? (String.ofList q.url.targetText)).map fun target =>
    { method := "GET", target, body := .ofBytes [], peer
      headers := [("authorization", Http.Headers.carried q.authorization)] }

end Query
end Speedtest.Client
