import Speedtest.Form
import Speedtest.Http.Headers

/-!
# The gate in front of stored results

A gate says whether it is set up and whether a request may pass. The gate that the service uses asks for
a password, either as a bearer token or as a parameter. Comparing the password looks at every byte
whatever the first difference, and still it is equality.
-/
namespace Speedtest.Access

/-- The password that the service ships with, which opens nothing. -/
def placeholderPassword : String := "PASSWORD"

/-- A gate. Asking it for leave may crash, which is `none`. -/
structure Gate where
  configured : Bool
  authorize : Http.Headers → Form.Pairs → Option Bool

/-- The bits in which byte strings of one length differ, gathered over all places. -/
def difference (a b : Bytes) : UInt8 := (a.zip b).foldl (fun acc (x, y) => acc ||| (x ^^^ y)) 0

/-- Whether two byte strings are the same, found without stopping at the first difference. -/
def sameBytes (a b : Bytes) : Bool := a.length == b.length && difference a b == 0

/-- The gate of a password. -/
structure PasswordGate where
  password : String
  deriving DecidableEq

namespace PasswordGate

def matches? (g : PasswordGate) (candidate : String) : Bool :=
  sameBytes (Text.Utf8.encode g.password.toList) (Text.Utf8.encode candidate.toList)

/-- Whether a password is set that is not the placeholder. -/
def isConfigured (g : PasswordGate) : Bool := g.password != "" && g.password != placeholderPassword

/-- The token of the first `Authorization` field. -/
def bearer? (h : Http.Headers) : Option String :=
  (h.text? "authorization").bind fun value =>
    (Text.dropLead? "Bearer ".toList value.toList).map String.ofList

def authorize (g : PasswordGate) (h : Http.Headers) (params : Form.Pairs) : Bool :=
  g.isConfigured &&
    ((bearer? h).any g.matches? || (params.lookup "password").any g.matches?)

/-- The gate of the password, which never crashes. -/
def toGate (g : PasswordGate) : Gate := ⟨g.isConfigured, fun h params => some (g.authorize h params)⟩

end PasswordGate
end Speedtest.Access
