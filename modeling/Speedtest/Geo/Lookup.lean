import Speedtest.Geo.Profile
import Speedtest.Http.Reply
import Speedtest.Json.Reader
import Speedtest.Url.Edit

/-!
# Asking the lookup service

The service is asked for an address, or for the address that the question comes from. Its locator is
a base with the address and the word `json` below it, and the key as a parameter. What the service
does is a value of its own, so an answer here is a function of the question and of that value.
-/
namespace Speedtest.Geo

/-- Where the lookup service is and the key to it. -/
structure Lookup where
  base : Url
  key : Option String
  deriving DecidableEq

/-- Why there is no lookup service. -/
inductive LookupError where
  | badUrl (fault : Url.Fault)
  | flatBase (base : String)
  deriving DecidableEq

def LookupError.message : LookupError → String
  | .badUrl fault => "invalid lookup URL: " ++ fault.message
  | .flatBase base => "lookup base URL cannot carry a path: " ++ base

/-- The profile in an answer that reports no failure and is complete. -/
def profileOf? : Http.Reply → Option Profile
  | .answer status body complete =>
    if (400 ≤ status ∧ status < 600) ∨ !complete then none
    else (Json.read? body).bind Profile.ofJson?
  | _ => none

namespace Lookup

/-- The service at a base; an empty key is none. -/
def ofSettings (base key : String) : Except LookupError Lookup :=
  match Url.ofText base.toList with
  | .ok u => .ok ⟨u, if key = "" then none else some key⟩
  | .error fault => .error (.badUrl fault)

/-- The locator of the question for an address, or for the asker's own address. -/
def url (l : Lookup) (address : Option String) : Except LookupError Url :=
  let segments := (address.toList ++ ["json"]).map String.toList
  match l.base.below? segments, l.key with
  | some u, some key => .ok (u.withParameter "token" key)
  | some u, none => .ok u
  | none, _ => .error (.flatBase (String.ofList l.base.text))

/-- An outcome together with the locators that the service was asked for. -/
structure Asked (α : Type) where
  result : α
  requests : List Url

/-- Asks the service, which replies as given. -/
def ask (l : Lookup) (reply : Http.Reply) (address : Option String) : Asked (Option Profile) :=
  match l.url address with
  | .ok u => ⟨profileOf? reply, if reply.arrives then [u] else []⟩
  | .error _ => ⟨none, []⟩

/-- The profile of an address, empty when the service does not tell it. -/
def profile (l : Lookup) (reply : Http.Reply) (address : String) : Asked Profile :=
  let asked := l.ask reply (some address)
  ⟨asked.result.getD {}, asked.requests⟩

/-- The server's coordinate: the configured one, or, when that is zero, the one that the service knows
of the server's own address. Whatever goes wrong leaves the origin. -/
def serverCoordinate (l : Lookup) (reply : Http.Reply) (configured : Coordinate) : Asked Coordinate :=
  if configured.isZero then
    let asked := l.ask reply none
    match asked.result.map fun p => Coordinate.ofLocation p.location.toList with
    | some (.ok c) => ⟨c, asked.requests⟩
    | _ => ⟨.origin, asked.requests⟩
  else ⟨configured, []⟩

end Lookup
end Speedtest.Geo
