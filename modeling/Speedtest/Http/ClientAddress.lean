import Speedtest.Address.Ip
import Speedtest.Http.Headers
import Speedtest.Text.Blank

/-!
# The client's address

A relay may name the client in a header field. When such fields are trusted, the first of three candidates
that is an address decides; otherwise, and when none is, the address is the one of the connection. It is
canonical in both cases.
-/
namespace Speedtest.Http.ClientAddress

/-- The text before the first comma. -/
def firstItem (s : List Char) : List Char := s.takeWhile (· != ',')

/-- The address that a field names, read from a part of its value. -/
def named? (h : Headers) (name : String) (part : List Char → List Char) : Option Address.Ip :=
  (h.text? name).bind fun value => Address.Ip.ofText? (Text.trim (part value.toList))

/-- The address that the fields name: those of a single address first, then the start of the list. -/
def forwarded? (h : Headers) : Option Address.Ip :=
  (named? h "true-client-ip" id).or
    ((named? h "x-real-ip" id).or (named? h "x-forwarded-for" firstItem))

def resolve (peer : Address.Endpoint) (h : Headers) (trusted : Bool) : Address.Ip :=
  ((if trusted then forwarded? h else none).getD peer.ip).canonical

/-- The client's address as it is shown and stored. -/
def text (peer : Address.Endpoint) (h : Headers) (trusted : Bool) : String :=
  String.ofList (resolve peer h trusted).text

end Speedtest.Http.ClientAddress
