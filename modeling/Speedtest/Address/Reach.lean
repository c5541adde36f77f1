import Speedtest.Text.Digit
import Speedtest.Text.Scan

/-!
# Where an address reaches

The text of an address is sorted by ordered rules on its front, of which the first that matches
decides. The rules look at text alone, so they also give an answer for a text that is no address. The
second octet of a carrier address runs over 60-107, 110-117 and 120-127.
-/
namespace Speedtest.Address

/-- The two families of addresses. -/
inductive Family where
  | v4
  | v6
  deriving DecidableEq, Repr

/-- How far an address is known. -/
inductive Reach where
  | loopback (family : Family)
  | linkLocalV6
  | privateV4
  | linkLocalV4
  | carrier
  | everywhere
  deriving DecidableEq, Repr

/-- The text of an address without the lead that marks an IPv4 address carried in an IPv6 one. -/
def bareText (s : List Char) : List Char :=
  (Text.dropLead? "::ffff:".toList s).getD s

/-- Whether the second octet after `172.` is written as one of 16 to 31. -/
def isPrivate172 (s : List Char) : Bool :=
  match Text.dropLead? "172.".toList s with
  | some (a :: b :: '.' :: _) =>
    (a == '1' && '6' ≤ b && b ≤ '9') || (a == '2' && Text.isDigit b) ||
      (a == '3' && (b == '0' || b == '1'))
  | _ => false

/-- Whether the second octet after `100.` is written as one of a carrier's. -/
def isCarrier (s : List Char) : Bool :=
  match Text.dropLead? "100.".toList s with
  | some (a :: b :: '.' :: _) => '6' ≤ a && a ≤ '9' && '0' ≤ b && b ≤ '9'
  | some (a :: b :: c :: '.' :: _) => a == '1' && '0' ≤ b && b ≤ '2' && '0' ≤ c && c ≤ '7'
  | _ => false

namespace Reach

/-- The reach of the text of an address: the first rule that matches decides. -/
def ofText (s : List Char) : Reach :=
  let s := bareText s
  let leads (lead : String) : Bool := Text.startsWith lead.toList s
  if s = "::1".toList then .loopback .v6
  else if leads "fe80:" then .linkLocalV6
  else if leads "127." then .loopback .v4
  else if leads "10." || isPrivate172 s || leads "192.168." then .privateV4
  else if leads "169.254." then .linkLocalV4
  else if isCarrier s then .carrier
  else .everywhere

/-- Whether the address is known everywhere. -/
def isPublic (r : Reach) : Bool := r == .everywhere

/-- What is said about an address that is not known everywhere. -/
def note? : Reach → Option String
  | .loopback .v6 => some "localhost IPv6 access"
  | .linkLocalV6 => some "link-local IPv6 access"
  | .loopback .v4 => some "localhost IPv4 access"
  | .privateV4 => some "private IPv4 access"
  | .linkLocalV4 => some "link-local IPv4 access"
  | .carrier => some "CGNAT IPv4 access"
  | .everywhere => none

def message (r : Reach) : String := r.note?.getD "public access"

end Reach
end Speedtest.Address
