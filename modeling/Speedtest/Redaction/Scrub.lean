import Speedtest.Redaction.Address
import Speedtest.Redaction.Hostname

/-!
# Scrubbing

What a client sends may tell its address. Scrubbing takes host names out first, then IPv4 addresses, then
IPv6 addresses.
-/
namespace Speedtest.Redaction

def placeholder : String := "0.0.0.0"

def hiddenHostname : String := "\"hostname\":\"REDACTED\""

/-- A text without the addresses and host names in it. -/
def scrub (s : List Char) : List Char :=
  let s := Text.replaceAll hostname hiddenHostname.toList s
  let s := Text.replaceAll v4 placeholder.toList s
  Text.replaceAll v6 placeholder.toList s

/-- `scrub` on strings. -/
def scrubText (s : String) : String := String.ofList (scrub s.toList)

end Speedtest.Redaction
