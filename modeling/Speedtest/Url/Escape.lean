import Speedtest.Text.Percent
import Speedtest.Text.Utf8

/-!
# What is escaped where

Each part of a locator has its own set of bytes that stand for themselves. Control characters and
everything outside ASCII are escaped in all of them.
-/
namespace Speedtest.Url.Escape

/-- Whether a byte is printable ASCII and none of the given characters. -/
def outside (marks : String) (b : UInt8) : Bool :=
  0x20 ≤ b && b < 0x7F && !(Bytes.ofAscii marks).contains b

def fragment : UInt8 → Bool := outside " \"<>`"
def query : UInt8 → Bool := outside " \"#<>"
def webQuery : UInt8 → Bool := outside " \"#<>'"
def path : UInt8 → Bool := outside " \"<>`#?^\x7b\x7d"
def credentials : UInt8 → Bool := outside " \"<>`#?^\x7b\x7d/:;=@[\\]|"
def segment : UInt8 → Bool := outside " \"<>`#?^\x7b\x7d/%"
def webSegment : UInt8 → Bool := outside " \"<>`#?^\x7b\x7d/%\\"
def flatPath : UInt8 → Bool := outside ""

/-- A text with every byte escaped that does not stand for itself. -/
def apply (keep : UInt8 → Bool) (s : List Char) : List Char :=
  Text.Percent.encode keep (Text.Utf8.encode s)

end Speedtest.Url.Escape
