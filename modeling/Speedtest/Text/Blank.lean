import Speedtest.Text.Scan

/-!
# Blanks

The white space of the standard: the characters that trimming takes off both ends of a text.
-/
namespace Speedtest.Text

/-- White space, from the tab to the ideographic space. -/
def isBlank (c : Char) : Bool :=
  let n := c.toNat
  (9 ≤ n && n ≤ 13) || n == 0x20 || n == 0x85 || n == 0xA0 || n == 0x1680 ||
    (0x2000 ≤ n && n ≤ 0x200A) || n == 0x2028 || n == 0x2029 || n == 0x202F || n == 0x205F ||
    n == 0x3000

/-- The text without the blanks at its two ends. -/
def trim (s : List Char) : List Char := trimBy isBlank s

end Speedtest.Text
