import Speedtest.Text.Printable
import Speedtest.Text.Numeral

/-!
# Quoted text

Messages show a text between double quotes. The quote, the backslash and the common controls are
escaped by a backslash, and a character without a picture of its own is spelled by its number.
-/
namespace Speedtest.Text

/-- A character by its number, as in `\u{200b}`. -/
def spelled (c : Char) : List Char :=
  ['\\', 'u', '\x7b'] ++ hexadecimal c.toNat ++ ['\x7d']

/-- A character as it stands between double quotes. -/
def quotedChar (c : Char) : List Char :=
  if c = '\x00' then ['\\', '0']
  else if c = '\t' then ['\\', 't']
  else if c = '\r' then ['\\', 'r']
  else if c = '\n' then ['\\', 'n']
  else if c = '"' then ['\\', '"']
  else if c = '\\' then ['\\', '\\']
  else if isPrintable c then [c]
  else spelled c

def quoted (s : String) : String :=
  String.ofList (['"'] ++ s.toList.flatMap quotedChar ++ ['"'])

end Speedtest.Text
