/-!
# ASCII characters

Letter case and the hexadecimal digits, for the places where a format admits ASCII alone.
-/
namespace Speedtest.Text

/-- Lower case of an ASCII letter; every other character is kept. -/
def asciiLower (c : Char) : Char :=
  if 'A' ≤ c ∧ c ≤ 'Z' then Char.ofNat (c.toNat + 32) else c

/-- Two texts that differ at most in the case of ASCII letters. -/
def sameIgnoringCase (s t : List Char) : Bool := s.map asciiLower == t.map asciiLower

def isAsciiLetter (c : Char) : Bool := ('a' ≤ c && c ≤ 'z') || ('A' ≤ c && c ≤ 'Z')

def isAsciiDigit (c : Char) : Bool := '0' ≤ c && c ≤ '9'

def digitValue? (c : Char) : Option Nat :=
  if isAsciiDigit c then some (c.toNat - 48) else none

/-- The value of a hexadecimal digit of either case. -/
def hexValue? (c : Char) : Option Nat :=
  if '0' ≤ c ∧ c ≤ '9' then some (c.toNat - 48)
  else if 'a' ≤ c ∧ c ≤ 'f' then some (c.toNat - 87)
  else if 'A' ≤ c ∧ c ≤ 'F' then some (c.toNat - 55)
  else none

def isHexDigit (c : Char) : Bool := (hexValue? c).isSome

/-- The hexadecimal digit of a number below sixteen, in lower case. -/
def hexDigit (n : Nat) : Char := if n < 10 then Char.ofNat (48 + n) else Char.ofNat (87 + n)

/-- The hexadecimal digit of a number below sixteen, in upper case. -/
def hexDigitUpper (n : Nat) : Char := if n < 10 then Char.ofNat (48 + n) else Char.ofNat (55 + n)

end Speedtest.Text
