import Speedtest.Bytes
import Speedtest.Text.Numeral

/-!
# IPv4 addresses

Four octets and their dotted text. An octet is written with one to three digits, without a leading zero
and at most 255, so each address has exactly one text.
-/
namespace Speedtest.Address

/-- An IPv4 address. -/
structure V4 where
  o1 : UInt8
  o2 : UInt8
  o3 : UInt8
  o4 : UInt8
  deriving DecidableEq, Repr

namespace V4

def octets (a : V4) : Bytes := [a.o1, a.o2, a.o3, a.o4]

def toNat (a : V4) : Nat := Bytes.toNat a.octets

def octetText (o : UInt8) : List Char := Text.decimal o.toNat

def text (a : V4) : List Char :=
  octetText a.o1 ++ '.' :: octetText a.o2 ++ '.' :: octetText a.o3 ++ '.' :: octetText a.o4

/-- An octet at the front of a text: a run of one to three digits without a leading zero. -/
def readOctet? (s : List Char) : Option (UInt8 × List Char) :=
  let digits := s.takeWhile Text.isAsciiDigit
  let rest := s.dropWhile Text.isAsciiDigit
  if 3 < digits.length then none
  else if digits.head? = some '0' ∧ digits ≠ ['0'] then none
  else match Text.readDigits? digits with
    | some n => if n < 256 then some (UInt8.ofNat n, rest) else none
    | none => none

/-- An octet behind a dot. -/
def readDotted? : List Char → Option (UInt8 × List Char)
  | '.' :: s => readOctet? s
  | _ => none

/-- A dotted address at the front of a text, and the text after it. -/
def read? (s : List Char) : Option (V4 × List Char) := do
  let (o1, s) ← readOctet? s
  let (o2, s) ← readDotted? s
  let (o3, s) ← readDotted? s
  let (o4, s) ← readDotted? s
  return (⟨o1, o2, o3, o4⟩, s)

/-- The address of a text that is a dotted address and nothing else. -/
def ofText? (s : List Char) : Option V4 :=
  match read? s with
  | some (a, []) => some a
  | _ => none

def unspecified : V4 := ⟨0, 0, 0, 0⟩

end V4
end Speedtest.Address
