import Speedtest.Relay.Header
import Speedtest.Text.Utf8

/-!
# Headers in text form

A line of six fields with single spaces between them: the word `PROXY`, the family, the two addresses and
the two ports. A line whose second field is `UNKNOWN` says that the connection is the relay's own,
whatever follows. A port is a decimal numeral without a sign and without leading zeros.
-/
namespace Speedtest.Relay.TextForm

/-- The bytes that every line starts with. -/
def signature : Bytes := Bytes.ofAscii "PROXY "

/-- The most bytes of a line, its end included. -/
def maxLength : Nat := 107

/-- The line of a route, without its end. -/
def line : Route → List Char
  | .v4 a p b q =>
    "PROXY TCP4 ".toList ++ a.text ++ ' ' :: b.text ++ ' ' :: Text.decimal p.toNat ++
      ' ' :: Text.decimal q.toNat
  | .v6 a p b q =>
    "PROXY TCP6 ".toList ++ a.text ++ ' ' :: b.text ++ ' ' :: Text.decimal p.toNat ++
      ' ' :: Text.decimal q.toNat

def bytes (r : Route) : Bytes := Text.Utf8.encode (line r ++ ['\r', '\n'])

/-- The port of a numeral without leading zeros. -/
def readPort (s : List Char) : Except TextFault UInt16 :=
  if s.head? = some '0' ∧ s ≠ ['0'] then .error .badPort
  else match Text.readDigits? s with
    | some n => if n < 65536 then .ok (UInt16.ofNat n) else .error .badPort
    | none => .error .badPort

/-- An address that is there, or the fault of one that is not. -/
def required {α : Type} : Option α → Except TextFault α
  | some a => .ok a
  | none => .error .badAddress

/-- The header of the fields of a line. Addresses are read before ports. -/
def readFields : List (List Char) → Except TextFault Header
  | word :: family :: rest =>
    if word ≠ "PROXY".toList then .error .fieldCount
    else if family = "UNKNOWN".toList then .ok .own
    else match rest with
      | [a, b, p, q] =>
        if family = "TCP4".toList then do
          let a ← required (Address.V4.ofText? a)
          let b ← required (Address.V4.ofText? b)
          return .proxied (.v4 a (← readPort p) b (← readPort q))
        else if family = "TCP6".toList then do
          let a ← required (Address.V6.ofText? a)
          let b ← required (Address.V6.ofText? b)
          return .proxied (.v6 a (← readPort p) b (← readPort q))
        else .error .unknownProtocol
      | _ => .error .fieldCount
  | _ => .error .fieldCount

/-- The header of a line without its end. -/
def read (line : Bytes) : Except TextFault Header :=
  match Text.Utf8.decode? line with
  | some s => readFields (s.splitOn ' ')
  | none => .error .notText

end Speedtest.Relay.TextForm
