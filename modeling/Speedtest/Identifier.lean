import Speedtest.Bytes
import Speedtest.Text.Numeral

/-!
# Identifiers

Records and requests go by identifiers of sixteen bytes. Six of their bits say what kind of identifier it is,
and the others are drawn. An identifier is written as hexadecimal digits in five groups.
-/
namespace Speedtest.Identifier

/-- The bytes of an identifier, from bytes that were drawn. -/
def ofDrawn (b : Bytes) : Bytes :=
  b.mapIdx fun i x =>
    if i = 6 then 0x40 ||| (x &&& 0x0F) else if i = 8 then 0x80 ||| (x &&& 0x3F) else x

/-- The digits of a byte. -/
def pair (b : UInt8) : List Char := Text.padded 2 (Text.hexadecimal b.toNat)

/-- Digits with a hyphen behind each group but the last, where the groups in front have these lengths. -/
def grouped : (groups : List Nat) → Bytes → List Char
  | [], b => b.flatMap pair
  | n :: groups, b => (b.take n).flatMap pair ++ '-' :: grouped groups (b.drop n)

/-- The identifier as it is written. -/
def text (b : Bytes) : String := String.ofList (grouped [4, 2, 2, 2] b)

end Speedtest.Identifier
