import Speedtest.Decimal.Binary64
import Speedtest.Text.Numeral

/-!
# Decimal numbers

A decimal number is a sign, a natural and a power of ten. `bits` gives the nearest double, whatever the
number of digits and the size of the exponent. `read?` is the plain notation: a sign, digits around
at most one point, an exponent, or one of the words for infinity and for no number.
-/
namespace Speedtest.Decimal

/-- `± digits · 10 ^ scale`. -/
structure Number where
  negative : Bool
  digits : Nat
  scale : Int
  deriving DecidableEq

namespace Number

/-- The bits of the double nearest to the absolute value. Beyond 310 digits in front of the point
every number is infinite, and below 330 zeros after it every number is zero, so no huge power is taken. -/
def magnitude (x : Number) : Nat :=
  if x.digits = 0 then 0
  else
    let top := (Text.decimal x.digits).length + x.scale
    if 310 < top then Binary64.infinity
    else if top < -330 then 0
    else if 0 ≤ x.scale then Binary64.nearest (x.digits * Nat.pow 10 x.scale.toNat) 1
    else Binary64.nearest x.digits (Nat.pow 10 (-x.scale).toNat)

def bits (x : Number) : Nat := x.magnitude + if x.negative then Binary64.signBit else 0

end Number

/-- A decimal number, or one of the three values that have only a name. -/
inductive Reading where
  | number (x : Number)
  | infinite (negative : Bool)
  | nan
  deriving DecidableEq

namespace Reading

def bits : Reading → Nat
  | .number x => x.bits
  | .infinite negative => Binary64.infinity + if negative then Binary64.signBit else 0
  | .nan => Binary64.infinity + Nat.pow 2 51

def toFloat (r : Reading) : Float := Float.ofBits (UInt64.ofNat r.bits)

end Reading

/-- A sign in front of a numeral: whether it is a minus, and the rest. -/
def splitSign : List Char → Bool × List Char
  | '-' :: s => (true, s)
  | '+' :: s => (false, s)
  | s => (false, s)

/-- The exponent behind the letter, which needs at least one digit. -/
def readExponent? (s : List Char) : Option Int :=
  let (negative, digits) := splitSign s
  (Text.readDigits? digits).map fun n => if negative then -(n : Int) else n

/-- A number from the digits before the point, the digits after it and the exponent. -/
def Number.ofParts (negative : Bool) (whole fraction : List Char) (exponent : Int) : Number where
  negative := negative
  digits := ((whole ++ fraction).filterMap Text.digitValue?).foldl (fun n d => n * 10 + d) 0
  scale := exponent - fraction.length

/-- An unsigned number: digits with at most one point among them, and perhaps an exponent. -/
def readUnsigned? (negative : Bool) (s : List Char) : Option Number :=
  let whole := s.takeWhile Text.isAsciiDigit
  let afterWhole := s.dropWhile Text.isAsciiDigit
  let (fraction, rest) := match afterWhole with
    | '.' :: t => (t.takeWhile Text.isAsciiDigit, t.dropWhile Text.isAsciiDigit)
    | _ => ([], afterWhole)
  if whole.isEmpty && fraction.isEmpty then none
  else match rest with
    | [] => some (.ofParts negative whole fraction 0)
    | e :: t =>
      if e = 'e' ∨ e = 'E' then (readExponent? t).map (.ofParts negative whole fraction) else none

/-- The plain notation of a decimal number, or a name in any case. -/
def read? (s : List Char) : Option Reading :=
  let (negative, rest) := splitSign s
  let name := String.ofList (rest.map Text.asciiLower)
  if name = "inf" ∨ name = "infinity" then some (.infinite negative)
  else if name = "nan" then some .nan
  else (readUnsigned? negative rest).map .number

end Speedtest.Decimal
