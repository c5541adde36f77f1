import Speedtest.Bytes
import Speedtest.Text.Ascii

/-!
# Percent signs

A byte that may not stand for itself is written as a percent sign and two hexadecimal digits. Reading is
lenient: a percent sign without two digits behind it stands for itself.
-/
namespace Speedtest.Text.Percent

/-- A byte as a percent sign and two digits. -/
def escaped (b : UInt8) : List Char :=
  ['%', hexDigitUpper (b.toNat / 16), hexDigitUpper (b.toNat % 16)]

/-- Bytes as ASCII text, those outside `keep` escaped. -/
def encode (keep : UInt8 → Bool) (s : Bytes) : List Char :=
  s.flatMap fun b => if keep b then [Char.ofNat b.toNat] else escaped b

def digit? (b : UInt8) : Option Nat := hexValue? (Char.ofNat b.toNat)

/-- The bytes that are written after those of `done`, which are kept in reverse. -/
def decodeFrom (done : Bytes) : Bytes → Bytes
  | [] => done.reverse
  | 0x25 :: a :: b :: s =>
    match digit? a, digit? b with
    | some x, some y => decodeFrom (UInt8.ofNat (x * 16 + y) :: done) s
    | _, _ => decodeFrom (0x25 :: done) (a :: b :: s)
  | c :: s => decodeFrom (c :: done) s

/-- The bytes that a text with percent signs stands for. -/
def decode (s : Bytes) : Bytes := decodeFrom [] s

end Speedtest.Text.Percent
