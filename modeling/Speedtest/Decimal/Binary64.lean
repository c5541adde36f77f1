/-!
# Doubles as exact numbers

A finite double is `m · 2 ^ e` with `m < 2 ^ 53` and `-1074 ≤ e`. `nearest` goes from a quotient of
naturals to the closest double and breaks a tie towards the even `m`; `ofBits` goes back from the bits
to the exact number. Both work on naturals alone.
-/
namespace Speedtest.Decimal.Binary64

def infinity : Nat := 0x7FF * Nat.pow 2 52

/-- The bit that makes a double negative. -/
def signBit : Nat := Nat.pow 2 63

/-- The quotient rounded to the nearest integer, a half to the even one. -/
def roundDiv (num den : Nat) : Nat :=
  let q := num / den
  let r := num % den
  if 2 * r < den then q else if den < 2 * r then q + 1 else q + q % 2

/-- `num / den` in units of `2 ^ e`, as a quotient of naturals. -/
def scaled (num den : Nat) (e : Int) : Nat × Nat :=
  if 0 ≤ e then (num, den * Nat.pow 2 e.toNat) else (num * Nat.pow 2 (-e).toNat, den)

/-- The exponent at which `num / den` has a 53-bit integer part, not below the least exponent. -/
def exponentFor (num den : Nat) : Int :=
  let e : Int := (num.log2 : Int) - den.log2 - 52
  let (n, d) := scaled num den e
  max (if n / d < Nat.pow 2 52 then e - 1 else e) (-1074)

/-- The bits of the double nearest to `num / den`. -/
def nearest (num den : Nat) : Nat :=
  if num = 0 then 0
  else
    let e := exponentFor num den
    let (n, d) := scaled num den e
    min ((e + 1074).toNat * Nat.pow 2 52 + roundDiv n d) infinity

/-- What the bits of a double stand for. -/
inductive Value where
  | finite (negative : Bool) (m : Nat) (e : Int)
  | infinite (negative : Bool)
  | nan
  deriving DecidableEq

/-- The number that the bits of a double stand for. -/
def ofBits (bits : Nat) : Value :=
  let negative := decide (signBit ≤ bits % Nat.pow 2 64)
  let field : Nat := bits / Nat.pow 2 52 % Nat.pow 2 11
  let fraction : Nat := bits % Nat.pow 2 52
  if field = 0x7FF then
    if fraction = 0 then .infinite negative else .nan
  else if field = 0 then .finite negative fraction (-1074)
  else .finite negative (Nat.pow 2 52 + fraction) (Int.ofNat field - 1075)

end Speedtest.Decimal.Binary64
