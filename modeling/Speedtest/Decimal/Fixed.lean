import Speedtest.Decimal.Binary64
import Speedtest.Text.Numeral

/-!
# A fixed number of places

A double is written with a fixed number of places by rounding its exact value once, a half to the even
neighbour.
-/
namespace Speedtest.Decimal.Fixed

/-- `m · 2 ^ e` in units of `10 ^ -places`, rounded. -/
def units (places m : Nat) (e : Int) : Nat :=
  if 0 ≤ e then m * Nat.pow 2 e.toNat * Nat.pow 10 places
  else Binary64.roundDiv (m * Nat.pow 10 places) (Nat.pow 2 (-e).toNat)

/-- The numeral of `n` units of `10 ^ -places`. -/
def numeral (places n : Nat) : List Char :=
  let whole := Text.decimal (n / Nat.pow 10 places)
  if places = 0 then whole
  else whole ++ ['.'] ++ Text.padded places (Text.decimal (n % Nat.pow 10 places))

/-- A double with a fixed number of places. -/
def render (places : Nat) (x : Float) : String :=
  match Binary64.ofBits x.toBits.toNat with
  | .nan => "NaN"
  | .infinite negative => if negative then "-inf" else "inf"
  | .finite negative m e =>
    String.ofList ((if negative then ['-'] else []) ++ numeral places (units places m e))

end Speedtest.Decimal.Fixed
