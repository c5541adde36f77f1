import Speedtest.Decimal.Number

/-!
# The shortest numeral of a double

A double is written with as few digits as single it out among all doubles, and of those numerals with the one
that is nearest to it.
-/
namespace Speedtest.Decimal.Shortest

/-- The number of digits before the point of `num / den`; it is negative for zeros behind the point. -/
def places (num den : Nat) : Int :=
  let p : Int := (Text.decimal num).length - (Text.decimal den).length
  let reaches : Bool :=
    if 0 ≤ p then den * Nat.pow 10 p.toNat ≤ num else den ≤ num * Nat.pow 10 (-p).toNat
  if reaches then p + 1 else p

/-- The numerals of `count` digits that are next to `num / den`, the nearer one first. -/
def neighbours (num den count : Nat) : List Number :=
  let scale := places num den - count
  let (n, d) :=
    if 0 ≤ scale then (num, den * Nat.pow 10 scale.toNat)
    else (num * Nat.pow 10 (-scale).toNat, den)
  let below : Number := ⟨false, n / d, scale⟩
  let above : Number := ⟨false, n / d + 1, scale⟩
  if Binary64.roundDiv n d = n / d then [below, above] else [above, below]

/-- The number without zeros at its end; `fuel` is the number of its digits. -/
def stripped : (fuel : Nat) → Number → Number
  | fuel + 1, x =>
    if x.digits ≠ 0 ∧ x.digits % 10 = 0 then
      stripped fuel { x with digits := x.digits / 10, scale := x.scale + 1 }
    else x
  | 0, x => x

/-- The shortest numeral of a positive double, given as a quotient. -/
def ofQuotient (num den : Nat) : Number :=
  let bits := Binary64.nearest num den
  let found := (List.range 17).findSome? fun n =>
    (neighbours num den (n + 1)).find? fun x => x.magnitude == bits
  stripped 20 (found.getD ⟨false, num / den, 0⟩)

/-- The digits and the place of the point: whole numbers and small fractions are written out, others with an
exponent. -/
def written (x : Number) : List Char :=
  let digits := Text.decimal x.digits
  let point : Int := digits.length + x.scale
  if 0 ≤ x.scale ∧ point ≤ 16 then digits ++ List.replicate x.scale.toNat '0' ++ ['.', '0']
  else if 0 < point ∧ point ≤ 16 then digits.take point.toNat ++ '.' :: digits.drop point.toNat
  else if -5 < point ∧ point ≤ 0 then
    ['0', '.'] ++ List.replicate (-point).toNat '0' ++ digits
  else
    let fraction := if digits.length = 1 then [] else '.' :: digits.drop 1
    let exponent := point - 1
    digits.take 1 ++ fraction ++ 'e' :: (if exponent < 0 then ['-'] else []) ++
      Text.decimal exponent.natAbs

/-- A double as a numeral, unless it is none. -/
def render? (x : Float) : Option (List Char) :=
  match Binary64.ofBits x.toBits.toNat with
  | .finite negative m e =>
    let sign := if negative then ['-'] else []
    if m = 0 then some (sign ++ ['0', '.', '0'])
    else if 0 ≤ e then some (sign ++ written (ofQuotient (m * Nat.pow 2 e.toNat) 1))
    else some (sign ++ written (ofQuotient m (Nat.pow 2 (-e).toNat)))
  | _ => none

end Speedtest.Decimal.Shortest
