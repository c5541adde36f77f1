import Speedtest.Decimal.Shortest
import Speedtest.Json.Reader
import Speedtest.Json.Writer

/-!
# Documents for people to read

A document is laid out with one item a line. What it means is kept and not how it was written: members are
sorted by their keys, the last one of a key counts, and strings and numbers take their shortest form. A
fraction is computed from its digits by one step, so it may miss the nearest double by a little. A document that is
too deep, or has a number too large, has no such layout.
-/
namespace Speedtest.Json.Pretty

/-- The greatest depth. -/
def maxDepth : Nat := 127

/-- The digits of a numeral that count: as many as a number of 64 bits has room for, and the number of the
digits behind them. -/
def significant (n : Nat) : List Nat → Nat × Nat
  | [] => (n, 0)
  | d :: ds => if n * 10 + d < Nat.pow 2 64 then significant (n * 10 + d) ds else (n, ds.length + 1)

/-- The double nearest to a power of ten. -/
def power (n : Nat) : Float := (Decimal.Reading.number ⟨false, 1, n⟩).toFloat

/-- A number times or through a power of ten. Below the least power the number is divided twice. -/
def scaled? (x : Float) (exponent : Int) : Option Float :=
  if 0 ≤ exponent then
    let y := if 308 < exponent then (if x == 0 then x else 1 / 0) else x * power exponent.toNat
    if y.isInf then none else some y
  else if -308 ≤ exponent then some (x / power (-exponent).toNat)
  else if -616 ≤ exponent then some (x / power 308 / power (-exponent - 308).toNat)
  else some 0

/-- The value of a numeral with a point or an exponent, or of an integer that is too long. -/
def float? (x : Decimal.Number) (digits : List Nat) (fraction : Nat) (exponent : Int) : Option Float :=
  let (n, dropped) := significant 0 digits
  (scaled? (Float.ofNat n) (exponent - fraction + dropped)).map fun y => if x.negative then -y else y

def numeral? (written : Bytes) : Option Bytes := do
  let s := written.map fun b => Char.ofNat b.toNat
  let (negative, s) := Decimal.splitSign s
  let whole := s.takeWhile Text.isAsciiDigit
  let rest := s.dropWhile Text.isAsciiDigit
  let fraction := match rest with
    | '.' :: t => t.takeWhile Text.isAsciiDigit
    | _ => []
  let exponent := match rest.dropWhile fun c => c != 'e' && c != 'E' with
    | _ :: t => (Decimal.readExponent? t).getD 0
    | [] => 0
  let digits := (whole ++ fraction).filterMap Text.digitValue?
  let n := (Text.readDigits? whole).getD 0
  let integral := rest.isEmpty && n < Nat.pow 2 64 && (!negative || (0 < n && n ≤ Nat.pow 2 63))
  if integral then return written
  else
    let x ← float? ⟨negative, n, 0⟩ digits fraction.length exponent
    return Bytes.ofAscii (String.ofList (← Decimal.Shortest.render? x))

def string? (written : Bytes) : Option Bytes :=
  (Lexeme.decode? written).map fun s => 0x22 :: Lexeme.encode s ++ [0x22]

/-- A member put among members that are sorted by their keys, in the place of one with the same key. -/
def insertMember (k : String) (v : Bytes) : List (String × Bytes) → List (String × Bytes)
  | [] => [(k, v)]
  | (l, w) :: rest =>
    if k = l then (k, v) :: rest
    else if k < l then (k, v) :: (l, w) :: rest
    else (l, w) :: insertMember k v rest

def newLine (depth : Nat) : Bytes := 0x0A :: List.replicate (2 * depth) 0x20

/-- Lines at a depth with commas between them, between brackets. -/
def bracketed (opening closing : UInt8) (depth : Nat) (lines : List Bytes) : Bytes :=
  if lines.isEmpty then [opening, closing]
  else opening :: [0x2C].intercalate (lines.map fun line => newLine (depth + 1) ++ line) ++
    newLine depth ++ [closing]

mutual

def layout? (depth : Nat) : Json → Option Bytes
  | .null => some (Bytes.ofAscii "null")
  | .bool b => some (Bytes.ofAscii (if b then "true" else "false"))
  | .number w => numeral? w
  | .string w => string? w
  | .array items =>
    if depth < maxDepth then (items? (depth + 1) items).map (bracketed 0x5B 0x5D depth) else none
  | .object members =>
    if depth < maxDepth then
      (members? (depth + 1) [] members).map fun sorted =>
        bracketed 0x7B 0x7D depth (sorted.map fun (k, v) =>
          0x22 :: Lexeme.encode k ++ [0x22, 0x3A, 0x20] ++ v)
    else none

def items? (depth : Nat) : List Json → Option (List Bytes)
  | [] => some []
  | v :: items => do
    let line ← layout? depth v
    return line :: (← items? depth items)

/-- The layouts of members, sorted by their keys. -/
def members? (depth : Nat) (sorted : List (String × Bytes)) :
    List (Bytes × Json) → Option (List (String × Bytes))
  | [] => some sorted
  | (k, v) :: members => do
    let key ← Lexeme.decode? k
    let value ← layout? depth v
    members? depth (insertMember key value sorted) members

end

def ofBytes? (s : Bytes) : Option Bytes := (Json.read? s).bind (layout? 0)

end Speedtest.Json.Pretty
