import Speedtest.Toml.Moment
import Speedtest.Toml.Value

/-!
# Numbers of a document

Digits may have single underscores between them. A decimal integer has no zeros in front; hexadecimal,
octal and binary integers have a mark in front and no sign. Integers fit into 64 bits with a sign. A
float has a fraction or an exponent or both, and is refused when it is too large to be finite.
-/
namespace Speedtest.Toml

/-- Digits with single underscores between them, without the underscores. -/
def digits? (isDigit : Char → Bool) : Reader (List Char)
  | '_' :: _ => none
  | c :: s => if isDigit c then some (more c s) else none
  | [] => none
where
  /-- The digits behind a digit. An underscore counts only in front of another digit. -/
  more (first : Char) : List Char → List Char × List Char
    | '_' :: d :: s =>
      if isDigit d then let (ds, rest) := more d s; (first :: ds, rest) else ([first], '_' :: d :: s)
    | d :: s => if isDigit d then let (ds, rest) := more d s; (first :: ds, rest) else ([first], d :: s)
    | [] => ([first], [])

/-- A sign, if there is one. -/
def sign : List Char → List Char × List Char
  | '+' :: s => (['+'], s)
  | '-' :: s => (['-'], s)
  | s => ([], s)

/-- The digits of a decimal integer: a zero alone, or digits that do not start with one. -/
def wholeDigits? : Reader (List Char)
  | '0' :: s => some (['0'], s)
  | s => digits? Text.isAsciiDigit s

/-- The exponent of a float, empty when there is none. -/
def exponent? (s : List Char) : Option (List Char × List Char) :=
  match s with
  | c :: t =>
    if c = 'e' ∨ c = 'E' then
      let (mark, t) := sign t
      (digits? Text.isAsciiDigit t).map fun (ds, rest) => ('e' :: mark ++ ds, rest)
    else some ([], s)
  | [] => some ([], s)

/-- The fraction of a float with its point, empty when there is none. -/
def fraction? (s : List Char) : Option (List Char × List Char) :=
  match s with
  | '.' :: t => (digits? Text.isAsciiDigit t).map fun (ds, rest) => ('.' :: ds, rest)
  | _ => some ([], s)

/-- A float of its text, unless it is too large. -/
def float? (s : List Char) : Option Value :=
  match Decimal.read? s with
  | some r => if r.bits = Decimal.Binary64.infinity then none else some (.float r)
  | none => none

/-- An integer that fits into 64 bits. -/
def integer? (negative : Bool) (n : Nat) : Option Value :=
  let value : Int := if negative then -n else n
  if -0x8000000000000000 ≤ value ∧ value < 0x8000000000000000 then some (.integer value) else none

/-- The value of a digit to a base of at most sixteen. -/
def digitBelow? (base : Nat) (c : Char) : Option Nat := (Text.hexValue? c).filter (· < base)

/-- An integer to a base, behind the mark of the base. -/
def based? (base : Nat) (s : List Char) : Option (Value × List Char) := do
  let (ds, rest) ← digits? (fun c => (digitBelow? base c).isSome) s
  let n ← Text.numeralFrom base (digitBelow? base) 0 ds
  return (← integer? false n, rest)

def decimal? (s : List Char) : Option (Value × List Char) := do
  let (mark, t) := sign s
  let (whole, t) ← wholeDigits? t
  let (part, t) ← fraction? t
  let (power, t) ← exponent? t
  if part.isEmpty && power.isEmpty then
    let n ← Text.readDigits? whole
    return (← integer? (mark == ['-']) n, t)
  else return (← float? (mark ++ whole ++ part ++ power), t)

/-- One of the floats that have only a name. -/
def namedFloat? (s : List Char) : Option (Value × List Char) :=
  let (mark, t) := sign s
  let negative := mark == ['-']
  match t with
  | 'i' :: 'n' :: 'f' :: rest => some (.float (.infinite negative), rest)
  | 'n' :: 'a' :: 'n' :: rest => some (.float .nan, rest)
  | _ => none

/-- A number, a date or a time. -/
def number? (s : List Char) : Option (Value × List Char) :=
  match Moment.read? s with
  | some (text, rest) => some (.moment text, rest)
  | none =>
    match namedFloat? s with
    | some found => some found
    | none =>
      match s with
      | '0' :: 'x' :: t => based? 16 t
      | '0' :: 'o' :: t => based? 8 t
      | '0' :: 'b' :: t => based? 2 t
      | _ => decimal? s

end Speedtest.Toml
