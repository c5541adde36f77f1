import Speedtest.Text.Utf8

/-!
# Strings and numbers of JSON as they are written

The lexers take a string or a numeral off the front of the bytes and check its form. `decode?` turns
the written form of a string into its text and `encode` writes a text with the fewest escapes: the
quote, the backslash and the control characters.
-/
namespace Speedtest.Json.Lexeme

/-- A byte below 128 as a character. -/
def asChar (b : UInt8) : Char := Char.ofNat b.toNat

def isHex (b : UInt8) : Bool :=
  (0x30 ≤ b && b ≤ 0x39) || (0x61 ≤ b && b ≤ 0x66) || (0x41 ≤ b && b ≤ 0x46)

def hexOf (b : UInt8) : Nat :=
  if b ≤ 0x39 then b.toNat - 0x30 else if 0x61 ≤ b then b.toNat - 0x57 else b.toNat - 0x37

/-- The byte that a one-letter escape stands for. -/
def simpleEscape? (b : UInt8) : Option UInt8 :=
  match asChar b with
  | '"' => some 0x22
  | '\\' => some 0x5C
  | '/' => some 0x2F
  | 'b' => some 0x08
  | 'f' => some 0x0C
  | 'n' => some 0x0A
  | 'r' => some 0x0D
  | 't' => some 0x09
  | _ => none

/-- The content of a string whose opening quote is behind us, and the bytes after its closing quote.
`done` keeps the content in reverse. -/
def stringFrom (done : Bytes) : Bytes → Option (Bytes × Bytes)
  | [] => none
  | 0x22 :: s => some (done.reverse, s)
  | 0x5C :: 0x75 :: a :: b :: c :: d :: s =>
    if isHex a && isHex b && isHex c && isHex d then
      stringFrom (d :: c :: b :: a :: 0x75 :: 0x5C :: done) s
    else none
  | 0x5C :: e :: s => if (simpleEscape? e).isSome then stringFrom (e :: 0x5C :: done) s else none
  | c :: s => if c < 0x20 || c == 0x5C then none else stringFrom (c :: done) s

def isDigit (b : UInt8) : Bool := 0x30 ≤ b && b ≤ 0x39

/-- The fraction and exponent at the front of the bytes, and the rest; `none` when a point or an
exponent has no digits. -/
def exponentFrom (s : Bytes) : Option (Bytes × Bytes) :=
  match s with
  | e :: t =>
    if e == 0x65 || e == 0x45 then
      let (sign, t) := match t with
        | c :: u => if c == 0x2B || c == 0x2D then ([c], u) else ([], t)
        | [] => ([], [])
      let digits := t.takeWhile isDigit
      if digits.isEmpty then none else some (e :: sign ++ digits, t.dropWhile isDigit)
    else some ([], s)
  | [] => some ([], [])

/-- The point and the digits behind it, if there is a point. -/
def fractionFrom (s : Bytes) : Option (Bytes × Bytes) :=
  match s with
  | 0x2E :: t =>
    let digits := t.takeWhile isDigit
    if digits.isEmpty then none else some (0x2E :: digits, t.dropWhile isDigit)
  | _ => some ([], s)

/-- The integer part: a single zero or digits that do not start with one. -/
def integerFrom (s : Bytes) : Option (Bytes × Bytes) :=
  let digits := s.takeWhile isDigit
  match digits with
  | [] => none
  | 0x30 :: _ :: _ => none
  | _ => some (digits, s.dropWhile isDigit)

/-- A numeral at the front of the bytes, and the rest. -/
def number? (s : Bytes) : Option (Bytes × Bytes) := do
  let (sign, s) := match s with
    | 0x2D :: t => ([0x2D], t)
    | _ => (([] : Bytes), s)
  let (whole, s) ← integerFrom s
  let (fraction, s) ← fractionFrom s
  let (exponent, s) ← exponentFrom s
  return (sign ++ whole ++ fraction ++ exponent, s)

/-- The number of four hexadecimal digits. -/
def hex4 (a b c d : UInt8) : Nat := ((hexOf a * 16 + hexOf b) * 16 + hexOf c) * 16 + hexOf d

def isHighSurrogate (n : Nat) : Bool := 0xD800 ≤ n && n < 0xDC00
def isLowSurrogate (n : Nat) : Bool := 0xDC00 ≤ n && n < 0xE000

/-- The bytes that a written string stands for; `none` when the two halves of a surrogate pair do not
stand together. -/
def unescapeFrom (done : Bytes) : Bytes → Option Bytes
  | [] => some done.reverse
  | 0x5C :: 0x75 :: a :: b :: c :: d :: s =>
    let n := hex4 a b c d
    if isHighSurrogate n then
      match s with
      | 0x5C :: 0x75 :: a :: b :: c :: d :: t =>
        let m := hex4 a b c d
        if isLowSurrogate m then
          let scalar := 0x10000 + (n - 0xD800) * 0x400 + (m - 0xDC00)
          unescapeFrom ((String.utf8EncodeChar (Char.ofNat scalar)).reverse ++ done) t
        else none
      | _ => none
    else if isLowSurrogate n then none
    else unescapeFrom ((String.utf8EncodeChar (Char.ofNat n)).reverse ++ done) s
  | 0x5C :: e :: s => (simpleEscape? e).bind fun b => unescapeFrom (b :: done) s
  | c :: s => unescapeFrom (c :: done) s

def decode? (written : Bytes) : Option String :=
  (unescapeFrom [] written).bind fun b => (Text.Utf8.decode? b).map String.ofList

/-- The hexadecimal digits of the number of a control character. -/
def control (n : Nat) : Bytes :=
  let digit (d : Nat) : UInt8 := UInt8.ofNat (if d < 10 then 0x30 + d else 0x57 + d)
  Bytes.ofAscii "\\u00" ++ [digit (n / 16), digit (n % 16)]

/-- A byte of a text as it is written inside a string. -/
def escapeByte (b : UInt8) : Bytes :=
  if b == 0x22 then [0x5C, 0x22]
  else if b == 0x5C then [0x5C, 0x5C]
  else if b == 0x08 then [0x5C, 0x62]
  else if b == 0x0C then [0x5C, 0x66]
  else if b == 0x0A then [0x5C, 0x6E]
  else if b == 0x0D then [0x5C, 0x72]
  else if b == 0x09 then [0x5C, 0x74]
  else if b < 0x20 then control b.toNat
  else [b]

def encode (s : String) : Bytes := (Text.Utf8.encode s.toList).flatMap escapeByte

end Speedtest.Json.Lexeme
