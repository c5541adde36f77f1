import Speedtest.Text.Numeral
import Speedtest.Time.Calendar
import Speedtest.Toml.Blank

/-!
# Dates and times of a document

A date, a time, or both with perhaps an offset from universal time. The reader gives the canonical text:
the letter `T` between date and time, capital letters, and a fraction of a second of at most nine digits
without zeros at its end.
-/
namespace Speedtest.Toml.Moment

/-- A number of exactly `count` digits, within bounds. -/
def number? (count low high : Nat) (s : List Char) : Option (Nat × List Char) :=
  let digits := s.take count
  if digits.length = count ∧ digits.all Text.isAsciiDigit then
    ((Text.readDigits? digits).filter fun n => low ≤ n && n ≤ high).map fun n => (n, s.drop count)
  else none

/-- The text behind a mark. -/
def mark? (c : Char) : List Char → Option (List Char)
  | d :: s => if d = c then some s else none
  | [] => none

def two (n : Nat) : List Char := Text.padded 2 (Text.decimal n)

def date? (s : List Char) : Option (List Char × List Char) := do
  let (year, s) ← number? 4 0 9999 s
  let s ← mark? '-' s
  let (month, s) ← number? 2 1 12 s
  let s ← mark? '-' s
  let (day, s) ← number? 2 1 31 s
  let date : Time.Date := ⟨year, month, day⟩
  if date.isValid then
    some (Text.padded 4 (Text.decimal year) ++ '-' :: two month ++ '-' :: two day, s)
  else none

/-- The fraction of a second, empty when there is none. -/
def fraction (s : List Char) : List Char × List Char :=
  match s with
  | '.' :: t =>
    let digits := t.takeWhile Text.isAsciiDigit
    let shown := ((digits.take 9).reverse.dropWhile (· == '0')).reverse
    if digits.isEmpty then ([], s)
    else (if shown.isEmpty then [] else '.' :: shown, t.drop digits.length)
  | _ => ([], s)

def time? (s : List Char) : Option (List Char × List Char) := do
  let (hour, s) ← number? 2 0 23 s
  let s ← mark? ':' s
  let (minute, s) ← number? 2 0 59 s
  let s ← mark? ':' s
  let (second, s) ← number? 2 0 60 s
  let (part, s) := fraction s
  return (two hour ++ ':' :: two minute ++ ':' :: two second ++ part, s)

/-- An offset from universal time, empty when there is none. -/
def offset? (s : List Char) : Option (List Char × List Char) :=
  match s with
  | 'Z' :: t | 'z' :: t => some (['Z'], t)
  | '+' :: t => amount '+' t
  | '-' :: t => amount '-' t
  | _ => some ([], s)
where
  amount (sign : Char) (t : List Char) : Option (List Char × List Char) := do
    let (hour, t) ← number? 2 0 23 t
    let t ← mark? ':' t
    let (minute, t) ← number? 2 0 59 t
    let sign := if hour = 0 ∧ minute = 0 then '+' else sign
    return (sign :: two hour ++ ':' :: two minute, t)

/-- The time behind a date, with the letter in front; nothing when there is none. -/
def afterDate? (s : List Char) : Option (List Char × List Char) :=
  match s with
  | c :: t =>
    if c = 'T' ∨ c = 't' ∨ c = ' ' then
      match time? t with
      | some (time, t) => (offset? t).map fun (offset, t) => ('T' :: time ++ offset, t)
      | none => some ([], s)
    else some ([], s)
  | [] => some ([], s)

/-- A date, a time, or both. -/
def read? (s : List Char) : Option (String × List Char) :=
  match date? s with
  | some (date, rest) =>
    (afterDate? rest).map fun (time, rest) => (String.ofList (date ++ time), rest)
  | none => (time? s).map fun (time, rest) => (String.ofList time, rest)

end Speedtest.Toml.Moment
