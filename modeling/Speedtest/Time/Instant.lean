import Speedtest.Time.Calendar
import Speedtest.Text.Blank
import Speedtest.Text.Numeral

/-!
# Instants

An instant is a number of seconds from 1 January 1970, in universal time, with a fraction in
nanoseconds. A fraction of a second or more marks an inserted leap second. Instants are written as date
and time with the letter `Z`; the reader also admits an offset from universal time, a space in place of
the letter `T`, blanks in front of the parts and missing leading zeros.
-/
namespace Speedtest.Time

/-- A point in time. -/
structure Instant where
  seconds : Int
  nanos : Nat
  deriving DecidableEq

namespace Instant

def epoch : Instant := ⟨0, 0⟩

def yearInRange (year : Int) : Bool := -262143 ≤ year && year ≤ 262142

def date (t : Instant) : Date := Date.ofDays (t.seconds / 86400)

/-- A year with four digits; one that needs more, or is negative, has a sign. -/
def yearText (year : Int) : List Char :=
  let digits := Text.padded 4 (Text.decimal year.natAbs)
  if year < 0 then '-' :: digits else if 9999 < year then '+' :: digits else digits

def two (n : Nat) : List Char := Text.padded 2 (Text.decimal n)

/-- A fraction of a second with as many groups of three digits as it needs. -/
def fractionText (nanos : Nat) : List Char :=
  if nanos = 0 then []
  else if nanos % 1000000 = 0 then '.' :: Text.padded 3 (Text.decimal (nanos / 1000000))
  else if nanos % 1000 = 0 then '.' :: Text.padded 6 (Text.decimal (nanos / 1000))
  else '.' :: Text.padded 9 (Text.decimal nanos)

/-- Date and time in universal time. -/
def text (t : Instant) : List Char :=
  let d := t.date
  let ofDay := (t.seconds % 86400).toNat
  let leap := t.nanos / 1000000000
  yearText d.year ++ ['-'] ++ two d.month ++ ['-'] ++ two d.day ++ ['T'] ++
    two (ofDay / 3600) ++ [':'] ++ two (ofDay / 60 % 60) ++ [':'] ++ two (ofDay % 60 + leap) ++
    fractionText (t.nanos % 1000000000) ++ ['Z']

def dropBlanks (s : List Char) : List Char := s.dropWhile Text.isBlank

/-- A number of one to `width` digits behind blanks. -/
def readNumber? (width : Nat) (s : List Char) : Option (Nat × List Char) :=
  let s := dropBlanks s
  let digits := (s.take width).takeWhile Text.isAsciiDigit
  (Text.readDigits? digits).map fun n => (n, s.drop digits.length)

/-- A number in a range, behind blanks. -/
def readPart? (low high : Nat) (s : List Char) : Option (Nat × List Char) :=
  (readNumber? 2 s).filter fun (n, _) => low ≤ n && n ≤ high

/-- A year: up to four digits, or a sign and any number of them. -/
def readYear? (s : List Char) : Option (Int × List Char) :=
  match dropBlanks s with
  | '-' :: t => signed t fun n => -(n : Int)
  | '+' :: t => signed t fun n => (n : Int)
  | t => (readNumber? 4 t).map fun (n, r) => ((n : Int), r)
where
  signed (t : List Char) (f : Nat → Int) : Option (Int × List Char) :=
    let digits := t.takeWhile Text.isAsciiDigit
    (Text.readDigits? digits).map fun n => (f n, t.drop digits.length)

/-- A mark behind blanks. -/
def readMark? (mark : Char) (s : List Char) : Option (List Char) :=
  match dropBlanks s with
  | c :: t => if c = mark then some t else none
  | [] => none

/-- The fraction of a second, of which nine digits count. -/
def readFraction? : List Char → Option (Nat × List Char)
  | '.' :: s =>
    let digits := s.takeWhile Text.isAsciiDigit
    let counted := digits.take 9
    (Text.readDigits? counted).map fun n =>
      (n * Nat.pow 10 (9 - counted.length), s.drop digits.length)
  | s => some (0, s)

/-- Two digits, the first at most `top`. -/
def readPair? (top : Nat) : List Char → Option (Nat × List Char)
  | a :: b :: s =>
    match Text.digitValue? a, Text.digitValue? b with
    | some x, some y => if x ≤ top then some (x * 10 + y, s) else none
    | _, _ => none
  | _ => none

/-- The offset from universal time in seconds: a letter, the word for universal time, or a signed number
of hours and minutes. -/
def readOffset? (s : List Char) : Option (Int × List Char) :=
  match s with
  | 'Z' :: t | 'z' :: t => some (0, t)
  | _ =>
    if Text.sameIgnoringCase (s.take 3) ['u', 't', 'c'] then some (0, s.drop 3)
    else match s with
      | '+' :: t => amount t
      | '-' :: t | '−' :: t => (amount t).map fun (n, r) => (-n, r)
      | _ => none
where
  amount (t : List Char) : Option (Int × List Char) := do
    let (hours, t) ← readPair? 9 t
    let t := t.dropWhile fun c => c == ':' || Text.isBlank c
    let (minutes, t) ← readPair? 5 t
    return (((hours * 3600 + minutes * 60 : Nat) : Int), t)

/-- The instant of a text of a date, a time and an offset. -/
def ofText? (s : List Char) : Option Instant := do
  let (year, s) ← readYear? s
  let s ← readMark? '-' s
  let (month, s) ← readPart? 1 12 s
  let s ← readMark? '-' s
  let (day, s) ← readPart? 1 31 s
  let s ← match s with
    | 'T' :: t | 't' :: t | ' ' :: t => some t
    | _ => none
  let (hour, s) ← readPart? 0 23 s
  let s ← readMark? ':' s
  let (minute, s) ← readPart? 0 59 s
  let s ← readMark? ':' s
  let (second, s) ← readPart? 0 60 s
  let (fraction, s) ← readFraction? s
  let (offset, s) ← readOffset? (dropBlanks s)
  let date : Date := ⟨year, month, day⟩
  if dropBlanks s = [] ∧ date.isValid ∧ yearInRange year ∧ offset.natAbs < 86400 then
    let leap := if second = 60 then 1 else 0
    let ofDay : Nat := hour * 3600 + minute * 60 + (second - leap)
    let t : Instant := ⟨date.toDays * 86400 + ofDay - offset, fraction + leap * 1000000000⟩
    if yearInRange t.date.year then some t else none
  else none

end Instant
end Speedtest.Time
