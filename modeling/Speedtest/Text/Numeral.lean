import Speedtest.Text.Ascii

/-!
# Unsigned numerals

Decimal and hexadecimal numerals of naturals. Two readers differ in what they admit: `readDigits?`
wants digits alone, `readCount?` also takes one leading plus sign. Both accept any number of leading
zeros, and both are checked against an exclusive bound, so a numeral that is too long is refused
rather than wrapped.
-/
namespace Speedtest.Text

/-- The number written by a run of digits to the given base, after the digits that make `acc`. -/
def numeralFrom (base : Nat) (digit : Char → Option Nat) : Nat → List Char → Option Nat
  | acc, [] => some acc
  | acc, c :: s => (digit c).bind fun d => numeralFrom base digit (acc * base + d) s

/-- The number written by at least one decimal digit. -/
def readDigits? : List Char → Option Nat
  | [] => none
  | s => numeralFrom 10 digitValue? 0 s

/-- A decimal numeral below `bound`, with an optional plus sign in front. -/
def readCount? (bound : Nat) (s : List Char) : Option Nat :=
  let digits := match s with
    | '+' :: rest => rest
    | _ => s
  (readDigits? digits).filter (· < bound)

/-- The number written by at least one hexadecimal digit. -/
def readHex? : List Char → Option Nat
  | [] => none
  | s => numeralFrom 16 hexValue? 0 s

/-- The decimal digits of a number, without leading zeros. -/
def decimal (n : Nat) : List Char := Nat.toDigits 10 n

/-- The hexadecimal digits of a number in lower case, without leading zeros. -/
def hexadecimal (n : Nat) : List Char := Nat.toDigits 16 n

/-- Zeros in front of a numeral until it has `width` digits. -/
def padded (width : Nat) (digits : List Char) : List Char :=
  List.replicate (width - digits.length) '0' ++ digits

theorem readCount?_lt {bound n : Nat} {s : List Char} (h : readCount? bound s = some n) :
    n < bound := by
  simp only [readCount?, Option.filter_eq_some_iff, decide_eq_true_eq] at h
  exact h.2

end Speedtest.Text
