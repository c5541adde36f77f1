import Speedtest.Proofs.Text.Numeral
import Speedtest.Proofs.Text.Scan
import Speedtest.Proofs.Time.Calendar
import Speedtest.Time.Instant
import Mathlib.Data.List.TakeWhile

/-!
# Instants as texts

An instant of a year that has four digits, outside the leap seconds, is read from its text as it was: every number on it
has a width of its own, and the fraction has as many digits as it needs.
-/
namespace Speedtest

namespace Text

theorem not_isBlank_of_isAsciiDigit {c : Char} (h : isAsciiDigit c = true) : isBlank c = false := by
  simp only [isAsciiDigit, Bool.and_eq_true, decide_eq_true_eq] at h
  have hlow : 48 ≤ c.toNat := h.1
  have hhigh : c.toNat ≤ 57 := h.2
  simp only [isBlank, Bool.or_eq_false_iff, Bool.and_eq_false_iff, decide_eq_false_iff_not, beq_eq_false_iff_ne]
  omega

end Text

namespace Time.Instant

open Text (padded decimal)

variable {width n low high : Nat} {c : Char}

/-! ## Parts -/

theorem dropBlanks_cons (h : Text.isBlank c = false) (s : List Char) : dropBlanks (c :: s) = c :: s := by
  rw [dropBlanks, List.dropWhile_cons, h]
  rfl

theorem dropBlanks_padded (width n : Nat) (rest : List Char) :
    dropBlanks (padded width (decimal n) ++ rest) = padded width (decimal n) ++ rest := by
  obtain ⟨c, s, hcons, hc⟩ := Text.exists_padded_cons width n
  rw [hcons]
  exact dropBlanks_cons (Text.not_isBlank_of_isAsciiDigit hc) _

theorem readNumber?_padded (hwidth : 0 < width) (h : n < Nat.pow 10 width) (rest : List Char) :
    readNumber? width (padded width (decimal n) ++ rest) = some (n, rest) := by
  have hlength := Text.length_padded hwidth h
  have htake : (padded width (decimal n) ++ rest).take width = padded width (decimal n) := by
    rw [List.take_append_of_le_length (Nat.le_of_eq hlength.symm), List.take_of_length_le (Nat.le_of_eq hlength)]
  have hdigits : (padded width (decimal n)).takeWhile Text.isAsciiDigit = padded width (decimal n) :=
    List.takeWhile_eq_self_iff.2 fun _ hc => Text.isAsciiDigit_of_mem_padded hc
  simp only [readNumber?, dropBlanks_padded, htake, hdigits, Text.readDigits?_padded, Option.map_some, List.drop_left]

theorem readPart?_two (hlow : low ≤ n) (hhigh : n ≤ high) (h : n < 100) (rest : List Char) :
    readPart? low high (two n ++ rest) = some (n, rest) := by
  rw [readPart?, two, readNumber?_padded (by decide) h, Option.filter_some, if_pos]
  simp [hlow, hhigh]

theorem readMark?_cons (h : Text.isBlank c = false) (s : List Char) : readMark? c (c :: s) = some s := by
  rw [readMark?, dropBlanks_cons h]
  exact if_pos rfl

/-- Years of four digits are read back. -/
theorem readYear?_yearText {year : Int} (hlow : 0 ≤ year) (hhigh : year ≤ 9999) (rest : List Char) :
    readYear? (yearText year ++ rest) = some (year, rest) := by
  have hyear : yearText year = padded 4 (decimal year.natAbs) := by
    rw [yearText]
    simp only [Int.not_lt.2 hlow, Int.not_lt.2 hhigh, if_false]
  have hfits : year.natAbs < Nat.pow 10 4 := by
    show year.natAbs < 10000
    omega
  have hnumber := readNumber?_padded (by decide) hfits rest
  obtain ⟨c, s, hcons, hc⟩ := Text.exists_padded_cons 4 year.natAbs
  rw [hyear, readYear?, dropBlanks_padded]
  rw [hcons] at hnumber ⊢
  rw [List.cons_append] at hnumber ⊢
  split
  case h_1 heq =>
    obtain rfl := (List.cons.inj heq).1
    exact absurd hc (by decide)
  case h_2 heq =>
    obtain rfl := (List.cons.inj heq).1
    exact absurd hc (by decide)
  case h_3 =>
    rw [hnumber, Option.map_some]
    exact congrArg (fun y => some (y, rest)) (Int.natAbs_of_nonneg hlow)

theorem readFraction?_padded (hwidth : 0 < width) (hle : width ≤ 9) (h : n < Nat.pow 10 width) {rest : List Char}
    (hrest : Text.Stops Text.isAsciiDigit rest) :
    readFraction? ('.' :: (padded width (decimal n) ++ rest)) = some (n * Nat.pow 10 (9 - width), rest) := by
  have hlength := Text.length_padded hwidth h
  have hdigits : (padded width (decimal n) ++ rest).takeWhile Text.isAsciiDigit = padded width (decimal n) :=
    Text.takeWhile_run (fun _ hc => Text.isAsciiDigit_of_mem_padded hc) hrest
  have htake : (padded width (decimal n)).take 9 = padded width (decimal n) :=
    List.take_of_length_le (by omega)
  have hdrop : (padded width (decimal n) ++ rest).drop width = rest := List.drop_left' hlength
  simp only [readFraction?, hdigits, htake, Text.readDigits?_padded, Option.map_some, hlength, hdrop]

theorem readFraction?_of_not_point {s : List Char} (h : s.head? ≠ some '.') : readFraction? s = some (0, s) := by
  unfold readFraction?
  split
  case h_1 => exact absurd rfl h
  case h_2 => rfl

/-- A fraction whose last digits are zeros is read from the others. -/
theorem readFraction?_short (hwidth : 0 < width) (hle : width ≤ 9) (h : n < 1000000000)
    (hzeros : n % Nat.pow 10 (9 - width) = 0) {rest : List Char} (hrest : Text.Stops Text.isAsciiDigit rest) :
    readFraction? ('.' :: (padded width (decimal (n / Nat.pow 10 (9 - width))) ++ rest)) = some (n, rest) := by
  have hpow : Nat.pow 10 (9 - width) * Nat.pow 10 width = 1000000000 := by
    show 10 ^ (9 - width) * 10 ^ width = 1000000000
    rw [← Nat.pow_add, Nat.sub_add_cancel hle]
  have hfits : n / Nat.pow 10 (9 - width) < Nat.pow 10 width := Nat.div_lt_of_lt_mul (hpow ▸ h)
  rw [readFraction?_padded hwidth hle hfits hrest, Nat.div_mul_cancel (Nat.dvd_of_mod_eq_zero hzeros)]

/-- A fraction is read back to the nanosecond. -/
theorem readFraction?_fractionText (h : n < 1000000000) {rest : List Char} (hrest : Text.Stops Text.isAsciiDigit rest)
    (hpoint : rest.head? ≠ some '.') : readFraction? (fractionText n ++ rest) = some (n, rest) := by
  unfold fractionText
  split
  case isTrue hzero =>
    rw [hzero, List.nil_append, readFraction?_of_not_point hpoint]
  case isFalse =>
    split
    case isTrue hmillis => exact readFraction?_short (by decide : 0 < 3) (by decide) h hmillis hrest
    case isFalse =>
      split
      case isTrue hmicros => exact readFraction?_short (by decide : 0 < 6) (by decide) h hmicros hrest
      case isFalse =>
        rw [List.cons_append, readFraction?_padded (by decide) (by decide) h hrest]
        exact congrArg (fun k => some (k, rest)) (Nat.mul_one n)

/-! ## Instants -/

/-- A date of a year with four digits and a clock in universal time, as they are written. -/
def written (d : Date) (hour minute second nanos : Nat) : List Char :=
  yearText d.year ++ '-' :: (two d.month ++ '-' :: (two d.day ++ 'T' ::
    (two hour ++ ':' :: (two minute ++ ':' :: (two second ++ (fractionText nanos ++ ['Z']))))))

/-- A date and a time that were written are read back, to the same instant. -/
theorem ofText?_written {d : Date} {hour minute second : Nat} {t : Instant} (hvalid : d.isValid = true)
    (hlow : 0 ≤ d.year) (hhigh : d.year ≤ 9999) (hhour : hour ≤ 23) (hminute : minute ≤ 59) (hsecond : second ≤ 59)
    (hnanos : t.nanos < 1000000000)
    (hseconds : d.toDays * 86400 + (hour * 3600 + minute * 60 + second : Nat) = t.seconds)
    (hinRange : yearInRange t.date.year = true) : ofText? (written d hour minute second t.nanos) = some t := by
  obtain ⟨hmonth, hday⟩ := Date.bounds_of_isValid hvalid
  have hrange : yearInRange d.year = true := by
    simp only [yearInRange, Bool.and_eq_true, decide_eq_true_eq]
    omega
  have hsixty : second ≠ 60 := by omega
  have hdash := fun s => readMark?_cons (c := '-') rfl s
  have hcolon := fun s => readMark?_cons (c := ':') rfl s
  have hfraction : readFraction? (fractionText t.nanos ++ ['Z']) = some (t.nanos, ['Z']) :=
    readFraction?_fractionText hnanos (Text.stops_cons rfl []) (by decide)
  rw [ofText?, written]
  -- The parts are read one after the other, each off what the part before it left.
  refine Option.bind_eq_some_iff.2 ⟨_, readYear?_yearText hlow hhigh _, ?_⟩
  refine Option.bind_eq_some_iff.2 ⟨_, hdash _, ?_⟩
  refine Option.bind_eq_some_iff.2 ⟨_, readPart?_two hmonth.1 hmonth.2 (by omega) _, ?_⟩
  refine Option.bind_eq_some_iff.2 ⟨_, hdash _, ?_⟩
  refine Option.bind_eq_some_iff.2 ⟨_, readPart?_two hday.1 hday.2 (by omega) _, ?_⟩
  refine Option.bind_eq_some_iff.2 ⟨_, rfl, ?_⟩
  refine Option.bind_eq_some_iff.2 ⟨_, readPart?_two (Nat.zero_le hour) hhour (by omega) _, ?_⟩
  refine Option.bind_eq_some_iff.2 ⟨_, hcolon _, ?_⟩
  refine Option.bind_eq_some_iff.2 ⟨_, readPart?_two (Nat.zero_le minute) hminute (by omega) _, ?_⟩
  refine Option.bind_eq_some_iff.2 ⟨_, hcolon _, ?_⟩
  refine Option.bind_eq_some_iff.2 ⟨_, readPart?_two (Nat.zero_le second) (Nat.le_succ_of_le hsecond) (by omega) _, ?_⟩
  refine Option.bind_eq_some_iff.2 ⟨_, hfraction, ?_⟩
  refine Option.bind_eq_some_iff.2 ⟨(0, []), rfl, ?_⟩
  have htime : (⟨d.toDays * 86400 + (hour * 3600 + minute * 60 + (second - 0) : Nat) - 0, t.nanos + 0 * 1000000000⟩ :
      Instant) = t := by
    rw [Int.sub_zero, Nat.sub_zero, Nat.zero_mul, Nat.add_zero, hseconds]
  dsimp only
  rw [if_pos ⟨rfl, hvalid, hrange, by decide⟩, if_neg hsixty, htime]
  exact if_pos hinRange

/-- An instant of a year with four digits, outside the leap seconds. -/
structure InYears (t : Instant) : Prop where
  year_nonneg : 0 ≤ t.date.year
  year_le : t.date.year ≤ 9999
  nanos_lt : t.nanos < 1000000000

theorem text_eq_written {t : Instant} (h : t.nanos < 1000000000) :
    let ofDay := (t.seconds % 86400).toNat
    t.text = written t.date (ofDay / 3600) (ofDay / 60 % 60) (ofDay % 60) t.nanos := by
  simp only [text, written, Nat.div_eq_of_lt h, Nat.mod_eq_of_lt h, Nat.add_zero, List.append_assoc, List.cons_append,
    List.nil_append]

/-- An instant is read from its text as it was. -/
theorem ofText?_text {t : Instant} (h : t.InYears) : ofText? t.text = some t := by
  obtain ⟨hlow, hhigh, hnanos⟩ := h
  have hvalid : t.date.isValid = true := Date.isValid_ofDays _
  have hdays : t.date.toDays = t.seconds / 86400 := Date.toDays_ofDays _
  rw [text_eq_written hnanos]
  generalize hofDay : (t.seconds % 86400).toNat = ofDay
  have hseconds : t.date.toDays * 86400 +
      (ofDay / 3600 * 3600 + ofDay / 60 % 60 * 60 + ofDay % 60 : Nat) = t.seconds := by
    omega
  have hrange : yearInRange t.date.year = true := by
    simp only [yearInRange, Bool.and_eq_true, decide_eq_true_eq]
    omega
  exact ofText?_written hvalid hlow hhigh (by omega) (by omega) (by omega) hnanos hseconds hrange

end Time.Instant
end Speedtest
