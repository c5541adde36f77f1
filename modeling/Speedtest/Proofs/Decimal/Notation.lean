import Speedtest.Decimal.Number
import Speedtest.Proofs.Text.Numeral
import Speedtest.Proofs.Text.Scan

/-!
# How numbers are written

A number is written with a sign or without, with digits around at most one point, of which there is at least one, and with
an exponent or without. Besides there are names, in any case: two for infinity and one for what is no number at all. The
reader takes exactly what is written so, as what it stands for.
-/
namespace Speedtest.Decimal

open Text (isAsciiDigit Stops)

/-- A sign, which may be left out in front of what is not negative. -/
inductive IsSign : Bool → List Char → Prop where
  | none : IsSign false []
  | plus : IsSign false ['+']
  | minus : IsSign true ['-']

/-- The power of ten behind the digits of a number. -/
inductive WritesPower : List Char → Int → Prop where
  | none : WritesPower [] 0
  | power {letter : Char} {negative : Bool} {sign digits : List Char} (hletter : letter = 'e' ∨ letter = 'E')
      (hsign : IsSign negative sign) (hdigits : digits ≠ []) (hall : ∀ c ∈ digits, isAsciiDigit c = true) :
      WritesPower (letter :: (sign ++ digits))
        (if negative then -(Nat.ofDigitChars 10 digits 0 : Int) else Nat.ofDigitChars 10 digits 0)

/-- A number without its sign. -/
inductive WritesUnsigned (negative : Bool) : List Char → Number → Prop where
  | whole {digits power : List Char} {n : Int} (hdigits : digits ≠ []) (hall : ∀ c ∈ digits, isAsciiDigit c = true)
      (hpower : WritesPower power n) :
      WritesUnsigned negative (digits ++ power) ⟨negative, Nat.ofDigitChars 10 digits 0, n⟩
  | pointed {whole fraction power : List Char} {n : Int} (hdigits : whole ++ fraction ≠ [])
      (hall : ∀ c ∈ whole ++ fraction, isAsciiDigit c = true) (hpower : WritesPower power n) :
      WritesUnsigned negative (whole ++ '.' :: (fraction ++ power))
        ⟨negative, Nat.ofDigitChars 10 (whole ++ fraction) 0, n - fraction.length⟩

/-- A number or a name, with its sign. The sign of what is no number says nothing. -/
inductive Writes : List Char → Reading → Prop where
  | number {negative : Bool} {sign s : List Char} {x : Number} (hsign : IsSign negative sign)
      (hx : WritesUnsigned negative s x) : Writes (sign ++ s) (.number x)
  | infinite {negative : Bool} {sign name : List Char} (hsign : IsSign negative sign)
      (hname : name.map Text.asciiLower = "inf".toList ∨ name.map Text.asciiLower = "infinity".toList) :
      Writes (sign ++ name) (.infinite negative)
  | nan {negative : Bool} {sign name : List Char} (hsign : IsSign negative sign)
      (hname : name.map Text.asciiLower = "nan".toList) : Writes (sign ++ name) .nan

variable {negative : Bool} {sign s power : List Char} {x : Number}

/-! ## Signs -/

theorem splitSign_append (hsign : IsSign negative sign) (hs : ∀ c, s.head? = some c → c ≠ '+' ∧ c ≠ '-') :
    splitSign (sign ++ s) = (negative, s) := by
  cases hsign with
  | none =>
    cases s with
    | nil => rfl
    | cons c s =>
      obtain ⟨hplus, hminus⟩ := hs c rfl
      simp [splitSign, hplus, hminus]
  | plus => rfl
  | minus => rfl

theorem exists_isSign (s : List Char) : ∃ sign, IsSign (splitSign s).1 sign ∧ s = sign ++ (splitSign s).2 := by
  unfold splitSign
  split
  · exact ⟨_, .minus, rfl⟩
  · exact ⟨_, .plus, rfl⟩
  · exact ⟨_, .none, rfl⟩

theorem ne_sign_of_isAsciiDigit {c : Char} (hc : isAsciiDigit c = true) : c ≠ '+' ∧ c ≠ '-' :=
  ⟨Text.ne_of_kind hc rfl, Text.ne_of_kind hc rfl⟩

/-! ## Exponents -/

theorem readExponent?_eq (s : List Char) :
    readExponent? s = (Text.readDigits? (splitSign s).2).map fun n : Nat => if (splitSign s).1 then -(n : Int) else n := by
  unfold readExponent?
  obtain ⟨negative, digits⟩ := splitSign s
  simp only
  cases Text.readDigits? digits <;> rfl

/-- An exponent is read behind its letter exactly where it is written so. -/
theorem readExponent?_eq_some_iff {n : Int} :
    readExponent? s = some n ↔ ∃ letter, (letter = 'e' ∨ letter = 'E') ∧ WritesPower (letter :: s) n := by
  constructor
  · intro h
    obtain ⟨sign, hsign, hs⟩ := exists_isSign s
    rw [readExponent?_eq] at h
    obtain ⟨k, hk, rfl⟩ := Option.map_eq_some_iff.1 h
    obtain ⟨hdigits, hall, rfl⟩ := Text.readDigits?_eq_some_iff.1 hk
    refine ⟨'e', .inl rfl, ?_⟩
    have hpower := WritesPower.power (.inl rfl : 'e' = 'e' ∨ 'e' = 'E') hsign hdigits hall
    rwa [← hs] at hpower
  · rintro ⟨letter, -, hpower⟩
    cases hpower with
    | power hletter hsign hdigits hall =>
      have hhead := fun c hc => ne_sign_of_isAsciiDigit (hall c (List.mem_of_mem_head? hc))
      rw [readExponent?_eq, splitSign_append hsign hhead, Text.readDigits?_eq_some_iff.2 ⟨hdigits, hall, rfl⟩,
        Option.map_some]

theorem stops_power {n : Int} (hpower : WritesPower power n) : Stops isAsciiDigit power := by
  cases hpower with
  | none => exact Text.stops_nil _
  | power hletter _ _ _ => rcases hletter with rfl | rfl <;> exact Text.stops_cons rfl _

/-! ## Unsigned numbers -/

theorem foldl_digits (whole : List Char) (acc : Nat) (hall : ∀ c ∈ whole, isAsciiDigit c = true) :
    (whole.filterMap Text.digitValue?).foldl (fun n d => n * 10 + d) acc = Nat.ofDigitChars 10 whole acc := by
  induction whole generalizing acc with
  | nil => rfl
  | cons c whole ih =>
    rw [List.forall_mem_cons] at hall
    rw [List.filterMap_cons, Text.digitValue?, if_pos hall.1, List.foldl_cons, ih _ hall.2, Nat.mul_comm]
    rfl

theorem ofParts_eq {whole fraction : List Char} (hall : ∀ c ∈ whole ++ fraction, isAsciiDigit c = true) (n : Int) :
    Number.ofParts negative whole fraction n =
      ⟨negative, Nat.ofDigitChars 10 (whole ++ fraction) 0, n - fraction.length⟩ := by
  rw [Number.ofParts, foldl_digits _ _ hall]

/-- What stands behind the digits of a number. -/
def readPower? (s : List Char) : Option Int :=
  match s with
  | [] => some 0
  | e :: t => if e = 'e' ∨ e = 'E' then readExponent? t else none

/-- The power behind the digits is read exactly where it is written, and may be left out. -/
theorem readPower?_eq_some_iff {n : Int} : readPower? s = some n ↔ WritesPower s n := by
  cases s with
  | nil =>
    constructor
    · rintro ⟨⟩
      exact .none
    · rintro ⟨⟩
      rfl
  | cons e t =>
    rw [readPower?]
    split
    case isTrue he =>
      rw [readExponent?_eq_some_iff]
      constructor
      · rintro ⟨letter, -, hpower⟩
        cases hpower with
        | power _ hsign hdigits hall => exact .power he hsign hdigits hall
      · exact fun hpower => ⟨e, he, hpower⟩
    case isFalse he =>
      constructor
      · rintro ⟨⟩
      · intro hpower
        cases hpower with
        | power hletter _ _ _ => exact absurd hletter he

/-- A number is read from the digits in front of the point, the digits behind it and the power behind these. -/
theorem readParts_eq (whole fraction rest : List Char) :
    (if whole.isEmpty && fraction.isEmpty then none
      else match rest with
        | [] => some (.ofParts negative whole fraction 0)
        | e :: t =>
          if e = 'e' ∨ e = 'E' then (readExponent? t).map (.ofParts negative whole fraction) else none) =
      if whole ++ fraction = [] then none else (readPower? rest).map (Number.ofParts negative whole fraction) := by
  cases rest with
  | nil => simp [readPower?]
  | cons e t =>
    simp only [readPower?, Bool.and_eq_true, List.isEmpty_iff, List.append_eq_nil_iff]
    split
    · rfl
    · split <;> rfl

theorem readUnsigned?_whole (hall : ∀ c ∈ s, isAsciiDigit c = true) (hstop : Stops isAsciiDigit power)
    (hpoint : power.head? ≠ some '.') :
    readUnsigned? negative (s ++ power) =
      if s = [] then none else (readPower? power).map (Number.ofParts negative s []) := by
  unfold readUnsigned?
  simp only [Text.takeWhile_run hall hstop, Text.dropWhile_run hall hstop]
  split
  case h_1 => exact absurd rfl hpoint
  case h_2 => exact (readParts_eq s [] power).trans (by rw [List.append_nil])

theorem readUnsigned?_pointed {whole fraction : List Char} (hwhole : ∀ c ∈ whole, isAsciiDigit c = true)
    (hfraction : ∀ c ∈ fraction, isAsciiDigit c = true) (hstop : Stops isAsciiDigit power) :
    readUnsigned? negative (whole ++ '.' :: (fraction ++ power)) =
      if whole ++ fraction = [] then none else (readPower? power).map (Number.ofParts negative whole fraction) := by
  have hpoint : Stops isAsciiDigit ('.' :: (fraction ++ power)) := Text.stops_cons rfl _
  unfold readUnsigned?
  simp only [Text.takeWhile_run hwhole hpoint, Text.dropWhile_run hwhole hpoint, Text.takeWhile_run hfraction hstop,
    Text.dropWhile_run hfraction hstop]
  exact readParts_eq whole fraction power

/-- A text is digits with what follows them, with a point between or without. -/
theorem exists_parts (s : List Char) : ∃ whole power : List Char, (∀ c ∈ whole, isAsciiDigit c = true) ∧
    Stops isAsciiDigit power ∧ (power.head? ≠ some '.' ∧ s = whole ++ power ∨
      ∃ fraction : List Char, (∀ c ∈ fraction, isAsciiDigit c = true) ∧ s = whole ++ '.' :: (fraction ++ power)) := by
  have hall (t : List Char) : ∀ c ∈ t.takeWhile isAsciiDigit, isAsciiDigit c = true := List.all_eq_true.1 List.all_takeWhile
  have hs : s = s.takeWhile isAsciiDigit ++ s.dropWhile isAsciiDigit := List.takeWhile_append_dropWhile.symm
  by_cases hpoint : (s.dropWhile isAsciiDigit).head? = some '.'
  · obtain ⟨t, ht⟩ := List.head?_eq_some_iff.1 hpoint
    refine ⟨_, t.dropWhile isAsciiDigit, hall s, Text.stops_dropWhile t, .inr ⟨_, hall t, ?_⟩⟩
    rw [List.takeWhile_append_dropWhile, ← ht]
    exact hs
  · exact ⟨_, _, hall s, Text.stops_dropWhile s, .inl ⟨hpoint, hs⟩⟩

theorem head?_power {n : Int} (hpower : WritesPower power n) : power.head? ≠ some '.' := by
  cases hpower with
  | none => exact nofun
  | power hletter _ _ _ => rcases hletter with rfl | rfl <;> exact fun h => nomatch h

/-- A number is read exactly where it is written, whether it has a point or not. -/
theorem readUnsigned?_eq_some_iff : readUnsigned? negative s = some x ↔ WritesUnsigned negative s x := by
  constructor
  · intro h
    obtain ⟨whole, power, hwhole, hstop, ⟨hpoint, rfl⟩ | ⟨fraction, hfraction, rfl⟩⟩ := exists_parts s
    · rw [readUnsigned?_whole hwhole hstop hpoint, Option.ite_none_left_eq_some, Option.map_eq_some_iff] at h
      obtain ⟨hdigits, n, hn, rfl⟩ := h
      have hall : ∀ c ∈ whole ++ [], isAsciiDigit c = true := by rwa [List.append_nil]
      rw [ofParts_eq hall, List.append_nil, List.length_nil, Int.natCast_zero, Int.sub_zero]
      exact .whole hdigits hwhole (readPower?_eq_some_iff.1 hn)
    · rw [readUnsigned?_pointed hwhole hfraction hstop, Option.ite_none_left_eq_some, Option.map_eq_some_iff] at h
      obtain ⟨hdigits, n, hn, rfl⟩ := h
      have hall : ∀ c ∈ whole ++ fraction, isAsciiDigit c = true := List.forall_mem_append.2 ⟨hwhole, hfraction⟩
      rw [ofParts_eq hall]
      exact .pointed hdigits hall (readPower?_eq_some_iff.1 hn)
  · intro h
    cases h with
    | @whole digits _ _ hdigits hall hpower =>
      have hall' : ∀ c ∈ digits ++ [], isAsciiDigit c = true := by rwa [List.append_nil]
      rw [readUnsigned?_whole hall (stops_power hpower) (head?_power hpower), if_neg hdigits,
        readPower?_eq_some_iff.2 hpower, Option.map_some, ofParts_eq hall', List.append_nil]
      simp
    | pointed hdigits hall hpower =>
      obtain ⟨hwhole, hfraction⟩ := List.forall_mem_append.1 hall
      rw [readUnsigned?_pointed hwhole hfraction (stops_power hpower), if_neg hdigits,
        readPower?_eq_some_iff.2 hpower, Option.map_some, ofParts_eq hall]

/-! ## Numbers and names -/

theorem exists_cons_of_unsigned (hx : WritesUnsigned negative s x) :
    ∃ c t, s = c :: t ∧ (isAsciiDigit c = true ∨ c = '.') := by
  cases hx with
  | whole hdigits hall _ =>
    obtain ⟨c, t, rfl⟩ := List.exists_cons_of_ne_nil hdigits
    exact ⟨c, t ++ _, rfl, .inl (hall c List.mem_cons_self)⟩
  | @pointed whole fraction _ _ _ hall _ =>
    cases whole with
    | nil => exact ⟨'.', _, rfl, .inr rfl⟩
    | cons c whole => exact ⟨c, _, rfl, .inl (hall c (List.mem_append_left _ List.mem_cons_self))⟩

/-- A digit or a point is neither a sign nor the first letter of a name. -/
theorem asciiLower_of_digit_or_point {c : Char} (hc : isAsciiDigit c = true ∨ c = '.') :
    (c ≠ '+' ∧ c ≠ '-') ∧ Text.asciiLower c ≠ 'i' ∧ Text.asciiLower c ≠ 'n' := by
  have hsmall : c.toNat ≤ 57 := by
    rcases hc with hc | rfl
    · simp only [isAsciiDigit, Bool.and_eq_true, decide_eq_true_eq] at hc
      exact hc.2
    · decide
  have hlower : Text.asciiLower c = c := by
    refine if_neg fun hupper => ?_
    have hlarge : 65 ≤ c.toNat := hupper.1
    omega
  have hne {d : Char} (hd : 57 < d.toNat) : c ≠ d := by
    rintro rfl
    omega
  rw [hlower]
  refine ⟨?_, hne (by decide), hne (by decide)⟩
  rcases hc with hc | rfl
  · exact ne_sign_of_isAsciiDigit hc
  · decide

/-- The reader by its cases, with the names as lists of letters. -/
theorem read?_eq (s : List Char) :
    read? s =
      if (splitSign s).2.map Text.asciiLower = "inf".toList ∨ (splitSign s).2.map Text.asciiLower = "infinity".toList then
        some (.infinite (splitSign s).1)
      else if (splitSign s).2.map Text.asciiLower = "nan".toList then some .nan
      else (readUnsigned? (splitSign s).1 (splitSign s).2).map .number := by
  have hname (l : List Char) (name : String) : String.ofList l = name ↔ l = name.toList :=
    ⟨fun h => by rw [← h, String.toList_ofList], fun h => by rw [h, String.ofList_toList]⟩
  simp only [read?, hname]

/-- A name starts with a letter, so it has no sign of its own. -/
theorem ne_sign_of_name {name : List Char} {c : Char} {letters : List Char}
    (hname : name.map Text.asciiLower = c :: letters) (hc : c ≠ '+' ∧ c ≠ '-') :
    ∀ d, name.head? = some d → d ≠ '+' ∧ d ≠ '-' := by
  intro d hd
  obtain ⟨t, rfl⟩ := List.head?_eq_some_iff.1 hd
  obtain ⟨rfl, -⟩ := List.cons_eq_cons.1 hname
  constructor
  · rintro rfl
    exact hc.1 rfl
  · rintro rfl
    exact hc.2 rfl

/-- Exactly what writes a number or a name is read, as what it writes. -/
theorem read?_eq_some_iff {r : Reading} : read? s = some r ↔ Writes s r := by
  constructor
  · intro h
    obtain ⟨sign, hsign, hs⟩ := exists_isSign s
    rw [read?_eq] at h
    rw [hs]
    split at h
    case isTrue hinf =>
      obtain rfl := Option.some.inj h
      exact .infinite hsign hinf
    case isFalse =>
      split at h
      case isTrue hnan =>
        obtain rfl := Option.some.inj h
        exact .nan hsign hnan
      case isFalse =>
        obtain ⟨x, hx, rfl⟩ := Option.map_eq_some_iff.1 h
        exact .number hsign (readUnsigned?_eq_some_iff.1 hx)
  · intro h
    rw [read?_eq]
    cases h with
    | @number negative sign s x hsign hx =>
      obtain ⟨c, t, rfl, hc⟩ := exists_cons_of_unsigned hx
      obtain ⟨hplain, hi, hn⟩ := asciiLower_of_digit_or_point hc
      have hhead : ∀ d, (c :: t).head? = some d → d ≠ '+' ∧ d ≠ '-' := by
        rintro d ⟨⟩
        exact hplain
      rw [splitSign_append hsign hhead, readUnsigned?_eq_some_iff.2 hx]
      simp [hi, hn]
    | @infinite negative sign name hsign hname =>
      have hhead : ∀ d, name.head? = some d → d ≠ '+' ∧ d ≠ '-' := by
        rcases hname with hname | hname <;> exact ne_sign_of_name hname (by decide)
      rw [splitSign_append hsign hhead, if_pos hname]
    | @nan negative sign name hsign hname =>
      have hhead : ∀ d, name.head? = some d → d ≠ '+' ∧ d ≠ '-' := ne_sign_of_name hname (by decide)
      rw [splitSign_append hsign hhead]
      simp only [hname]
      rfl

end Speedtest.Decimal
