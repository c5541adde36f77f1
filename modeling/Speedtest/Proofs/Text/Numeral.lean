import Speedtest.Proofs.Text.Scan
import Speedtest.Text.Numeral

/-!
# Numerals read back

A number is read back from the digits that it is written with, to either base. The facts on single digits are
stated apart, so that the induction over the digits is one for both bases.
-/
namespace Speedtest.Text

/-! ## Numerals to a base -/

theorem numeralFrom_append (base : Nat) (digit : Char → Option Nat) (acc : Nat) (s t : List Char) :
    numeralFrom base digit acc (s ++ t) =
      (numeralFrom base digit acc s).bind fun n => numeralFrom base digit n t := by
  induction s generalizing acc with
  | nil => rfl
  | cons c s ih =>
    rw [List.cons_append, numeralFrom, numeralFrom]
    cases digit c with
    | none => rfl
    | some d => exact ih _

/-- The digits of a number are read back to it. -/
theorem numeralFrom_toDigits {base : Nat} (hbase : 1 < base) {digit : Char → Option Nat}
    (hdigit : ∀ d < base, digit d.digitChar = some d) (n : Nat) :
    numeralFrom base digit 0 (Nat.toDigits base n) = some n := by
  induction n using Nat.strongRecOn with
  | ind n ih =>
    rw [Nat.toDigits_eq_if hbase]
    split
    · rename_i hlt
      simp [numeralFrom, hdigit n hlt]
    · rename_i hle
      have hdiv : n / base < n := Nat.div_lt_self (by omega) hbase
      have hmod : n % base < base := Nat.mod_lt _ (by omega)
      rw [numeralFrom_append, ih _ hdiv]
      simp [numeralFrom, hdigit _ hmod, Nat.div_add_mod']

/-- A digit of a numeral is the digit of a number below the base. -/
theorem digit_of_mem_toDigits {base : Nat} (hbase : 1 < base) {n : Nat} {c : Char}
    (h : c ∈ Nat.toDigits base n) : ∃ d < base, c = d.digitChar := by
  induction n using Nat.strongRecOn with
  | ind n ih =>
    rw [Nat.toDigits_eq_if hbase] at h
    split at h
    · rename_i hlt
      exact ⟨n, hlt, List.mem_singleton.1 h⟩
    · rename_i hle
      rcases List.mem_append.1 h with h | h
      · exact ih _ (Nat.div_lt_self (by omega) hbase) h
      · exact ⟨n % base, Nat.mod_lt _ (by omega), List.mem_singleton.1 h⟩

/-- Only zero is written with a zero in front. -/
theorem eq_zero_of_head?_toDigits {base : Nat} (hbase : 1 < base) {n : Nat}
    (h : (Nat.toDigits base n).head? = some '0') : n = 0 := by
  induction n using Nat.strongRecOn with
  | ind n ih =>
    rw [Nat.toDigits_eq_if hbase] at h
    split at h
    · exact Nat.digitChar_eq_zero.1 (Option.some.inj h)
    · rename_i hle
      have hfront : (Nat.toDigits base (n / base)).head? = some '0' := by
        cases hdigits : Nat.toDigits base (n / base) with
        | nil => exact absurd hdigits Nat.toDigits_ne_nil
        | cons c s =>
          rw [hdigits] at h
          exact h
      have hzero := ih _ (Nat.div_lt_self (by omega) hbase) hfront
      have hpos : 0 < n / base := Nat.div_pos (by omega) (by omega)
      omega

/-- A visible ASCII character; a blank is none. -/
def IsGraphic (c : Char) : Prop := 0x20 < c.toNat ∧ c.toNat < 0x7F

instance (c : Char) : Decidable (IsGraphic c) := inferInstanceAs (Decidable (_ ∧ _))

theorem isGraphic_of_all {s : List Char} (h : s.all (fun c => decide (IsGraphic c)) = true) {c : Char}
    (hc : c ∈ s) : IsGraphic c := of_decide_eq_true (List.all_eq_true.1 h c hc)

theorem isGraphic_of_mem_toDigits {base : Nat} (hbase : 1 < base) (hmax : base ≤ 16) {n : Nat} {c : Char}
    (h : c ∈ Nat.toDigits base n) : IsGraphic c := by
  have hdigit : ∀ d < 16, IsGraphic d.digitChar := by decide
  obtain ⟨d, hd, rfl⟩ := digit_of_mem_toDigits hbase h
  exact hdigit d (Nat.lt_of_lt_of_le hd hmax)

/-! ## Decimal numerals -/

theorem decimal_ne_nil (n : Nat) : decimal n ≠ [] := Nat.toDigits_ne_nil

theorem readDigits?_of_ne_nil {s : List Char} (h : s ≠ []) :
    readDigits? s = numeralFrom 10 digitValue? 0 s := by
  cases s with
  | nil => exact absurd rfl h
  | cons c s => rfl

theorem readDigits?_decimal (n : Nat) : readDigits? (decimal n) = some n := by
  have hdigit : ∀ d < 10, digitValue? d.digitChar = some d := by decide
  rw [readDigits?_of_ne_nil (decimal_ne_nil n)]
  exact numeralFrom_toDigits (by decide) hdigit n

theorem isAsciiDigit_of_mem_decimal {n : Nat} {c : Char} (h : c ∈ decimal n) : isAsciiDigit c = true := by
  have hdigit : ∀ d < 10, isAsciiDigit d.digitChar = true := by decide
  obtain ⟨d, hd, rfl⟩ := digit_of_mem_toDigits (by decide) h
  exact hdigit d hd

theorem isGraphic_of_mem_decimal {n : Nat} {c : Char} (h : c ∈ decimal n) : IsGraphic c :=
  isGraphic_of_mem_toDigits (by decide) (by decide) h

theorem length_decimal_le {n k : Nat} (hk : 0 < k) (h : n < Nat.pow 10 k) : (decimal n).length ≤ k :=
  (Nat.length_toDigits_le_iff (by decide) hk).2 h

theorem decimal_of_head? {n : Nat} (h : (decimal n).head? = some '0') : decimal n = ['0'] := by
  rw [eq_zero_of_head?_toDigits (by decide) h]
  rfl

theorem digitChar_of_digitValue? {c : Char} {d : Nat} (h : digitValue? c = some d) : d < 10 ∧ d.digitChar = c := by
  simp only [digitValue?, isAsciiDigit, Bool.and_eq_true, decide_eq_true_eq] at h
  split at h
  · rename_i hrange
    obtain rfl := Option.some.inj h
    have hlow : 48 ≤ c.toNat := hrange.1
    have hhigh : c.toNat ≤ 57 := hrange.2
    refine ⟨by omega, Char.toNat_inj.1 ?_⟩
    rw [Nat.toNat_digitChar_of_lt_ten (by omega)]
    omega
  · exact nomatch h

/-- Digits behind those of a number that is not zero go on with its numeral. -/
theorem toDigits_append_of_numeralFrom {acc n : Nat} {s : List Char} (hacc : 0 < acc)
    (h : numeralFrom 10 digitValue? acc s = some n) : Nat.toDigits 10 acc ++ s = Nat.toDigits 10 n := by
  induction s generalizing acc with
  | nil =>
    obtain rfl := Option.some.inj h
    rw [List.append_nil]
  | cons c s ih =>
    rw [numeralFrom] at h
    obtain ⟨d, hd, hrest⟩ := Option.bind_eq_some_iff.1 h
    obtain ⟨hlt, hchar⟩ := digitChar_of_digitValue? hd
    have hdigit : Nat.toDigits 10 (acc * 10 + d) = Nat.toDigits 10 acc ++ [c] := by
      rw [Nat.mul_comm, ← Nat.toDigits_append_toDigits (by decide) hacc hlt, Nat.toDigits_of_lt_base hlt, hchar]
    have htail := ih (by omega) hrest
    rw [hdigit, List.append_assoc] at htail
    exact htail

/-- Digits without a zero in front are the numeral of the number that they are read as. -/
theorem eq_decimal_of_readDigits? {s : List Char} {n : Nat} (h : readDigits? s = some n)
    (hlead : ¬ (s.head? = some '0' ∧ s ≠ ['0'])) : s = decimal n := by
  cases s with
  | nil => exact nomatch h
  | cons c s =>
    rw [readDigits?_of_ne_nil (List.cons_ne_nil c s), numeralFrom] at h
    obtain ⟨d, hd, hrest⟩ := Option.bind_eq_some_iff.1 h
    obtain ⟨hlt, rfl⟩ := digitChar_of_digitValue? hd
    rw [Nat.zero_mul, Nat.zero_add] at hrest
    rcases Nat.eq_zero_or_pos d with rfl | hpos
    · have hzero : Nat.digitChar 0 :: s = ['0'] := Decidable.byContradiction fun hne => hlead ⟨rfl, hne⟩
      obtain rfl := (List.cons.inj hzero).2
      obtain rfl := Option.some.inj hrest
      rfl
    · have htail := toDigits_append_of_numeralFrom hpos hrest
      rwa [Nat.toDigits_of_lt_base hlt] at htail

/-! ## Numerals of a width -/

section Padded

variable {width n : Nat}

theorem isAsciiDigit_of_mem_padded {c : Char} (h : c ∈ padded width (decimal n)) : isAsciiDigit c = true := by
  rcases List.mem_append.1 h with hzero | hdigit
  · obtain rfl := List.eq_of_mem_replicate hzero
    rfl
  · exact isAsciiDigit_of_mem_decimal hdigit

theorem length_padded (hwidth : 0 < width) (h : n < Nat.pow 10 width) : (padded width (decimal n)).length = width := by
  have hle := length_decimal_le hwidth h
  rw [padded, List.length_append, List.length_replicate]
  omega

theorem numeralFrom_zeros (k : Nat) : numeralFrom 10 digitValue? 0 (List.replicate k '0') = some 0 := by
  induction k with
  | zero => rfl
  | succ k ih => exact ih

theorem readDigits?_padded (width n : Nat) : readDigits? (padded width (decimal n)) = some n := by
  have hne : padded width (decimal n) ≠ [] := List.append_ne_nil_of_right_ne_nil _ (decimal_ne_nil n)
  have hdecimal := readDigits?_decimal n
  rw [readDigits?_of_ne_nil (decimal_ne_nil n)] at hdecimal
  rw [readDigits?_of_ne_nil hne, padded, numeralFrom_append, numeralFrom_zeros, Option.bind_some, hdecimal]

/-- A numeral of a width starts with a digit. -/
theorem exists_padded_cons (width n : Nat) :
    ∃ c s, padded width (decimal n) = c :: s ∧ isAsciiDigit c = true := by
  have hne : padded width (decimal n) ≠ [] := List.append_ne_nil_of_right_ne_nil _ (decimal_ne_nil n)
  obtain ⟨c, s, hcons⟩ := List.exists_cons_of_ne_nil hne
  exact ⟨c, s, hcons, isAsciiDigit_of_mem_padded (hcons ▸ List.mem_cons_self)⟩

end Padded

/-! ## Counts -/

/-- A text writes a count with at least one digit, behind at most one plus sign. -/
def WritesCount (s : List Char) (n : Nat) : Prop :=
  ∃ digits, (s = digits ∨ s = '+' :: digits) ∧ digits ≠ [] ∧ (∀ c ∈ digits, isAsciiDigit c = true) ∧
    n = Nat.ofDigitChars 10 digits 0

theorem numeralFrom_eq_some_iff {acc n : Nat} {s : List Char} :
    numeralFrom 10 digitValue? acc s = some n ↔
      (∀ c ∈ s, isAsciiDigit c = true) ∧ n = Nat.ofDigitChars 10 s acc := by
  induction s generalizing acc with
  | nil => simpa [numeralFrom, Nat.ofDigitChars] using eq_comm
  | cons c s ih =>
    rw [numeralFrom, List.forall_mem_cons]
    cases hc : isAsciiDigit c with
    | false => simp [digitValue?, hc]
    | true =>
      rw [digitValue?, if_pos hc, Option.bind_some, ih, Nat.mul_comm acc 10]
      simp [Nat.ofDigitChars]

theorem readDigits?_eq_some_iff {n : Nat} {s : List Char} :
    readDigits? s = some n ↔
      s ≠ [] ∧ (∀ c ∈ s, isAsciiDigit c = true) ∧ n = Nat.ofDigitChars 10 s 0 := by
  cases s with
  | nil => simp [readDigits?]
  | cons c s => rw [readDigits?_of_ne_nil (List.cons_ne_nil c s), numeralFrom_eq_some_iff]; simp

/-- Exactly the texts that write a count below the bound are read, each as its count. -/
theorem readCount?_eq_some_iff {bound n : Nat} {s : List Char} :
    readCount? bound s = some n ↔ WritesCount s n ∧ n < bound := by
  simp only [readCount?, Option.filter_eq_some_iff, decide_eq_true_eq]
  refine and_congr_left fun _ => ⟨fun h => ?_, ?_⟩
  · split at h
    · rename_i rest
      exact ⟨rest, .inr rfl, readDigits?_eq_some_iff.1 h⟩
    · exact ⟨s, .inl rfl, readDigits?_eq_some_iff.1 h⟩
  · rintro ⟨digits, rfl | rfl, hdigits⟩
    · -- Digits do not start with a plus sign.
      split
      · exact absurd (hdigits.2.1 '+' List.mem_cons_self) (by decide)
      · exact readDigits?_eq_some_iff.2 hdigits
    · exact readDigits?_eq_some_iff.2 hdigits

theorem readCount?_eq_none_iff {bound : Nat} {s : List Char} :
    readCount? bound s = none ↔ ∀ n, WritesCount s n → bound ≤ n := by
  rw [Option.eq_none_iff_forall_ne_some]
  simp only [ne_eq, readCount?_eq_some_iff, not_and, Nat.not_lt]

/-! ## Hexadecimal numerals -/

theorem hexadecimal_ne_nil (n : Nat) : hexadecimal n ≠ [] := Nat.toDigits_ne_nil

theorem readHex?_of_ne_nil {s : List Char} (h : s ≠ []) : readHex? s = numeralFrom 16 hexValue? 0 s := by
  cases s with
  | nil => exact absurd rfl h
  | cons c s => rfl

theorem readHex?_hexadecimal (n : Nat) : readHex? (hexadecimal n) = some n := by
  have hdigit : ∀ d < 16, hexValue? d.digitChar = some d := by decide
  rw [readHex?_of_ne_nil (hexadecimal_ne_nil n)]
  exact numeralFrom_toDigits (by decide) hdigit n

theorem isHexDigit_of_mem_hexadecimal {n : Nat} {c : Char} (h : c ∈ hexadecimal n) :
    isHexDigit c = true := by
  have hdigit : ∀ d < 16, isHexDigit d.digitChar = true := by decide
  obtain ⟨d, hd, rfl⟩ := digit_of_mem_toDigits (by decide) h
  exact hdigit d hd

theorem isGraphic_of_isHexDigit {c : Char} (h : isHexDigit c = true) : IsGraphic c := by
  obtain ⟨n, hn⟩ := Option.isSome_iff_exists.1 h
  unfold hexValue? at hn
  have h09 : ('0' : Char).toNat = 48 ∧ ('9' : Char).toNat = 57 := by decide
  have haf : ('a' : Char).toNat = 97 ∧ ('f' : Char).toNat = 102 := by decide
  have hAF : ('A' : Char).toNat = 65 ∧ ('F' : Char).toNat = 70 := by decide
  split at hn
  · rename_i hrange
    have hlow : ('0' : Char).toNat ≤ c.toNat := hrange.1
    have hhigh : c.toNat ≤ ('9' : Char).toNat := hrange.2
    exact ⟨by omega, by omega⟩
  split at hn
  · rename_i hrange
    have hlow : ('a' : Char).toNat ≤ c.toNat := hrange.1
    have hhigh : c.toNat ≤ ('f' : Char).toNat := hrange.2
    exact ⟨by omega, by omega⟩
  split at hn
  · rename_i hrange
    have hlow : ('A' : Char).toNat ≤ c.toNat := hrange.1
    have hhigh : c.toNat ≤ ('F' : Char).toNat := hrange.2
    exact ⟨by omega, by omega⟩
  · exact nomatch hn

theorem isGraphic_of_mem_hexadecimal {n : Nat} {c : Char} (h : c ∈ hexadecimal n) : IsGraphic c :=
  isGraphic_of_mem_toDigits (by decide) (by decide) h

theorem length_hexadecimal_le {n k : Nat} (hk : 0 < k) (h : n < Nat.pow 16 k) : (hexadecimal n).length ≤ k :=
  (Nat.length_toDigits_le_iff (by decide) hk).2 h

end Speedtest.Text
