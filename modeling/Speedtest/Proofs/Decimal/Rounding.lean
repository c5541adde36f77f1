import Mathlib
import Speedtest.Decimal.Number

/-!
# Where doubles end

A decimal number becomes the double that is nearest to it. The largest double is `2 ^ 1024 - 2 ^ 971`, and a number that
is at least halfway from there to `2 ^ 1024` becomes infinite. No other number does, however it is written: the bits that
a number is given, and the double that is made of them, are finite exactly below that bound.
-/
namespace Speedtest.Decimal

namespace Binary64

/-- Halfway between the largest double and the number that would come next. -/
def ceiling : ℚ := 2 ^ 1024 - 2 ^ 970

variable {num den : Nat} {e : Int}

theorem ceiling_eq : ceiling = (2 ^ 54 - 1) * 2 ^ 970 := by
  rw [ceiling, sub_mul, one_mul, ← pow_add]

theorem ceiling_pos : 0 < ceiling := by
  rw [ceiling_eq]
  positivity

/-! ## Quotients of naturals -/

/-- Scaling moves the power of two into the denominator or the numerator and changes nothing else. -/
theorem scaled_spec (num : Nat) {den : Nat} (hden : 0 < den) (e : Int) :
    0 < (scaled num den e).2 ∧ ((scaled num den e).1 : ℚ) = num / den / 2 ^ e * (scaled num den e).2 := by
  have hq : (den : ℚ) ≠ 0 := by exact_mod_cast hden.ne'
  unfold scaled
  split
  case isTrue he =>
    obtain ⟨k, rfl⟩ := Int.eq_ofNat_of_zero_le he
    refine ⟨Nat.mul_pos hden (Nat.pow_pos Nat.two_pos), ?_⟩
    simp only [Int.toNat_natCast, Nat.pow_eq, Nat.cast_mul, Nat.cast_pow, Nat.cast_ofNat, zpow_natCast]
    field_simp
  case isFalse he =>
    obtain ⟨k, hk⟩ := Int.eq_ofNat_of_zero_le (by omega : 0 ≤ -e)
    obtain rfl : e = -k := by omega
    refine ⟨hden, ?_⟩
    simp only [neg_neg, Int.toNat_natCast, Nat.pow_eq, Nat.cast_mul, Nat.cast_pow, Nat.cast_ofNat, zpow_neg,
      zpow_natCast, div_inv_eq_mul]
    field_simp

/-- A quotient is within a factor of two of the power that the lengths of its two sides tell. -/
theorem quotient_bounds (hnum : 0 < num) (hden : 0 < den) :
    (2 : ℚ) ^ ((num.log2 : Int) - den.log2 - 1) < num / den ∧ (num / den : ℚ) < 2 ^ ((num.log2 : Int) - den.log2 + 1) := by
  have hlow : (2 : ℚ) ^ num.log2 ≤ num := by exact_mod_cast Nat.log2_self_le hnum.ne'
  have hhigh : (num : ℚ) < 2 ^ (num.log2 + 1) := by exact_mod_cast Nat.lt_log2_self
  have hlow' : (2 : ℚ) ^ den.log2 ≤ den := by exact_mod_cast Nat.log2_self_le hden.ne'
  have hhigh' : (den : ℚ) < 2 ^ (den.log2 + 1) := by exact_mod_cast Nat.lt_log2_self
  have hq : (0 : ℚ) < den := by exact_mod_cast hden
  constructor
  · rw [lt_div_iff₀ hq]
    calc (2 : ℚ) ^ ((num.log2 : Int) - den.log2 - 1) * den
        < 2 ^ ((num.log2 : Int) - den.log2 - 1) * 2 ^ (den.log2 + 1) := by gcongr
      _ = 2 ^ num.log2 := by
        rw [← zpow_natCast, ← zpow_natCast, ← zpow_add₀ two_ne_zero]
        congr 1
        push_cast
        ring
      _ ≤ num := hlow
  · rw [div_lt_iff₀ hq]
    calc (num : ℚ) < 2 ^ (num.log2 + 1) := hhigh
      _ = 2 ^ ((num.log2 : Int) - den.log2 + 1) * 2 ^ den.log2 := by
        rw [← zpow_natCast, ← zpow_natCast, ← zpow_add₀ two_ne_zero]
        congr 1
        push_cast
        ring
      _ ≤ 2 ^ ((num.log2 : Int) - den.log2 + 1) * den := by gcongr

/-- The exponent that is chosen: the quotient takes at most 53 bits, and all of them unless the exponent is the least. -/
theorem exponentFor_spec (hnum : 0 < num) (hden : 0 < den) :
    -1074 ≤ exponentFor num den ∧ (num / den : ℚ) < 2 ^ 53 * 2 ^ exponentFor num den ∧
      (exponentFor num den = -1074 ∨ 2 ^ 52 * 2 ^ exponentFor num den ≤ (num / den : ℚ)) := by
  obtain ⟨hlow, hhigh⟩ := quotient_bounds hnum hden
  set e : Int := (num.log2 : Int) - den.log2 - 52 with he
  obtain ⟨hpos, hscaled⟩ := scaled_spec num hden e
  have hpos' : (0 : ℚ) < (scaled num den e).2 := by exact_mod_cast hpos
  have hpower : (0 : ℚ) < 2 ^ e := by positivity
  -- before the exponent is held above the least one
  obtain ⟨chosen, hchosen, habove, hbelow⟩ : ∃ chosen : Int, exponentFor num den = max chosen (-1074) ∧
      (num / den : ℚ) < 2 ^ 53 * 2 ^ chosen ∧ 2 ^ 52 * 2 ^ chosen ≤ (num / den : ℚ) := by
    by_cases hshort : (scaled num den e).1 / (scaled num den e).2 < Nat.pow 2 52
    · refine ⟨e - 1, by simp only [exponentFor, ← he, hshort, if_true], ?_, ?_⟩
      · have hlt : ((scaled num den e).1 : ℚ) < 2 ^ 52 * (scaled num den e).2 := by
          exact_mod_cast (Nat.div_lt_iff_lt_mul hpos).1 hshort
        rw [hscaled, mul_lt_mul_iff_left₀ hpos', div_lt_iff₀ hpower] at hlt
        refine hlt.trans_eq ?_
        rw [zpow_sub_one₀ two_ne_zero]
        ring
      · refine hlow.le.trans' (le_of_eq ?_)
        rw [← zpow_natCast, ← zpow_add₀ two_ne_zero]
        congr 1
        push_cast
        omega
    · refine ⟨e, by simp only [exponentFor, ← he, hshort, if_false], ?_, ?_⟩
      · refine hhigh.trans_eq ?_
        rw [← zpow_natCast, ← zpow_add₀ two_ne_zero]
        congr 1
        push_cast
        omega
      · have hle : (2 ^ 52 : ℚ) * (scaled num den e).2 ≤ (scaled num den e).1 := by
          exact_mod_cast (Nat.le_div_iff_mul_le hpos).1 (not_lt.1 hshort)
        rwa [hscaled, mul_le_mul_iff_left₀ hpos', le_div_iff₀ hpower] at hle
  rcases le_total chosen (-1074) with hleast | hgreater
  · rw [hchosen, max_eq_right hleast]
    refine ⟨le_rfl, habove.trans_le ?_, .inl rfl⟩
    gcongr
    exact one_le_two
  · rw [hchosen, max_eq_left hgreater]
    exact ⟨hgreater, habove, .inr hbelow⟩

/-- Half a unit below an even number is rounded up to it. -/
theorem roundDiv_lt_iff {k : Nat} (hk : k % 2 = 0) (hpos : 0 < k) (hden : 0 < den) :
    roundDiv num den < k ↔ 2 * num < (2 * k - 1) * den := by
  have hdiv := Nat.div_add_mod num den
  have hr := Nat.mod_lt num hden
  obtain ⟨k, rfl⟩ : ∃ j, k = j + 1 := ⟨k - 1, by omega⟩
  have hbound : (2 * (k + 1) - 1) * den = 2 * (den * k) + den := by
    rw [show 2 * (k + 1) - 1 = 2 * k + 1 by omega]
    ring
  rw [hbound]
  unfold roundDiv
  simp only
  rcases lt_trichotomy (num / den) k with hlt | heq | hgt
  · have hle : den * (num / den) + den ≤ den * k := by
      rw [← Nat.mul_succ]
      exact Nat.mul_le_mul_left den hlt
    split <;> [skip; split] <;> omega
  · rw [heq] at hdiv ⊢
    split <;> [skip; split] <;> omega
  · have hle : den * k + den ≤ den * (num / den) := by
      rw [← Nat.mul_succ]
      exact Nat.mul_le_mul_left den hgt
    split <;> [skip; split] <;> omega

theorem div_le_roundDiv (num den : Nat) : num / den ≤ roundDiv num den := by
  unfold roundDiv
  simp only
  split <;> [skip; split] <;> omega

/-- The nearest double is finite exactly below the ceiling. -/
theorem nearest_lt_infinity_iff (num : Nat) (hden : 0 < den) :
    nearest num den < infinity ↔ (num / den : ℚ) < ceiling := by
  rcases num.eq_zero_or_pos with rfl | hnum
  · simp [nearest, infinity, ceiling_pos]
  obtain ⟨hleast, hhigh, hlow⟩ := exponentFor_spec hnum hden
  set e := exponentFor num den with he
  obtain ⟨hpos, hscaled⟩ := scaled_spec num hden e
  set n := (scaled num den e).1
  set d := (scaled num den e).2
  have hpos' : (0 : ℚ) < d := by exact_mod_cast hpos
  have hpower : (0 : ℚ) < 2 ^ e := by positivity
  have hvalue : (num / den : ℚ) = n / d * 2 ^ e := by
    rw [hscaled]
    field_simp
  have hbits : nearest num den = min ((e + 1074).toNat * Nat.pow 2 52 + roundDiv n d) infinity := by
    simp only [nearest, hnum.ne', if_false, ← he]
    rfl
  have hinfinity : nearest num den < infinity ↔ (e + 1074).toNat * 2 ^ 52 + roundDiv n d < 2047 * 2 ^ 52 := by
    rw [hbits, min_lt_iff]
    exact or_iff_left (lt_irrefl _)
  rw [hinfinity]
  rcases lt_trichotomy e 971 with hlt | heq | hgt
  · have hround : roundDiv n d < 2 ^ 53 + 2 := by
      rw [roundDiv_lt_iff (by decide) (by decide) hpos]
      have hn : n < 2 ^ 53 * d := by
        rw [hvalue, mul_lt_mul_iff_left₀ hpower, div_lt_iff₀ hpos'] at hhigh
        exact_mod_cast hhigh
      omega
    have hbelow : (num / den : ℚ) < ceiling := by
      calc (num / den : ℚ) < 2 ^ 53 * 2 ^ e := hhigh
        _ ≤ 2 ^ 53 * 2 ^ (970 : Int) := by gcongr <;> [exact one_le_two; omega]
        _ ≤ ceiling := by
          rw [ceiling_eq]
          exact mul_le_mul_of_nonneg_right (by norm_num) (by positivity)
    exact iff_of_true (by omega) hbelow
  · have hround : roundDiv n d < 2 ^ 53 ↔ (num / den : ℚ) < ceiling := by
      have hodd : (2 ^ 54 - 1 : ℚ) = (2 * 2 ^ 53 - 1 : ℕ) := by norm_num
      rw [roundDiv_lt_iff (by decide) (by decide) hpos, hvalue, heq, ceiling_eq, hodd, zpow_ofNat, pow_succ _ 970,
        ← mul_assoc, mul_right_comm, mul_lt_mul_iff_left₀ (by positivity), div_mul_eq_mul_div, div_lt_iff₀ hpos',
        mul_comm _ (2 : ℚ)]
      exact_mod_cast Iff.rfl
    rw [← hround]
    omega
  · have habove : 2 ^ 52 * 2 ^ e ≤ (num / den : ℚ) := hlow.resolve_left (by omega)
    have hround : 2 ^ 52 ≤ roundDiv n d := by
      refine (div_le_roundDiv n d).trans' ((Nat.le_div_iff_mul_le hpos).2 ?_)
      rw [hvalue, mul_le_mul_iff_left₀ hpower, le_div_iff₀ hpos'] at habove
      exact_mod_cast habove
    have hceiling : ceiling ≤ (num / den : ℚ) := by
      calc ceiling ≤ 2 ^ 54 * 2 ^ 970 := by
            rw [ceiling_eq]
            exact mul_le_mul_of_nonneg_right (by norm_num) (by positivity)
        _ = 2 ^ 52 * 2 ^ (972 : Int) := by
          rw [zpow_ofNat, ← pow_add, ← pow_add]
        _ ≤ 2 ^ 52 * 2 ^ e := by gcongr <;> [exact one_le_two; omega]
        _ ≤ num / den := habove
    exact iff_of_false (by omega) hceiling.not_gt

end Binary64

namespace Number

/-- The number without its sign. -/
def size (x : Number) : ℚ := x.digits * 10 ^ x.scale

/-- The double that is nearest to the number is finite. -/
def IsFinite (x : Number) : Prop := x.size < Binary64.ceiling

/-- The digits in front of the point and the size. -/
theorem size_bounds {x : Number} (hpos : 0 < x.digits) :
    (10 : ℚ) ^ ((Text.decimal x.digits).length + x.scale - 1) ≤ x.size ∧
      x.size < 10 ^ ((Text.decimal x.digits).length + x.scale) := by
  set length := (Text.decimal x.digits).length
  have hscale : (0 : ℚ) < 10 ^ x.scale := by positivity
  have hlength : 0 < length := List.length_pos_iff.2 Nat.toDigits_ne_nil
  have hlow : 10 ^ (length - 1) ≤ x.digits := by
    rcases (Nat.succ_le_iff.2 hlength).eq_or_lt with hone | hlong
    · rwa [← hone]
    · by_contra hless
      have hle : length ≤ length - 1 := (Nat.length_toDigits_le_iff (by decide) (by omega)).2 (not_le.1 hless)
      omega
  have hhigh : x.digits < 10 ^ length := (Nat.length_toDigits_le_iff (by decide) hlength).1 le_rfl
  constructor
  · calc (10 : ℚ) ^ (length + x.scale - 1) = 10 ^ (length - 1) * 10 ^ x.scale := by
          rw [← zpow_natCast, ← zpow_add₀ (by norm_num)]
          congr 1
          omega
      _ ≤ x.digits * 10 ^ x.scale := by
        gcongr
        exact_mod_cast hlow
  · calc x.digits * 10 ^ x.scale < (10 : ℚ) ^ length * 10 ^ x.scale := by
          gcongr
          exact_mod_cast hhigh
      _ = 10 ^ (length + x.scale) := by rw [← zpow_natCast, ← zpow_add₀ (by norm_num)]

/-- The bits that are computed are finite exactly below the ceiling, shortcuts for very large and very small numbers
included. -/
theorem magnitude_lt_infinity_iff (x : Number) : x.magnitude < Binary64.infinity ↔ x.IsFinite := by
  rcases x.digits.eq_zero_or_pos with hzero | hpos
  · have hsize : x.size = 0 := by rw [size, hzero, Nat.cast_zero, zero_mul]
    rw [IsFinite, hsize, magnitude, if_pos hzero]
    exact iff_of_true (by decide) Binary64.ceiling_pos
  obtain ⟨hlow, hhigh⟩ := size_bounds hpos
  rw [magnitude, if_neg hpos.ne']
  simp only
  split_ifs with hlong hshort hwhole
  · have habove : Binary64.ceiling ≤ x.size := by
      calc Binary64.ceiling ≤ 2 ^ 1024 := sub_le_self _ (by positivity)
        _ ≤ 10 ^ (310 : Int) := by exact_mod_cast (by decide +kernel : 2 ^ 1024 ≤ 10 ^ 310)
        _ ≤ 10 ^ ((Text.decimal x.digits).length + x.scale - 1) := by
          gcongr
          · norm_num
          · omega
        _ ≤ x.size := hlow
    exact iff_of_false (lt_irrefl _) habove.not_gt
  · have hbelow : x.size < Binary64.ceiling := by
      calc x.size < 10 ^ ((Text.decimal x.digits).length + x.scale) := hhigh
        _ ≤ 10 ^ (0 : Int) := by
          gcongr
          · norm_num
          · omega
        _ ≤ (2 ^ 54 - 1) * 1 := by norm_num
        _ ≤ Binary64.ceiling := by
          rw [Binary64.ceiling_eq]
          exact mul_le_mul_of_nonneg_left (one_le_pow₀ one_le_two) (by norm_num)
    exact iff_of_true (by decide) hbelow
  · obtain ⟨k, hk⟩ := Int.eq_ofNat_of_zero_le hwhole
    rw [hk, Int.toNat_natCast, Binary64.nearest_lt_infinity_iff _ Nat.one_pos, IsFinite, size, hk, zpow_natCast]
    simp
  · obtain ⟨k, hk⟩ := Int.eq_ofNat_of_zero_le (by omega : 0 ≤ -x.scale)
    have hscale : x.scale = -k := by omega
    have hpower : 0 < Nat.pow 10 k := Nat.pow_pos (by decide)
    rw [hk, Int.toNat_natCast, Binary64.nearest_lt_infinity_iff _ hpower, IsFinite, size, hscale, zpow_neg,
      zpow_natCast, ← div_eq_mul_inv]
    simp

end Number

/-! ## Doubles from bits -/

open Float.Model

abbrev exponentField (b : BitVec 64) : BitVec 11 := @UnpackedFloat.unpackExponent .binary64 b

theorem isFinite_unpack (b : BitVec 64) : (UnpackedFloat.unpack .binary64 b).isFinite = true ↔ exponentField b ≠ -1#11 := by
  unfold UnpackedFloat.unpack
  simp only
  split_ifs with hlast
  · exact iff_of_false (by simp [UnpackedFloat.isFinite]) (not_not.2 hlast)
  · exact iff_of_false (by simp [UnpackedFloat.isFinite]) (not_not.2 hlast)
  all_goals exact iff_of_true rfl hlast

/-- A finite double is packed with an exponent field that is not the last one. -/
theorem exponentField_pack (s : UnpackedFloat.Sign) (m : Nat) (e : Int) (hm : 0 < m) (he : e + 1075 < 2047) :
    exponentField (UnpackedFloat.pack .binary64 (.finite s m e hm)) ≠ -1#11 := by
  have hbias : e + (Format.binary64.exponentBias : Nat) + (52 : Nat) = e + 1075 := by
    simp only [Format.exponentBias]
    omega
  have hfits : ¬ 2 ^ 11 ≤ (e + 1075).toNat + 1 := by omega
  have hfield : BitVec.ofNat 11 (e + 1075).toNat ≠ -1#11 := by
    intro h
    have hnat : (e + 1075).toNat % 2 ^ 11 = 2047 := congrArg BitVec.toNat h
    omega
  unfold UnpackedFloat.pack
  simp only [hbias, hfits, if_false]
  split
  · rw [exponentField, UnpackedFloat.unpackExponent_packComponents]
    exact hfield
  · rw [exponentField, UnpackedFloat.unpackExponent_packComponents]
    decide

/-- Putting a double together from its bits only changes what kind of no number it is. -/
theorem exponentField_pack_unpack (b : BitVec 64) :
    exponentField (UnpackedFloat.pack .binary64 (.unpack .binary64 b)) = -1#11 ↔ exponentField b = -1#11 := by
  unfold UnpackedFloat.unpack
  simp only
  split_ifs with hlast hnone hzero
  · exact iff_of_true UnpackedFloat.unpackExponent_packComponents hlast
  · exact iff_of_true UnpackedFloat.unpackExponent_packComponents hlast
  · refine iff_of_false ?_ hlast
    simp only [exponentField, UnpackedFloat.pack, UnpackedFloat.packedZero, UnpackedFloat.unpackExponent_packComponents]
    decide
  · refine iff_of_false (exponentField_pack _ _ _ _ ?_) hlast
    simp [hzero, Format.exponentBias]
  · refine iff_of_false (exponentField_pack _ _ _ _ ?_) hlast
    have hlt : (exponentField b).toNat < 2 ^ 11 := (exponentField b).isLt
    have hne : (exponentField b).toNat ≠ 2047 := fun h => hlast (BitVec.eq_of_toNat_eq h)
    show (((exponentField b).toNat : Int) - ((1023 : Nat) + (52 : Nat))) + 1075 < 2047
    omega

theorem isFinite_ofBits (b : UInt64) : (Float.ofBits b).isFinite = true ↔ b.toNat / 2 ^ 52 % 2 ^ 11 ≠ 2047 := by
  have hmodel : (Float.ofBits b).isFinite =
      (UnpackedFloat.unpack .binary64 (UnpackedFloat.pack .binary64 (.unpack .binary64 b.toBitVec))).isFinite := rfl
  have hfield : (exponentField b.toBitVec).toNat = b.toNat / 2 ^ 52 % 2 ^ 11 := by
    simp [exponentField, UnpackedFloat.unpackExponent, Nat.shiftRight_eq_div_pow]
  rw [hmodel, isFinite_unpack, Ne, exponentField_pack_unpack, ← BitVec.toNat_inj, hfield]
  rfl

theorem field_signed {bits : Nat} (hbits : bits < 2 ^ 63) (negative : Bool) :
    (bits + if negative then Binary64.signBit else 0) % 2 ^ 64 / 2 ^ 52 % 2 ^ 11 = bits / 2 ^ 52 := by
  have hsign : Binary64.signBit = 2 ^ 63 := rfl
  cases negative with
  | true =>
    rw [if_pos rfl, hsign]
    omega
  | false =>
    rw [if_neg Bool.false_ne_true]
    omega

theorem Binary64.nearest_le (num den : Nat) : nearest num den ≤ infinity := by
  unfold nearest
  split
  · exact Nat.zero_le _
  · exact min_le_right _ _

theorem Number.magnitude_le (x : Number) : x.magnitude ≤ Binary64.infinity := by
  unfold magnitude
  simp only
  split_ifs
  · exact Nat.zero_le _
  · exact le_rfl
  · exact Nat.zero_le _
  · exact Binary64.nearest_le _ _
  · exact Binary64.nearest_le _ _

/-- A reading becomes a finite double exactly where it is a number below the ceiling. -/
theorem Reading.isFinite_toFloat (r : Reading) : r.toFloat.isFinite = true ↔ ∃ x, r = .number x ∧ x.IsFinite := by
  have hinfinity : Binary64.infinity = 2047 * 2 ^ 52 := rfl
  have hfinite : r.toFloat.isFinite = true ↔ r.bits % 2 ^ 64 / 2 ^ 52 % 2 ^ 11 ≠ 2047 := by
    rw [toFloat, isFinite_ofBits, UInt64.toNat_ofNat']
  rw [hfinite]
  cases r with
  | number x =>
    have hle := x.magnitude_le
    have hlt : x.magnitude < 2 ^ 63 := by omega
    have hfield : (Reading.number x).bits % 2 ^ 64 / 2 ^ 52 % 2 ^ 11 = x.magnitude / 2 ^ 52 :=
      field_signed hlt x.negative
    have hbelow : x.magnitude / 2 ^ 52 ≠ 2047 ↔ x.magnitude < Binary64.infinity := by omega
    rw [hfield, hbelow, x.magnitude_lt_infinity_iff]
    simp
  | infinite negative =>
    have hfield : (Reading.infinite negative).bits % 2 ^ 64 / 2 ^ 52 % 2 ^ 11 = 2047 :=
      field_signed (by rw [hinfinity]; decide) negative
    rw [hfield]
    simp
  | nan =>
    have hfield : Reading.nan.bits % 2 ^ 64 / 2 ^ 52 % 2 ^ 11 = 2047 := rfl
    rw [hfield]
    simp

end Speedtest.Decimal
