/-!
# Bytes

A byte string is a list of bytes. ASCII texts of a protocol are written as byte strings through
`ofAscii`, which is meant for texts below code point 128.
-/
namespace Speedtest

abbrev Bytes := List UInt8

namespace Bytes

/-- The bytes of an ASCII text, one for each character. -/
def ofAscii (s : String) : Bytes := s.toList.map fun c => UInt8.ofNat c.toNat

/-- The number whose big-endian digits to base 256 are the given bytes. -/
def toNat (b : Bytes) : Nat := b.foldl (fun n byte => n * 256 + byte.toNat) 0

/-- The big-endian bytes of a number, modulo 256 to the given count. -/
def ofNat : (count n : Nat) → Bytes
  | 0, _ => []
  | count + 1, n => ofNat count (n / 256) ++ [UInt8.ofNat (n % 256)]

theorem length_ofNat (count n : Nat) : (ofNat count n).length = count := by
  induction count generalizing n with
  | zero => rfl
  | succ count ih => simp [ofNat, ih]

theorem toNat_append_singleton (b : Bytes) (x : UInt8) :
    toNat (b ++ [x]) = toNat b * 256 + x.toNat := by
  simp [toNat]

/-- So many bytes stand for a number below as many powers of 256. -/
theorem toNat_lt (b : Bytes) : toNat b < Nat.pow 256 b.length := by
  suffices hfrom : ∀ n, b.foldl (fun n byte => n * 256 + byte.toNat) n < (n + 1) * Nat.pow 256 b.length by
    have h := hfrom 0
    rwa [Nat.zero_add, Nat.one_mul] at h
  induction b with
  | nil => exact fun n => Nat.lt_of_lt_of_le (Nat.lt_succ_self n) (Nat.le_mul_of_pos_right _ Nat.one_pos)
  | cons x b ih =>
    intro n
    have hx : x.toNat < 256 := x.toNat_lt
    calc (x :: b).foldl (fun n byte => n * 256 + byte.toNat) n
        < (n * 256 + x.toNat + 1) * Nat.pow 256 b.length := ih (n * 256 + x.toNat)
      _ ≤ ((n + 1) * 256) * Nat.pow 256 b.length := Nat.mul_le_mul_right _ (by omega)
      _ = (n + 1) * Nat.pow 256 (x :: b).length := by
        rw [Nat.mul_assoc, Nat.mul_comm 256]
        rfl

/-- Big-endian bytes read back as the number they were made from. -/
theorem toNat_ofNat {count n : Nat} (h : n < Nat.pow 256 count) : toNat (ofNat count n) = n := by
  induction count generalizing n with
  | zero =>
    have : n = 0 := by simpa using h
    subst this; rfl
  | succ count ih =>
    have hdiv : n / 256 < Nat.pow 256 count :=
      Nat.div_lt_of_lt_mul (by rw [Nat.mul_comm]; exact h)
    rw [ofNat, toNat_append_singleton, ih hdiv]
    have : (UInt8.ofNat (n % 256)).toNat = n % 256 := by simp
    omega

/-- Bytes are those of the number that they stand for. -/
theorem ofNat_toNat {count : Nat} {b : Bytes} (h : b.length = count) : ofNat count (toNat b) = b := by
  induction count generalizing b with
  | zero =>
    rw [List.eq_nil_of_length_eq_zero h]
    rfl
  | succ count ih =>
    have hne : b ≠ [] := List.ne_nil_of_length_eq_add_one h
    obtain ⟨front, last, rfl⟩ : ∃ front last, b = front ++ [last] :=
      ⟨b.dropLast, b.getLast hne, (List.dropLast_concat_getLast hne).symm⟩
    have hlast : last.toNat < 256 := UInt8.toNat_lt _
    have hdiv : (toNat front * 256 + last.toNat) / 256 = toNat front := by omega
    have hmod : (toNat front * 256 + last.toNat) % 256 = last.toNat := by omega
    have hfront : front.length = count := by simpa using h
    rw [toNat_append_singleton, ofNat, hdiv, hmod, ih hfront, UInt8.ofNat_toNat]

theorem toNat_inj {a b : Bytes} (hlength : a.length = b.length) (h : toNat a = toNat b) : a = b := by
  rw [← ofNat_toNat hlength, h, ofNat_toNat rfl]

end Bytes
end Speedtest
