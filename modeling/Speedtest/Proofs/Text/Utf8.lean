import Speedtest.Text.Utf8

/-!
# Texts as bytes and back

Decoding takes off the front of a byte string exactly the character whose bytes stand there, so a text is read
back from its bytes, and no other bytes are read as that text. A text of ASCII characters has one byte for each of
them.
-/
namespace Speedtest.Text.Utf8

/-- The byte that continues a character with six of its bits. -/
def tail (bits : Nat) : UInt8 := UInt8.ofNat (bits % 64 + 128)

theorem toNat_tail (bits : Nat) : (tail bits).toNat = bits % 64 + 128 := by
  rw [tail, UInt8.toNat_ofNat']
  omega

theorem isTail_tail (bits : Nat) : isTail (tail bits) = true := by
  have h := toNat_tail bits
  simp only [isTail, Bool.and_eq_true, decide_eq_true_eq, UInt8.le_iff_toNat_le, UInt8.reduceToNat, h]
  omega

theorem low6_tail (bits : Nat) : low6 (tail bits) = bits % 64 := by
  have h := toNat_tail bits
  unfold low6
  omega

theorem within_iff {low high a : UInt8} :
    (decide (low ≤ a) && decide (a ≤ high)) = true ↔ low.toNat ≤ a.toNat ∧ a.toNat ≤ high.toNat := by
  simp only [Bool.and_eq_true, decide_eq_true_eq, UInt8.le_iff_toNat_le]

theorem next_one {v : Nat} (h : v < 0x80) (rest : Bytes) :
    next (UInt8.ofNat v :: rest) = some (some (Char.ofNat v), rest) := by
  have hv : (UInt8.ofNat v).toNat = v := by rw [UInt8.toNat_ofNat']; omega
  generalize UInt8.ofNat v = a at hv
  have hlt : a < 0x80 := by rw [UInt8.lt_iff_toNat_lt, hv]; exact h
  simp only [next, hlt, if_true, hv]

theorem next_two {v : Nat} (hlow : 0x80 ≤ v) (hhigh : v < 0x800) (rest : Bytes) :
    next (UInt8.ofNat (v / 64 % 32 + 192) :: tail v :: rest) = some (some (Char.ofNat v), rest) := by
  have ha : (UInt8.ofNat (v / 64 % 32 + 192)).toNat = v / 64 + 192 := by
    rw [UInt8.toNat_ofNat']; omega
  generalize UInt8.ofNat (v / 64 % 32 + 192) = a at ha
  have h1 : ¬ a < 0x80 := by rw [UInt8.lt_iff_toNat_lt, ha]; simp
  have h2 : (0xC2 ≤ a && a ≤ 0xDF) = true := within_iff.2 (by simp only [ha, UInt8.reduceToNat]; omega)
  have hnum : (a.toNat - 0xC0) * 64 + low6 (tail v) = v := by rw [ha, low6_tail]; omega
  simp only [next, h1, h2, if_true, if_false, isTail_tail, hnum]

/-- The bounds on the second byte in numbers. -/
theorem mayFollow_of_bounds {a b : UInt8} (htail : isTail b = true)
    (he0 : a.toNat = 0xE0 → 0xA0 ≤ b.toNat) (hed : a.toNat = 0xED → b.toNat < 0xA0)
    (hf0 : a.toNat = 0xF0 → 0x90 ≤ b.toNat) (hf4 : a.toNat = 0xF4 → b.toNat < 0x90) :
    mayFollow a b = true := by
  simp only [mayFollow, htail, Bool.true_and, Bool.and_eq_true, Bool.not_eq_true', Bool.and_eq_false_iff,
    beq_eq_false_iff_ne, ne_eq, decide_eq_false_iff_not, ← UInt8.toNat_inj, UInt8.lt_iff_toNat_lt,
    UInt8.le_iff_toNat_le, UInt8.reduceToNat]
  omega

/-- Three bytes are read as one character. -/
theorem next_three {v : Nat} (hlow : 0x800 ≤ v) (hhigh : v < 0x10000) (hvalid : v < 0xD800 ∨ 0xDFFF < v)
    (rest : Bytes) :
    next (UInt8.ofNat (v / 4096 % 16 + 224) :: tail (v / 64) :: tail v :: rest) =
      some (some (Char.ofNat v), rest) := by
  have ha : (UInt8.ofNat (v / 4096 % 16 + 224)).toNat = v / 4096 + 224 := by
    rw [UInt8.toNat_ofNat']; omega
  generalize UInt8.ofNat (v / 4096 % 16 + 224) = a at ha
  have h1 : ¬ a < 0x80 := by rw [UInt8.lt_iff_toNat_lt, ha]; simp
  have h2 : ¬ (0xC2 ≤ a && a ≤ 0xDF) = true := by rw [within_iff, ha]; simp only [UInt8.reduceToNat]; omega
  have h3 : (0xE0 ≤ a && a ≤ 0xEF) = true := within_iff.2 (by simp only [ha, UInt8.reduceToNat]; omega)
  have hb := toNat_tail (v / 64)
  have hf : mayFollow a (tail (v / 64)) = true := by
    apply mayFollow_of_bounds (isTail_tail _) <;> omega
  have hnum : ((a.toNat - 0xE0) * 64 + low6 (tail (v / 64))) * 64 + low6 (tail v) = v := by
    rw [ha, low6_tail, low6_tail]; omega
  simp only [next, h1, h2, h3, hf, if_true, if_false, isTail_tail, hnum, Bool.false_eq_true]

/-- Four bytes are read as one character. -/
theorem next_four {v : Nat} (hlow : 0x10000 ≤ v) (hhigh : v < 0x110000) (rest : Bytes) :
    next (UInt8.ofNat (v / 262144 % 8 + 240) :: tail (v / 4096) :: tail (v / 64) :: tail v :: rest) =
      some (some (Char.ofNat v), rest) := by
  have ha : (UInt8.ofNat (v / 262144 % 8 + 240)).toNat = v / 262144 + 240 := by
    rw [UInt8.toNat_ofNat']; omega
  generalize UInt8.ofNat (v / 262144 % 8 + 240) = a at ha
  have h1 : ¬ a < 0x80 := by rw [UInt8.lt_iff_toNat_lt, ha]; simp
  have h2 : ¬ (0xC2 ≤ a && a ≤ 0xDF) = true := by rw [within_iff, ha]; simp only [UInt8.reduceToNat]; omega
  have h3 : ¬ (0xE0 ≤ a && a ≤ 0xEF) = true := by rw [within_iff, ha]; simp only [UInt8.reduceToNat]; omega
  have h4 : (0xF0 ≤ a && a ≤ 0xF4) = true := within_iff.2 (by simp only [ha, UInt8.reduceToNat]; omega)
  have hb := toNat_tail (v / 4096)
  have hf : mayFollow a (tail (v / 4096)) = true := by
    apply mayFollow_of_bounds (isTail_tail _) <;> omega
  have hnum : (((a.toNat - 0xF0) * 64 + low6 (tail (v / 4096))) * 64 + low6 (tail (v / 64))) * 64 +
      low6 (tail v) = v := by
    rw [ha, low6_tail, low6_tail, low6_tail]; omega
  simp only [next, h1, h2, h3, h4, hf, if_true, if_false, isTail_tail, hnum, Bool.false_eq_true]

/-- The bytes of a character by the length of its form. -/
theorem utf8EncodeChar_cases (c : Char) :
    (c.toNat < 0x80 ∧ String.utf8EncodeChar c = [UInt8.ofNat c.toNat]) ∨
    (0x80 ≤ c.toNat ∧ c.toNat < 0x800 ∧
      String.utf8EncodeChar c = [UInt8.ofNat (c.toNat / 64 % 32 + 192), tail c.toNat]) ∨
    (0x800 ≤ c.toNat ∧ c.toNat < 0x10000 ∧
      String.utf8EncodeChar c =
        [UInt8.ofNat (c.toNat / 4096 % 16 + 224), tail (c.toNat / 64), tail c.toNat]) ∨
    (0x10000 ≤ c.toNat ∧
      String.utf8EncodeChar c =
        [UInt8.ofNat (c.toNat / 262144 % 8 + 240), tail (c.toNat / 4096), tail (c.toNat / 64),
          tail c.toNat]) := by
  unfold String.utf8EncodeChar
  rcases Nat.lt_or_ge c.toNat 0x80 with h1 | h1
  · exact .inl ⟨h1, if_pos (Nat.le_of_lt_succ h1)⟩
  rcases Nat.lt_or_ge c.toNat 0x800 with h2 | h2
  · exact .inr (.inl ⟨h1, h2, (if_neg (Nat.not_le.2 h1)).trans (if_pos (Nat.le_of_lt_succ h2))⟩)
  rcases Nat.lt_or_ge c.toNat 0x10000 with h3 | h3
  · exact .inr (.inr (.inl ⟨h2, h3,
      (if_neg (Nat.not_le.2 h1)).trans ((if_neg (Nat.not_le.2 h2)).trans (if_pos (Nat.le_of_lt_succ h3)))⟩))
  · exact .inr (.inr (.inr ⟨h3,
      (if_neg (Nat.not_le.2 h1)).trans ((if_neg (Nat.not_le.2 h2)).trans (if_neg (Nat.not_le.2 h3)))⟩))

/-- The bytes of a character are taken off the front as that character. -/
theorem next_utf8EncodeChar (c : Char) (rest : Bytes) :
    next (String.utf8EncodeChar c ++ rest) = some (some c, rest) := by
  have hvalid : c.toNat < 0xD800 ∨ 0xDFFF < c.toNat ∧ c.toNat < 0x110000 := c.valid
  suffices h : next (String.utf8EncodeChar c ++ rest) = some (some (Char.ofNat c.toNat), rest) by
    rwa [Char.ofNat_toNat] at h
  rcases utf8EncodeChar_cases c with ⟨h1, hbytes⟩ | ⟨h1, h2, hbytes⟩ | ⟨h2, h3, hbytes⟩ | ⟨h3, hbytes⟩
  · rw [hbytes]
    exact next_one h1 rest
  · rw [hbytes]
    exact next_two h1 h2 rest
  · rw [hbytes]
    exact next_three h2 h3 (by omega) rest
  · rw [hbytes]
    exact next_four h3 (by omega) rest

/-! ## Texts -/

theorem decodeFrom_nil (done : List Char) : decodeFrom done [] = some done.reverse := by
  rw [decodeFrom.eq_def]
  rfl

theorem decodeFrom_of_next {done : List Char} {s rest : Bytes} {c : Char}
    (hnext : next s = some (some c, rest)) : decodeFrom done s = decodeFrom (c :: done) rest := by
  rw [decodeFrom.eq_def]
  split
  · rename_i h
    cases h.symm.trans hnext
  · rename_i h
    cases h.symm.trans hnext
  · rename_i h
    obtain ⟨hc, rfl⟩ := Prod.mk.inj (Option.some.inj (h.symm.trans hnext))
    obtain rfl := Option.some.inj hc
    rfl

theorem decodeFrom_encode (done s : List Char) : decodeFrom done (encode s) = some (done.reverse ++ s) := by
  induction s generalizing done with
  | nil => rw [List.append_nil]; exact decodeFrom_nil done
  | cons c s ih =>
    have hnext : next (encode (c :: s)) = some (some c, encode s) := next_utf8EncodeChar c (encode s)
    rw [decodeFrom_of_next hnext, ih, List.reverse_cons, List.append_assoc]
    rfl

/-- A text is read back from its bytes. -/
theorem decode?_encode (s : List Char) : decode? (encode s) = some s := decodeFrom_encode [] s

theorem encode_inj {s t : List Char} (h : encode s = encode t) : s = t := by
  have hs := decode?_encode s
  rw [h, decode?_encode] at hs
  exact (Option.some.inj hs).symm

theorem decodeLenientFrom_nil (done : List Char) : decodeLenientFrom done [] = done.reverse := by
  rw [decodeLenientFrom.eq_def]
  rfl

theorem decodeLenientFrom_of_next {done : List Char} {s rest : Bytes} {c : Char}
    (hnext : next s = some (some c, rest)) :
    decodeLenientFrom done s = decodeLenientFrom (c :: done) rest := by
  rw [decodeLenientFrom.eq_def]
  split
  · rename_i h
    cases h.symm.trans hnext
  · rename_i h
    cases h.symm.trans hnext
  · rename_i h
    obtain ⟨hc, rfl⟩ := Prod.mk.inj (Option.some.inj (h.symm.trans hnext))
    obtain rfl := Option.some.inj hc
    rfl

theorem decodeLenientFrom_encode (done s : List Char) :
    decodeLenientFrom done (encode s) = done.reverse ++ s := by
  induction s generalizing done with
  | nil => rw [List.append_nil]; exact decodeLenientFrom_nil done
  | cons c s ih =>
    have hnext : next (encode (c :: s)) = some (some c, encode s) := next_utf8EncodeChar c (encode s)
    rw [decodeLenientFrom_of_next hnext, ih, List.reverse_cons, List.append_assoc]
    rfl

/-- Nothing is replaced in the bytes of a text. -/
theorem decodeLenient_encode (s : List Char) : decodeLenient (encode s) = s := decodeLenientFrom_encode [] s

theorem encode_append (s t : List Char) : encode (s ++ t) = encode s ++ encode t := List.flatMap_append

theorem encode_cons (c : Char) (s : List Char) : encode (c :: s) = String.utf8EncodeChar c ++ encode s :=
  List.flatMap_cons

theorem utf8EncodeChar_of_ascii {c : Char} (h : c.toNat < 0x80) :
    String.utf8EncodeChar c = [UInt8.ofNat c.toNat] := by
  rcases utf8EncodeChar_cases c with ⟨-, hbytes⟩ | ⟨h1, -⟩ | ⟨h2, -⟩ | ⟨h3, -⟩
  · exact hbytes
  all_goals omega

/-- A text of ASCII characters has one byte for each of them. -/
theorem encode_of_ascii {s : List Char} (h : ∀ c ∈ s, c.toNat < 0x80) :
    encode s = s.map fun c => UInt8.ofNat c.toNat := by
  induction s with
  | nil => rfl
  | cons c s ih =>
    have hc := utf8EncodeChar_of_ascii (h c List.mem_cons_self)
    have hs := ih fun d hd => h d (List.mem_cons_of_mem _ hd)
    rw [List.map_cons, ← hs]
    exact congrArg (· ++ encode s) hc

/-! ## Bytes that are texts -/

theorem toNat_charOfNat {v : Nat} (h : v < 0xD800 ∨ 0xDFFF < v ∧ v < 0x110000) : (Char.ofNat v).toNat = v := by
  have hvalid : v.isValidChar := h
  rw [Char.ofNat, dif_pos hvalid]
  rfl

theorem bounds_of_isTail {b : UInt8} (h : isTail b = true) : 0x80 ≤ b.toNat ∧ b.toNat ≤ 0xBF := by
  rw [isTail, within_iff] at h
  simpa only [UInt8.reduceToNat] using h

theorem eq_tail {b : UInt8} {bits : Nat} (htail : isTail b = true) (h : bits % 64 = low6 b) : b = tail bits := by
  have hb := bounds_of_isTail htail
  apply UInt8.toNat_inj.1
  rw [toNat_tail, h]
  unfold low6
  omega

theorem eq_ofNat {a : UInt8} {v : Nat} (h : v = a.toNat) : a = UInt8.ofNat v := by
  rw [h, UInt8.ofNat_toNat]

theorem low6_lt {b : UInt8} (h : isTail b = true) : low6 b < 64 := by
  have hb := bounds_of_isTail h
  unfold low6
  omega

/-- The bounds on the second byte, read back. -/
theorem bounds_of_mayFollow {a b : UInt8} (h : mayFollow a b = true) :
    isTail b = true ∧ (a.toNat = 0xE0 → 0xA0 ≤ b.toNat) ∧ (a.toNat = 0xED → b.toNat < 0xA0) ∧
    (a.toNat = 0xF0 → 0x90 ≤ b.toNat) ∧ (a.toNat = 0xF4 → b.toNat < 0x90) := by
  simp only [mayFollow, Bool.and_eq_true, Bool.not_eq_true', Bool.and_eq_false_iff, beq_eq_false_iff_ne, ne_eq,
    decide_eq_false_iff_not, ← UInt8.toNat_inj, UInt8.lt_iff_toNat_lt, UInt8.le_iff_toNat_le, UInt8.reduceToNat] at h
  obtain ⟨⟨⟨⟨htail, he0⟩, hed⟩, hf0⟩, hf4⟩ := h
  refine ⟨htail, ?_⟩
  omega

theorem utf8EncodeChar_one {v : Nat} (h : v < 0x80) : String.utf8EncodeChar (Char.ofNat v) = [UInt8.ofNat v] := by
  have hv : (Char.ofNat v).toNat = v := toNat_charOfNat (by omega)
  rcases utf8EncodeChar_cases (Char.ofNat v) with ⟨-, h⟩ | ⟨h1, -⟩ | ⟨h2, -⟩ | ⟨h3, -⟩
  · rwa [hv] at h
  all_goals omega

theorem utf8EncodeChar_two {a b : UInt8} (ha : 0xC2 ≤ a.toNat ∧ a.toNat ≤ 0xDF) (hb : isTail b = true) :
    String.utf8EncodeChar (Char.ofNat ((a.toNat - 0xC0) * 64 + low6 b)) = [a, b] := by
  have hlow := low6_lt hb
  generalize hv : (a.toNat - 0xC0) * 64 + low6 b = v
  have hc : (Char.ofNat v).toNat = v := toNat_charOfNat (by omega)
  rcases utf8EncodeChar_cases (Char.ofNat v) with ⟨h0, -⟩ | ⟨-, -, h⟩ | ⟨h2, -⟩ | ⟨h3, -⟩
  · omega
  · rw [h, hc, ← eq_ofNat (a := a) (by omega), ← eq_tail hb (by omega)]
  all_goals omega

/-- A character that was read from three bytes is written with these. -/
theorem utf8EncodeChar_three {a b c : UInt8} (ha : 0xE0 ≤ a.toNat ∧ a.toNat ≤ 0xEF) (hb : mayFollow a b = true)
    (hc : isTail c = true) :
    String.utf8EncodeChar (Char.ofNat (((a.toNat - 0xE0) * 64 + low6 b) * 64 + low6 c)) = [a, b, c] := by
  obtain ⟨htail, he0, hed, -, -⟩ := bounds_of_mayFollow hb
  have hsecond := low6_lt htail
  have hbound := bounds_of_isTail htail
  have hthird := low6_lt hc
  have hlow : low6 b = b.toNat - 0x80 := rfl
  generalize hv : ((a.toNat - 0xE0) * 64 + low6 b) * 64 + low6 c = v
  have hchar : (Char.ofNat v).toNat = v := toNat_charOfNat (by omega)
  rcases utf8EncodeChar_cases (Char.ofNat v) with ⟨h0, -⟩ | ⟨-, h1, -⟩ | ⟨-, -, h⟩ | ⟨h3, -⟩
  · omega
  · omega
  · rw [h, hchar, ← eq_ofNat (a := a) (by omega), ← eq_tail htail (by omega), ← eq_tail hc (by omega)]
  · omega

/-- A character that was read from four bytes is written with these. -/
theorem utf8EncodeChar_four {a b c d : UInt8} (ha : 0xF0 ≤ a.toNat ∧ a.toNat ≤ 0xF4) (hb : mayFollow a b = true)
    (hc : isTail c = true) (hd : isTail d = true) :
    String.utf8EncodeChar (Char.ofNat ((((a.toNat - 0xF0) * 64 + low6 b) * 64 + low6 c) * 64 + low6 d)) =
      [a, b, c, d] := by
  obtain ⟨htail, -, -, hf0, hf4⟩ := bounds_of_mayFollow hb
  have hsecond := low6_lt htail
  have hbound := bounds_of_isTail htail
  have hthird := low6_lt hc
  have hfourth := low6_lt hd
  have hlow : low6 b = b.toNat - 0x80 := rfl
  generalize hv : (((a.toNat - 0xF0) * 64 + low6 b) * 64 + low6 c) * 64 + low6 d = v
  have hchar : (Char.ofNat v).toNat = v := toNat_charOfNat (by omega)
  rcases utf8EncodeChar_cases (Char.ofNat v) with ⟨h0, -⟩ | ⟨-, h1, -⟩ | ⟨-, h2, -⟩ | ⟨-, h⟩
  · omega
  · omega
  · omega
  · rw [h, hchar, ← eq_ofNat (a := a) (by omega), ← eq_tail htail (by omega), ← eq_tail hc (by omega),
      ← eq_tail hd (by omega)]

/-- A character that is taken off the front has its bytes there. -/
theorem eq_append_of_next {s rest : Bytes} {c : Char} (h : next s = some (some c, rest)) :
    s = String.utf8EncodeChar c ++ rest := by
  cases s with
  | nil => exact nomatch h
  | cons a s =>
    simp only [next, Option.some.injEq] at h
    repeat' split at h
    -- What is left when no character starts there is out at once, and there is a case for each length of one.
    all_goals
      obtain ⟨hchar, rfl⟩ := Prod.mk.inj h
      simp only [Option.some.injEq, reduceCtorEq] at hchar
    all_goals subst hchar
    · rename_i ha
      rw [utf8EncodeChar_one (UInt8.lt_iff_toNat_lt.1 ha), UInt8.ofNat_toNat]
      rfl
    · rename_i ha _ b _ hb
      rw [utf8EncodeChar_two (within_iff.1 ha) hb]
      rfl
    · rename_i ha _ b hb _ c rest hc
      rw [utf8EncodeChar_three (within_iff.1 ha) hb hc]
      rfl
    · rename_i ha _ b hb _ c hc _ d rest hd
      rw [utf8EncodeChar_four (within_iff.1 ha) hb hc hd]
      rfl

/-- What was decoded is what is encoded again. -/
theorem encode_of_decodeFrom {done s : List Char} {b : Bytes} (h : decodeFrom done b = some s) :
    ∃ t, s = done.reverse ++ t ∧ b = encode t := by
  fun_induction decodeFrom done b with
  | case1 done b hend =>
    obtain rfl := Option.some.inj h
    refine ⟨[], (List.append_nil _).symm, ?_⟩
    cases b with
    | nil => rfl
    | cons a b => simp [next] at hend
  | case2 => cases h
  | case3 done b c rest hnext ih =>
    obtain ⟨t, rfl, rfl⟩ := ih h
    refine ⟨c :: t, by rw [List.reverse_cons, List.append_assoc]; rfl, ?_⟩
    rw [eq_append_of_next hnext, encode_cons]

/-- Exactly the bytes of a text are decoded as that text. -/
theorem decode?_eq_some_iff {b : Bytes} {s : List Char} : decode? b = some s ↔ b = encode s := by
  constructor
  · intro h
    obtain ⟨t, rfl, hb⟩ := encode_of_decodeFrom h
    exact hb
  · rintro rfl
    exact decode?_encode s

/-! ## Texts within texts -/

/-- Every byte of a character but the first one goes on with it. -/
theorem isTail_of_mem_tail {c : Char} {a b : UInt8} {front back : Bytes}
    (h : String.utf8EncodeChar c = a :: front ++ b :: back) : isTail b = true := by
  have hmem : b ∈ (String.utf8EncodeChar c).tail := by
    rw [h]
    exact List.mem_append_right front List.mem_cons_self
  rcases utf8EncodeChar_cases c with ⟨-, hbytes⟩ | ⟨-, -, hbytes⟩ | ⟨-, -, hbytes⟩ | ⟨-, hbytes⟩
  all_goals
    rw [hbytes, List.tail_cons] at hmem
    simp only [List.mem_cons, List.not_mem_nil, or_false] at hmem
  · rw [hmem]
    exact isTail_tail _
  · rcases hmem with rfl | rfl <;> exact isTail_tail _
  · rcases hmem with rfl | rfl | rfl <;> exact isTail_tail _

theorem prefix_of_encode {p s : List Char} (h : encode p <+: encode s) : p <+: s := by
  obtain ⟨rest, h⟩ := h
  induction p generalizing s with
  | nil => exact List.nil_prefix
  | cons c p ih =>
    have hnext := next_utf8EncodeChar c (encode p ++ rest)
    rw [← List.append_assoc, ← encode_cons, h] at hnext
    cases s with
    | nil => exact nomatch hnext
    | cons d s =>
      rw [encode_cons, next_utf8EncodeChar] at hnext
      obtain ⟨hd, hs⟩ := Prod.mk.inj (Option.some.inj hnext)
      obtain rfl := Option.some.inj hd
      exact List.cons_prefix_cons.2 ⟨rfl, ih hs.symm⟩

/-- Where the bytes of a text that starts with an ASCII character stand among those of another text, the text stands
in the other one: no character but the first byte of one can be taken for it. -/
theorem infix_of_encode_infix {c : Char} {p s : List Char} (hc : c.toNat < 0x80)
    (h : encode (c :: p) <:+: encode s) : c :: p <:+: s := by
  have hfirst : encode (c :: p) = UInt8.ofNat c.toNat :: encode p := by
    rw [encode_cons, utf8EncodeChar_of_ascii hc]
    rfl
  induction s with
  | nil =>
    rw [hfirst] at h
    exact nomatch List.infix_nil.1 h
  | cons d s ih =>
    obtain ⟨front, back, h⟩ := h
    rw [List.append_assoc, encode_cons d s] at h
    rcases List.append_eq_append_iff.1 h with ⟨inside, hd, hrest⟩ | ⟨front', -, hs⟩
    · cases front with
      | nil =>
        have hprefix : encode (c :: p) <+: encode (d :: s) := ⟨back, by rw [encode_cons d s]; exact h⟩
        exact (prefix_of_encode hprefix).isInfix
      | cons a front =>
        cases inside with
        | nil => exact (ih ⟨[], back, hrest⟩).trans (List.suffix_cons d s).isInfix
        | cons b inside =>
          -- The first byte of the text would have to go on with another character.
          have htail := isTail_of_mem_tail hd
          rw [hfirst] at hrest
          obtain rfl := (List.cons.inj hrest).1
          rw [isTail, within_iff, UInt8.toNat_ofNat'] at htail
          simp only [UInt8.reduceToNat] at htail
          omega
    · exact (ih ⟨front', back, by rw [List.append_assoc]; exact hs.symm⟩).trans (List.suffix_cons d s).isInfix

/-! ## The first byte -/

theorem encode_cons_of_ascii {c : Char} (h : c.toNat < 0x80) (s : List Char) :
    encode (c :: s) = UInt8.ofNat c.toNat :: encode s := by
  rw [encode_cons, utf8EncodeChar_of_ascii h]
  rfl

theorem utf8EncodeChar_ne_nil (c : Char) : String.utf8EncodeChar c ≠ [] := by
  rcases utf8EncodeChar_cases c with ⟨-, h⟩ | ⟨-, -, h⟩ | ⟨-, -, h⟩ | ⟨-, h⟩
  all_goals rw [h]; exact List.cons_ne_nil _ _

/-- No byte of another character is an ASCII character. -/
theorem high_of_mem {c : Char} (h : 0x80 ≤ c.toNat) {b : UInt8} (hb : b ∈ String.utf8EncodeChar c) : 0x80 ≤ b.toNat := by
  have hvalid : c.toNat < 0xD800 ∨ 0xDFFF < c.toNat ∧ c.toNat < 0x110000 := c.valid
  have htail (bits : Nat) : 0x80 ≤ (tail bits).toNat := by rw [toNat_tail]; omega
  have hlead {n low : Nat} (hlow : 0x80 ≤ low) (hn : n + low < 256) : 0x80 ≤ (UInt8.ofNat (n + low)).toNat := by
    rw [UInt8.toNat_ofNat']
    omega
  rcases utf8EncodeChar_cases c with ⟨hlt, -⟩ | ⟨-, -, hbytes⟩ | ⟨-, -, hbytes⟩ | ⟨-, hbytes⟩
  · omega
  all_goals
    rw [hbytes] at hb
    simp only [List.mem_cons, List.not_mem_nil, or_false] at hb
  · rcases hb with rfl | rfl
    · exact hlead (by omega) (by omega)
    · exact htail _
  · rcases hb with rfl | rfl | rfl
    · exact hlead (by omega) (by omega)
    · exact htail _
    · exact htail _
  · rcases hb with rfl | rfl | rfl | rfl
    · exact hlead (by omega) (by omega)
    · exact htail _
    · exact htail _
    · exact htail _

/-- A text is ASCII when its bytes are. -/
theorem ascii_encode_iff {s : List Char} : (∀ b ∈ encode s, b.toNat < 0x80) ↔ ∀ c ∈ s, c.toNat < 0x80 := by
  constructor
  · intro h c hc
    rcases Nat.lt_or_ge c.toNat 0x80 with hlow | hhigh
    · exact hlow
    · obtain ⟨b, hb⟩ := List.exists_mem_of_ne_nil _ (utf8EncodeChar_ne_nil c)
      have hlow : b.toNat < 0x80 := h b (List.mem_flatMap.2 ⟨c, hc, hb⟩)
      have hbyte := high_of_mem hhigh hb
      omega
  · intro h b hb
    rw [encode_of_ascii h] at hb
    obtain ⟨c, hc, rfl⟩ := List.mem_map.1 hb
    have hlow := h c hc
    rw [UInt8.toNat_ofNat']
    omega

/-- The first byte of a text is its first character, or neither of them is ASCII. -/
theorem encode_cons_cases (c : Char) (s : List Char) :
    (c.toNat < 0x80 ∧ encode (c :: s) = UInt8.ofNat c.toNat :: encode s) ∨
    0x80 ≤ c.toNat ∧ ∃ b rest, encode (c :: s) = b :: rest ∧ 0x80 ≤ b.toNat := by
  rcases Nat.lt_or_ge c.toNat 0x80 with hc | hc
  · exact .inl ⟨hc, encode_cons_of_ascii hc s⟩
  · obtain ⟨b, others, hfirst⟩ := List.exists_cons_of_ne_nil (utf8EncodeChar_ne_nil c)
    refine .inr ⟨hc, b, others ++ encode s, ?_, high_of_mem hc (hfirst ▸ List.mem_cons_self)⟩
    rw [encode_cons, hfirst]
    rfl

/-- A byte of ASCII is a character of its own. -/
theorem encode_eq_cons {s : List Char} {b : UInt8} {rest : Bytes} (h : encode s = b :: rest) (hb : b.toNat < 0x80) :
    ∃ c t, s = c :: t ∧ c.toNat = b.toNat ∧ rest = encode t := by
  cases s with
  | nil => exact nomatch h
  | cons c t =>
    rcases encode_cons_cases c t with ⟨hc, hbytes⟩ | ⟨-, first, others, hbytes, hhigh⟩
    · rw [hbytes] at h
      obtain ⟨rfl, rfl⟩ := List.cons.inj h
      refine ⟨c, t, rfl, ?_, rfl⟩
      rw [UInt8.toNat_ofNat']
      omega
    · rw [hbytes] at h
      obtain ⟨rfl, -⟩ := List.cons.inj h
      omega

theorem length_encode_append_lt {s : List Char} (h : s ≠ []) (t : List Char) :
    (encode t).length < (encode (s ++ t)).length := by
  obtain ⟨c, s, rfl⟩ := List.exists_cons_of_ne_nil h
  have hpos := List.length_pos_iff.2 (utf8EncodeChar_ne_nil c)
  rw [encode_append, encode_cons, List.length_append, List.length_append]
  omega

end Speedtest.Text.Utf8
