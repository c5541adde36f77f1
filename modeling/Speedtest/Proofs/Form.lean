import Speedtest.Form
import Speedtest.Proofs.Text.Scan
import Speedtest.Proofs.Text.Utf8

/-!
# Forms as they are written and read

A written form leaves some choice: most bytes may stand for themselves or be escaped, and a space may be a plus sign.
Whatever the choice, the pairs are read back from it, in their order and with their repetitions. What the writer
makes of pairs is one of the choices.
-/
namespace Speedtest

namespace Text.Percent

theorem decodeFrom_of_ne {c : UInt8} (h : c ≠ 0x25) (done s : Bytes) :
    decodeFrom done (c :: s) = decodeFrom (c :: done) s := by
  rw [decodeFrom]
  intro a b rest hc
  exact absurd hc h

theorem decodeFrom_escape {b x y : UInt8} (hx : digit? x = some (b.toNat / 16)) (hy : digit? y = some (b.toNat % 16))
    (done s : Bytes) : decodeFrom done (0x25 :: x :: y :: s) = decodeFrom (b :: done) s := by
  have hb : UInt8.ofNat (b.toNat / 16 * 16 + b.toNat % 16) = b := by
    rw [Nat.div_add_mod', UInt8.ofNat_toNat]
  rw [decodeFrom, hx, hy]
  dsimp only
  rw [hb]

end Text.Percent

namespace Form

open Text.Percent (digit? decodeFrom)

/-! ## Written forms -/

/-- The ways of writing a byte of a name or a value. A byte that means something else stands for itself nowhere. -/
inductive WritesByte : UInt8 → Bytes → Prop where
  | plain {b : UInt8} (h : b ∉ Bytes.ofAscii "%&+=") : WritesByte b [b]
  | space : WritesByte 0x20 [0x2B]
  | escape {b x y : UInt8} (hx : digit? x = some (b.toNat / 16)) (hy : digit? y = some (b.toNat % 16)) :
    WritesByte b [0x25, x, y]

/-- The ways of writing the bytes of a name or a value. -/
inductive WritesBytes : Bytes → Bytes → Prop where
  | nil : WritesBytes [] []
  | cons {b : UInt8} {s w rest : Bytes} (h : WritesByte b w) (hrest : WritesBytes s rest) :
    WritesBytes (b :: s) (w ++ rest)

/-- The ways of writing a pair. -/
def WritesPair (p : String × String) (w : Bytes) : Prop :=
  ∃ name value, WritesBytes (Text.Utf8.encode p.1.toList) name ∧ WritesBytes (Text.Utf8.encode p.2.toList) value ∧
    w = name ++ 0x3D :: value

/-- The ways of writing pairs, with ampersands between them. -/
inductive Writes : Pairs → Bytes → Prop where
  | nil : Writes [] []
  | one {p : String × String} {w : Bytes} (h : WritesPair p w) : Writes [p] w
  | cons {p q : String × String} {pairs : Pairs} {w rest : Bytes} (h : WritesPair p w)
    (hrest : Writes (q :: pairs) rest) : Writes (p :: q :: pairs) (w ++ 0x26 :: rest)

/-! ## Reading -/

/-- Neither ampersands nor equals signs come out of a name or a value. -/
theorem WritesByte.not_mem {b : UInt8} {w : Bytes} (h : WritesByte b w) : 0x26 ∉ w ∧ 0x3D ∉ w := by
  have hne {x : UInt8} {n : Nat} (hx : digit? x = some n) : (0x26 : UInt8) ≠ x ∧ (0x3D : UInt8) ≠ x := by
    constructor
    · rintro rfl
      exact nomatch hx
    · rintro rfl
      exact nomatch hx
  cases h with
  | plain h =>
    constructor
    · intro hb
      obtain rfl := List.mem_singleton.1 hb
      exact h (by decide)
    · intro hb
      obtain rfl := List.mem_singleton.1 hb
      exact h (by decide)
  | space => exact ⟨by decide, by decide⟩
  | escape hx hy => simp [hne hx, hne hy]

theorem WritesBytes.not_mem {s w : Bytes} (h : WritesBytes s w) : 0x26 ∉ w ∧ 0x3D ∉ w := by
  induction h with
  | nil => exact ⟨List.not_mem_nil, List.not_mem_nil⟩
  | cons h _ ih =>
    obtain ⟨hamp, hequals⟩ := h.not_mem
    constructor
    · intro hmem
      exact (List.mem_append.1 hmem).elim hamp ih.1
    · intro hmem
      exact (List.mem_append.1 hmem).elim hequals ih.2

/-- Once plus signs are spaces, decoding gives back the bytes that were written. -/
theorem decodeFrom_writesBytes {s w : Bytes} (h : WritesBytes s w) (done : Bytes) :
    decodeFrom done (w.map fun b => if b == 0x2B then 0x20 else b) = done.reverse ++ s := by
  induction h generalizing done with
  | nil => rw [List.append_nil]; rfl
  | @cons b s w rest hbyte _ ih =>
    have hstep : decodeFrom done ((w ++ rest).map fun b => if b == 0x2B then 0x20 else b) =
        decodeFrom (b :: done) (rest.map fun b => if b == 0x2B then 0x20 else b) := by
      rw [List.map_append]
      cases hbyte with
      | plain hb =>
        have hplus : (b == 0x2B) = false := by
          rw [beq_eq_false_iff_ne]
          rintro rfl
          exact hb (by decide)
        have hpercent : b ≠ 0x25 := by
          rintro rfl
          exact hb (by decide)
        simp only [List.map_cons, List.map_nil, hplus, Bool.false_eq_true, if_false]
        exact Text.Percent.decodeFrom_of_ne hpercent done _
      | space => exact Text.Percent.decodeFrom_of_ne (by decide) done _
      | @escape _ x y hx hy =>
        have hplus {x : UInt8} {n : Nat} (hx : digit? x = some n) : (x == 0x2B) = false := by
          rw [beq_eq_false_iff_ne]
          rintro rfl
          exact nomatch hx
        simp only [List.map_cons, List.map_nil, hplus hx, hplus hy, Bool.false_eq_true, if_false]
        exact Text.Percent.decodeFrom_escape hx hy done _
    rw [hstep, ih, List.reverse_cons, List.append_assoc]
    rfl

theorem decodePart_of_writes {s : String} {w : Bytes} (h : WritesBytes (Text.Utf8.encode s.toList) w) :
    decodePart w = s := by
  have hdecode := decodeFrom_writesBytes h []
  rw [List.reverse_nil, List.nil_append] at hdecode
  rw [decodePart, Text.Percent.decode, hdecode, Text.Utf8.decodeLenient_encode, String.ofList_toList]

theorem WritesPair.not_mem {p : String × String} {w : Bytes} (h : WritesPair p w) : 0x26 ∉ w := by
  obtain ⟨name, value, hname, hvalue, rfl⟩ := h
  intro hmem
  rcases List.mem_append.1 hmem with hmem | hmem
  · exact hname.not_mem.1 hmem
  · rcases List.mem_cons.1 hmem with hmem | hmem
    · exact absurd hmem (by decide)
    · exact hvalue.not_mem.1 hmem

theorem WritesPair.isEmpty {p : String × String} {w : Bytes} (h : WritesPair p w) : w.isEmpty = false := by
  obtain ⟨name, value, -, -, rfl⟩ := h
  simp

theorem readPair_of_writes {p : String × String} {w : Bytes} (h : WritesPair p w) : readPair w = p := by
  obtain ⟨name, value, hname, hvalue, rfl⟩ := h
  have hcut : Text.cutAt? (· == 0x3D) (name ++ 0x3D :: value) = some (name, value) :=
    Text.cutAt?_append (Text.not_mem_iff_beq.1 hname.not_mem.2) rfl
  rw [readPair, hcut]
  dsimp only
  rw [decodePart_of_writes hname, decodePart_of_writes hvalue]

theorem splitOn_of_not_mem {w : Bytes} (h : 0x26 ∉ w) : w.splitOn 0x26 = [w] := by
  have hpieces : ∀ piece ∈ [w], 0x26 ∉ piece := by
    intro piece hpiece
    rwa [List.mem_singleton.1 hpiece]
  have hsplit := List.splitOn_intercalate (0x26 : UInt8) hpieces (List.cons_ne_nil w [])
  rwa [List.intercalate_singleton] at hsplit

/-- Pairs are read back from every way of writing them. -/
theorem read_of_writes {pairs : Pairs} {w : Bytes} (h : Writes pairs w) : read w = pairs := by
  unfold read
  induction h with
  | nil => rfl
  | one h =>
    rw [splitOn_of_not_mem h.not_mem]
    simp [h.isEmpty, readPair_of_writes h]
  | cons h _ ih =>
    rw [List.splitOn_append_cons_self, splitOn_of_not_mem h.not_mem, List.filter_append, List.map_append, ih]
    simp [h.isEmpty, readPair_of_writes h]

/-! ## Writing -/

/-- The bytes of written characters, which are ASCII. -/
abbrev bytes (s : List Char) : Bytes := s.map fun c => UInt8.ofNat c.toNat

theorem toNat_ofNat_of_byte (b : UInt8) : UInt8.ofNat (Char.ofNat b.toNat).toNat = b := by
  have hlt := b.toNat_lt
  have hvalid : b.toNat.isValidChar := .inl (by omega)
  rw [Char.ofNat, dif_pos hvalid]
  exact UInt8.ofNat_toNat

theorem writesByte_plain {b : UInt8} (h : isPlain b = true) : WritesByte b (bytes [Char.ofNat b.toNat]) := by
  rw [bytes, List.map_singleton, toNat_ofNat_of_byte]
  refine .plain fun hmem => ?_
  have hnone : (Bytes.ofAscii "%&+=").all (fun c => !isPlain c) = true := by decide
  have hb := List.all_eq_true.1 hnone b hmem
  rw [h] at hb
  exact nomatch hb

theorem writesByte_escaped (b : UInt8) : WritesByte b (bytes (Text.Percent.escaped b)) := by
  have hdigit : ∀ d < 16, digit? (UInt8.ofNat (Text.hexDigitUpper d).toNat) = some d := by decide
  have hlt := b.toNat_lt
  exact .escape (hdigit _ (by omega)) (hdigit _ (by omega))

/-- The writer writes every byte in one of the ways that the reader knows. -/
theorem writesBytes_encode (s : Bytes) :
    WritesBytes s (bytes (s.flatMap fun b =>
      if b == 0x20 then ['+'] else if isPlain b then [Char.ofNat b.toNat] else Text.Percent.escaped b)) := by
  induction s with
  | nil => exact .nil
  | cons b s ih =>
    rw [List.flatMap_cons, bytes, List.map_append]
    refine .cons ?_ ih
    by_cases hspace : b = 0x20
    · subst hspace
      exact .space
    · rw [if_neg (by simpa using hspace)]
      by_cases hplain : isPlain b = true
      · rw [if_pos hplain]
        exact writesByte_plain hplain
      · rw [if_neg hplain]
        exact writesByte_escaped b

theorem writesPair_writePair (p : String × String) : WritesPair p (bytes (writePair p)) :=
  ⟨bytes (encodePart p.1), bytes (encodePart p.2), writesBytes_encode _, writesBytes_encode _, by
    rw [writePair, bytes, List.map_append, List.map_cons]
    rfl⟩

/-- What the writer makes of pairs is a way of writing them. -/
theorem writes_write (pairs : Pairs) : Writes pairs (bytes (write pairs)) := by
  induction pairs with
  | nil => exact .nil
  | cons p pairs ih =>
    cases pairs with
    | nil => exact .one (writesPair_writePair p)
    | cons q pairs =>
      have hcons : bytes (write (p :: q :: pairs)) = bytes (writePair p) ++ 0x26 :: bytes (write (q :: pairs)) := by
        rw [write, bytes, List.map_append, List.map_cons]
        · rfl
        · exact List.cons_ne_nil q pairs
      rw [hcons]
      exact .cons (writesPair_writePair p) ih

end Form

end Speedtest
