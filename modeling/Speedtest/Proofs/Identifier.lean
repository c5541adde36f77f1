import Speedtest.Identifier
import Speedtest.Proofs.Text.Numeral
import Speedtest.Proofs.Text.Utf8

/-!
# How long identifiers are

An identifier is written with two digits for each byte and a hyphen behind each group, all of them ASCII. So every
identifier that was drawn takes the same number of bytes.
-/
namespace Speedtest.Identifier

theorem length_pair (b : UInt8) : (pair b).length = 2 := by
  have hdigits : (Text.hexadecimal b.toNat).length ≤ 2 := Text.length_hexadecimal_le (by decide) b.toNat_lt
  rw [pair, Text.padded, List.length_append, List.length_replicate]
  omega

theorem length_pairs (b : Bytes) : (b.flatMap pair).length = 2 * b.length := by
  induction b with
  | nil => rfl
  | cons x b ih =>
    rw [List.flatMap_cons, List.length_append, length_pair, ih, List.length_cons]
    omega

theorem length_grouped (groups : List Nat) (b : Bytes) :
    (grouped groups b).length = 2 * b.length + groups.length := by
  induction groups generalizing b with
  | nil => exact length_pairs b
  | cons n groups ih =>
    have hsplit : (b.take n).length + (b.drop n).length = b.length := by
      rw [← List.length_append, List.take_append_drop]
    rw [grouped, List.length_append, List.length_cons, length_pairs, ih, List.length_cons]
    omega

theorem ascii_of_mem_pairs {b : Bytes} {c : Char} (h : c ∈ b.flatMap pair) : c.toNat < 0x80 := by
  obtain ⟨x, -, hc⟩ := List.mem_flatMap.1 h
  rw [pair, Text.padded, List.mem_append] at hc
  rcases hc with hc | hc
  · rw [List.eq_of_mem_replicate hc]
    decide
  · exact Nat.lt_succ_of_lt (Text.isGraphic_of_mem_hexadecimal hc).2

theorem ascii_of_mem_grouped {groups : List Nat} {b : Bytes} {c : Char} (h : c ∈ grouped groups b) :
    c.toNat < 0x80 := by
  induction groups generalizing b with
  | nil => exact ascii_of_mem_pairs h
  | cons n groups ih =>
    rw [grouped, List.mem_append, List.mem_cons] at h
    rcases h with h | rfl | h
    · exact ascii_of_mem_pairs h
    · decide
    · exact ih h

/-- An identifier that was drawn. -/
def IsDrawn (id : String) : Prop := ∃ drawn : Bytes, drawn.length = 16 ∧ id = text (ofDrawn drawn)

/-- Every identifier that was drawn has as many bytes. -/
theorem IsDrawn.length_encode {id : String} (h : IsDrawn id) : (Text.Utf8.encode id.toList).length = 36 := by
  obtain ⟨drawn, hlength, rfl⟩ := h
  have hbytes : (ofDrawn drawn).length = 16 := by rw [ofDrawn, List.length_mapIdx, hlength]
  rw [text, String.toList_ofList, Text.Utf8.encode_of_ascii fun _ hc => ascii_of_mem_grouped hc, List.length_map,
    length_grouped, hbytes]
  rfl

end Speedtest.Identifier
