import Speedtest.Access.Gate
import Speedtest.Proofs.Form
import Speedtest.Proofs.Http.ClientNaming

/-!
# Who gets past the gate

Comparing two byte strings without stopping at a difference comes to equality. So the gate of a password lets those pass
who present exactly the password, in the first `Authorization` field as a bearer's token of visible ASCII or as a
parameter, and while no password is set nobody passes.
-/
namespace Speedtest

/-! ## Visible values -/

namespace Http.Headers

theorem isVisible_iff {b : UInt8} : isVisible b = true ↔ 0x20 ≤ b.toNat ∧ b.toNat < 0x7F ∨ b.toNat = 0x09 := by
  simp only [isVisible, Bool.or_eq_true, Bool.and_eq_true, decide_eq_true_eq, beq_iff_eq, UInt8.le_iff_toNat_le,
    UInt8.lt_iff_toNat_lt, ← UInt8.toNat_inj]
  rfl

/-- A value that is a text has the bytes of the text. -/
theorem visible?_eq_some_iff_encode {value : Bytes} {t : String} :
    visible? value = some t ↔ (∀ b ∈ value, isVisible b = true) ∧ value = Text.Utf8.encode t.toList := by
  rw [ClientAddress.visible?_eq_some_iff]
  refine and_congr_right fun hvisible => ?_
  have hencode : Text.Utf8.encode (value.map fun b => Char.ofNat b.toNat) = value := by
    have hascii : ∀ c ∈ value.map fun b => Char.ofNat b.toNat, c.toNat < 0x80 := by
      intro c hc
      obtain ⟨b, hb, rfl⟩ := List.mem_map.1 hc
      have hbounds := isVisible_iff.1 (hvisible b hb)
      rw [Text.Utf8.toNat_charOfNat (.inl (by omega))]
      omega
    rw [Text.Utf8.encode_of_ascii hascii, List.map_map]
    exact List.map_id'' Form.toNat_ofNat_of_byte value
  constructor
  · intro h
    rw [h, hencode]
  · intro h
    apply Text.Utf8.encode_inj
    rw [hencode, ← h]

end Http.Headers

namespace Access

/-! ## Comparing -/

/-- Bits that differ stay gathered, so none is left only where every byte is the same. -/
theorem foldl_difference_eq_zero_iff {a b : Bytes} (h : a.length = b.length) (acc : UInt8) :
    (a.zip b).foldl (fun acc (x, y) => acc ||| (x ^^^ y)) acc = 0 ↔ acc = 0 ∧ a = b := by
  induction a generalizing b acc with
  | nil =>
    obtain rfl := List.eq_nil_of_length_eq_zero h.symm
    simp
  | cons x a ih =>
    cases b with
    | nil => exact nomatch h
    | cons y b =>
      rw [List.zip_cons_cons, List.foldl_cons, ih (by simpa using h), UInt8.or_eq_zero_iff, UInt8.xor_eq_zero_iff,
        and_assoc, List.cons.injEq]

theorem sameBytes_iff {a b : Bytes} : sameBytes a b = true ↔ a = b := by
  rw [sameBytes, Bool.and_eq_true, beq_iff_eq, beq_iff_eq]
  constructor
  · rintro ⟨hlength, hdifference⟩
    exact ((foldl_difference_eq_zero_iff hlength 0).1 hdifference).2
  · rintro rfl
    exact ⟨rfl, (foldl_difference_eq_zero_iff rfl 0).2 ⟨rfl, rfl⟩⟩

namespace PasswordGate

theorem matches?_iff {g : PasswordGate} {candidate : String} :
    g.matches? candidate = true ↔ candidate = g.password := by
  rw [matches?, sameBytes_iff]
  constructor
  · intro h
    exact (String.toList_inj.1 (Text.Utf8.encode_inj h)).symm
  · rintro rfl
    rfl

theorem isConfigured_iff {g : PasswordGate} :
    g.isConfigured = true ↔ g.password ≠ "" ∧ g.password ≠ placeholderPassword := by
  rw [isConfigured, Bool.and_eq_true, bne_iff_ne, bne_iff_ne]

/-! ## Presenting -/

/-- The first `Authorization` field is visible ASCII and bears a token. -/
def Bears (h : Http.Headers) (token : String) : Prop :=
  ∃ value, h.first? "authorization" = some value ∧ (∀ b ∈ value, Http.Headers.isVisible b = true) ∧
    value = Text.Utf8.encode ("Bearer " ++ token).toList

/-- A token is read exactly where the header bears it. -/
theorem bearer?_eq_some_iff {h : Http.Headers} {token : String} : bearer? h = some token ↔ Bears h token := by
  have hlead (value : String) : (Text.dropLead? "Bearer ".toList value.toList).map String.ofList = some token ↔
      value = "Bearer " ++ token := by
    rw [Option.map_eq_some_iff]
    simp only [Text.dropLead?_eq_some_iff]
    constructor
    · rintro ⟨rest, hvalue, rfl⟩
      have hrest : (String.ofList rest).toList = rest := String.toList_ofList
      apply String.toList_inj.1
      rw [hvalue, String.toList_append, hrest]
    · rintro rfl
      exact ⟨token.toList, String.toList_append, String.ofList_toList⟩
  rw [bearer?, Option.bind_eq_some_iff]
  simp only [hlead, exists_eq_right, Http.Headers.text?, Option.bind_eq_some_iff,
    Http.Headers.visible?_eq_some_iff_encode]
  rfl

theorem authorize_cases {g : PasswordGate} {h : Http.Headers} {params : Form.Pairs} :
    g.authorize h params = true ↔
      g.isConfigured = true ∧ (Bears h g.password ∨ params.lookup "password" = some g.password) := by
  rw [authorize, Bool.and_eq_true, Bool.or_eq_true, Option.any_eq_true, Option.any_eq_true]
  simp only [matches?_iff, exists_eq_right, bearer?_eq_some_iff]

/-- Whoever presents exactly the password that is set gets past the gate, and nobody else does. -/
theorem authorize_iff (g : PasswordGate) (h : Http.Headers) (params : Form.Pairs) :
    (g.authorize h params = true ↔
      (g.password ≠ "" ∧ g.password ≠ "PASSWORD") ∧
        (Bears h g.password ∨ params.lookup "password" = some g.password)) ∧
    (∀ candidate, g.matches? candidate = true ↔ candidate = g.password) ∧
    ∀ a b : Bytes, sameBytes a b = true ↔ a = b := by
  refine ⟨?_, fun candidate => ?_, fun a b => ?_⟩
  · rw [authorize_cases, isConfigured_iff]
    rfl
  · exact matches?_iff
  · exact sameBytes_iff

end PasswordGate
end Access
end Speedtest
