import Speedtest.Address.Ip
import Speedtest.Proofs.Address.Spelling

/-!
# Canonical addresses

`CountsAs` says which address a client is known by: an IPv6 address whose first twelve octets mark it as the carrier of
an IPv4 address counts as that one, and every other address as itself. What a client is known by is its canonical
address, and an address is read back from its text.
-/
namespace Speedtest.Address

namespace V6

/-- The octets of the address that carries an IPv4 address. -/
def carrier (quad : V4) : Bytes := List.replicate 10 0 ++ [0xFF, 0xFF] ++ quad.octets

theorem octets_of_mapped? {a : V6} {quad : V4} (h : a.mapped? = some quad) : a.octets = carrier quad := by
  have hlead : ((List.replicate 5 0 ++ [0xFFFF] : List UInt16).flatMap fun g => Bytes.ofNat 2 g.toNat) =
      List.replicate 10 0 ++ [0xFF, 0xFF] := by decide
  have hgroups : a.groups = (List.replicate 5 0 ++ [0xFFFF]) ++ pairs quad.octets := by
    rw [groups_of_mapped? h, List.append_assoc]
    rfl
  have hquad : quad.octets.length = 4 := rfl
  rw [octets, hgroups, List.flatMap_append, hlead, octets_of_pairs quad.octets (by rw [hquad]), carrier]

theorem mapped?_eq_some_iff {a : V6} {quad : V4} : a.mapped? = some quad ↔ a.octets = carrier quad := by
  refine ⟨octets_of_mapped?, fun h => ?_⟩
  -- The groups are read off the octets, so what is carried can be seen, and it has the octets of no other address.
  have hgroups : a.groups = pairs (carrier quad) := by rw [← h, octets, pairs_octets]
  cases hmapped : a.mapped? with
  | none =>
    rw [mapped?, hgroups] at hmapped
    cases hmapped
  | some other =>
    have hsame : carrier other = carrier quad := (octets_of_mapped? hmapped).symm.trans h
    have hnumber : other.toNat = quad.toNat := congrArg Bytes.toNat (List.append_cancel_left hsame)
    rw [V4.toNat_inj hnumber]

/-- The text of an IPv6 address is that of no IPv4 address. -/
theorem not_v4_text (a : V6) : V4.ofText? a.text = none := by
  have hread : V4.read? a.text = none := by
    unfold text
    split
    · exact V4.read?_of_stops (Text.stops_cons (by decide) _)
    · apply V4.read?_of_no_dot
      rcases groupsText_cases a.groups with h | ⟨before, zeros, after, -, -, h⟩
      · rw [h]
        exact no_dot_joined _
      · rw [h]
        simp [no_dot_joined]
  rw [V4.ofText?, hread]

end V6

namespace Ip

/-- The address that a client is known by. -/
inductive CountsAs : Ip → Ip → Prop where
  | v4 (a : V4) : CountsAs (.v4 a) (.v4 a)
  | carried {a : V6} {quad : V4} (h : a.octets = V6.carrier quad) : CountsAs (.v6 a) (.v4 quad)
  | v6 {a : V6} (h : ∀ quad, a.octets ≠ V6.carrier quad) : CountsAs (.v6 a) (.v6 a)

/-- The canonical form is the one address that an address counts as. -/
theorem countsAs_iff {a c : Ip} : CountsAs a c ↔ a.canonical = c := by
  constructor
  · intro h
    cases h with
    | v4 a => rfl
    | carried h => rw [canonical, V6.mapped?_eq_some_iff.2 h]
    | @v6 a h =>
      have hnone : a.mapped? = none :=
        Option.eq_none_iff_forall_ne_some.2 fun quad hquad => h quad (V6.mapped?_eq_some_iff.1 hquad)
      rw [canonical, hnone]
  · rintro rfl
    cases a with
    | v4 a => exact .v4 a
    | v6 a =>
      cases hmapped : a.mapped? with
      | none =>
        rw [canonical, hmapped]
        refine .v6 fun quad h => ?_
        exact absurd ((V6.mapped?_eq_some_iff.2 h).symm.trans hmapped) (Option.some_ne_none _)
      | some quad =>
        rw [canonical, hmapped]
        exact .carried (V6.mapped?_eq_some_iff.1 hmapped)

/-- Nothing counts as an address that carries another. -/
theorem CountsAs.not_carrier {a c : Ip} (h : CountsAs a c) {b : V6} (hc : c = .v6 b) (quad : V4) :
    b.octets ≠ V6.carrier quad := by
  cases h with
  | v4 a => exact nomatch hc
  | carried h => exact nomatch hc
  | v6 h =>
    obtain rfl := Ip.v6.inj hc
    exact h quad

/-- An address is read back from its text. -/
theorem ofText?_text (a : Ip) : ofText? a.text = some a := by
  cases a with
  | v4 a => rw [text, ofText?, V4.ofText?_text]
  | v6 a => rw [text, ofText?, V6.not_v4_text, V6.ofText?_text, Option.map_some]

end Ip
end Speedtest.Address
