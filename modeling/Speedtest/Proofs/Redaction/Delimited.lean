import Speedtest.Proofs.Redaction.Patterns

/-!
# Addresses that stand apart

An address with nothing on either side that an address or a word could go on with is taken out of a text as a whole.
What stands in front of it and what stands behind it are scrubbed as if the text ended there.
-/
namespace Speedtest.Redaction

open Address (V4 V6)

/-- A character that goes on with an address or with a word; every other one delimits. -/
def joinsAddress (c : Char) : Bool := Text.isWord c || c == '.' || c == ':'

/-- An address that is written with numbers between dots, or with groups of which there is at least one. -/
def IsLiteral : Address.Ip → Prop
  | .v4 _ => True
  | .v6 b => '.' ∉ b.text ∧ b.text ≠ "::".toList

/-! ## The passes -/

theorem isWord_of_isHexDigit {c : Char} (h : Text.isHexDigit c = true) : Text.isWord c = true := by
  have hword : ∀ n < 128, Text.isHexDigit (Char.ofNat n) = true → Text.isWord (Char.ofNat n) = true := by decide +kernel
  have hlt : c.toNat < 128 := Nat.lt_succ_of_lt (Text.isGraphic_of_isHexDigit h).2
  have hc : Char.ofNat c.toNat = c := Char.ofNat_toNat c
  exact hc ▸ hword c.toNat hlt (hc.symm ▸ h)

theorem v4_local_joinsAddress : Text.Local v4 joinsAddress :=
  v4_local.mono fun _ h => Bool.or_eq_true_iff.2 (.inl h)

theorem v6_local_joinsAddress : Text.Local v6 joinsAddress := by
  refine v6_local.mono fun c h => ?_
  rw [isColoned, Bool.or_eq_true] at h
  rw [joinsAddress, Bool.or_eq_true, Bool.or_eq_true]
  exact h.imp_left fun hhex => .inl (isWord_of_isHexDigit hhex)

/-- Without the key of a host name only the two passes for addresses change a text. -/
theorem scrub_of_no_key {s : List Char} (h : ¬ hostnameKey <:+: s) :
    scrub s = Text.replaceAll v6 placeholder.toList (Text.replaceAll v4 placeholder.toList s) := by
  have hhostname : Text.replaceAll hostname hiddenHostname.toList s = s :=
    Text.replaceAll_eq_self fun _ rest hrest => hostname_of_not_lead fun hlead =>
      h (hlead.isInfix.trans hrest.isInfix)
  rw [scrub, hhostname]

theorem replaceAll_v4_of_no_dot {s : List Char} (h : '.' ∉ s) (new : List Char) : Text.replaceAll v4 new s = s := by
  refine Text.replaceAll_eq_self fun before rest hrest => ?_
  cases hv4 : v4 before rest with
  | none => rfl
  | some n =>
    obtain ⟨found, after, rfl, -, -, hdots, -⟩ := v4_eq_some hv4
    have hdot : '.' ∈ found := List.count_pos_iff.1 (by omega)
    exact absurd (hrest.mem (List.mem_append_left after hdot)) h

theorem replaceAll_v6_of_no_colon {s : List Char} (h : ':' ∉ s) (new : List Char) : Text.replaceAll v6 new s = s :=
  Text.replaceAll_eq_self fun _ _ hrest => v6_of_no_colon fun hcolon => h (hrest.mem hcolon)

/-- An address alone gives way as a whole. -/
theorem replaceAll_literal {a : Address.Ip} (ha : IsLiteral a) :
    Text.replaceAll v6 placeholder.toList (Text.replaceAll v4 placeholder.toList a.text) = placeholder.toList := by
  cases a with
  | v4 a =>
    have hne : a.text ≠ [] := by simp [V4.text_eq]
    have hmatch := v4_text a none (Text.stops_nil Text.isDigit)
    rw [List.append_nil, if_neg (by decide)] at hmatch
    rw [Address.Ip.text, Text.replaceAll_eq_new hne hmatch]
    exact replaceAll_v6_of_no_colon (by decide) _
  | v6 b =>
    obtain ⟨hdot, hzeros⟩ := ha
    have hmatch := v6_text hdot hzeros none
    have hne : b.text ≠ [] := by
      intro hnil
      rw [hnil] at hmatch
      cases hmatch
    rw [Address.Ip.text, replaceAll_v4_of_no_dot hdot, Text.replaceAll_eq_new hne hmatch]

/-! ## Between delimiters -/

/-- An address between delimiters, or at an end of the text, gives way as a whole, and the text on either side of it is
scrubbed as if it stood alone, unless a host name may be in it. -/
theorem scrub_delimited {a : Address.Ip} (ha : IsLiteral a) {front back : List Char}
    (hfront : Text.Stops joinsAddress front.reverse) (hback : Text.Stops joinsAddress back)
    (hkey : ¬ hostnameKey <:+: front ++ a.text ++ back) :
    scrub (front ++ a.text ++ back) = scrub front ++ "0.0.0.0".toList ++ scrub back := by
  have hkeyFront : ¬ hostnameKey <:+: front := fun h =>
    hkey (h.trans ((List.prefix_append front a.text).trans (List.prefix_append _ back)).isInfix)
  have hkeyBack : ¬ hostnameKey <:+: back := fun h => hkey (h.trans (List.suffix_append _ back).isInfix)
  -- The pass for IPv4 keeps the delimiters, so that the pass for IPv6 meets them again.
  rw [scrub_of_no_key hkey, scrub_of_no_key hkeyFront, scrub_of_no_key hkeyBack,
    Text.replaceAll_between v4_local_joinsAddress hfront hback,
    Text.replaceAll_between v6_local_joinsAddress (Text.stops_reverse_replaceAll v4_local_joinsAddress hfront)
      (Text.stops_replaceAll v4_local_joinsAddress hback),
    replaceAll_literal ha]
  rfl

/-- The address `2001:db8::42`. -/
def documented : V6 := ⟨[0x2001, 0xDB8, 0, 0, 0, 0, 0, 0x42], rfl⟩

/-- The address of a provider's document is replaced, and what surrounds it is scrubbed alone. -/
theorem scrub_delimited_documented :
    scrub "\x7b\"ip\":\"2001:db8::42\",\"city\":\"Turin\"\x7d".toList =
      scrub "\x7b\"ip\":\"".toList ++ "0.0.0.0".toList ++ scrub "\",\"city\":\"Turin\"\x7d".toList := by
  have hliteral : IsLiteral (.v6 documented) := ⟨by decide +kernel, by decide +kernel⟩
  have hkey : ¬ hostnameKey <:+:
      "\x7b\"ip\":\"".toList ++ (Address.Ip.v6 documented).text ++ "\",\"city\":\"Turin\"\x7d".toList := by
    decide +kernel
  have htext : "\x7b\"ip\":\"2001:db8::42\",\"city\":\"Turin\"\x7d".toList =
      "\x7b\"ip\":\"".toList ++ (Address.Ip.v6 documented).text ++ "\",\"city\":\"Turin\"\x7d".toList := by
    decide +kernel
  rw [htext]
  exact scrub_delimited hliteral (Text.stops_cons (by decide) _) (Text.stops_cons (by decide) _) hkey

end Speedtest.Redaction
