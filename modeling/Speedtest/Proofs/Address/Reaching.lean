import Speedtest.Address.Reach
import Speedtest.Proofs.Address.Canonical

/-!
# The reach of an address by its number

The rules on texts give an IPv4 address the reach that its first two octets have, whether the text stands alone or
behind the lead of an address that carries it. For an IPv6 address that carries none they give the reach of its first
group, unless its zeros are compressed in front of a group that makes the text start as if it carried one:
`LooksCarried` says which addresses these are.
-/
namespace Speedtest.Address

/-! ## IPv4 -/

namespace V4

def IsLoopback (a : V4) : Prop := a.o1 = 127

def IsPrivate (a : V4) : Prop :=
  a.o1 = 10 ∨ (a.o1 = 172 ∧ 16 ≤ a.o2 ∧ a.o2 ≤ 31) ∨ (a.o1 = 192 ∧ a.o2 = 168)

def IsLinkLocal (a : V4) : Prop := a.o1 = 169 ∧ a.o2 = 254

def IsCarrier (a : V4) : Prop :=
  a.o1 = 100 ∧ ((60 ≤ a.o2 ∧ a.o2 ≤ 107) ∨ (110 ≤ a.o2 ∧ a.o2 ≤ 117) ∨ (120 ≤ a.o2 ∧ a.o2 ≤ 127))

def Within (a : V4) : Reach → Prop
  | .loopback .v4 => a.IsLoopback
  | .privateV4 => a.IsPrivate
  | .linkLocalV4 => a.IsLinkLocal
  | .carrier => a.IsCarrier
  | .everywhere => ¬ a.IsLoopback ∧ ¬ a.IsPrivate ∧ ¬ a.IsLinkLocal ∧ ¬ a.IsCarrier
  | .loopback .v6 | .linkLocalV6 => False

/-- The kinds of addresses do not overlap, as their first octets differ. -/
theorem Within.unique {a : V4} {r r' : Reach} (h : a.Within r) (h' : a.Within r') : r = r' := by
  rcases r with ⟨_ | _⟩ | _ | _ | _ | _ | _ <;> rcases r' with ⟨_ | _⟩ | _ | _ | _ | _ | _ <;>
    grind [Within, IsLoopback, IsPrivate, IsLinkLocal, IsCarrier]

/-! ### Octets in front of a text -/

theorem isAsciiDigit_of_mem_octetText {o : UInt8} {c : Char} (h : c ∈ octetText o) : Text.isAsciiDigit c = true :=
  Text.isAsciiDigit_of_mem_decimal h

theorem octetText_inj {o o' : UInt8} : octetText o = octetText o' ↔ o = o' := by
  refine ⟨fun h => ?_, fun h => h ▸ rfl⟩
  have hread := Text.readDigits?_decimal o.toNat
  rw [← octetText, h, octetText, Text.readDigits?_decimal] at hread
  exact UInt8.toNat_inj.1 (Option.some.inj hread).symm

/-- An octet and the dot behind it are taken off the front where that octet stands. -/
theorem dropLead?_octet (o o' : UInt8) (lead rest : List Char) :
    Text.dropLead? (octetText o ++ '.' :: lead) (octetText o' ++ '.' :: rest) =
      if o = o' then Text.dropLead? lead rest else none := by
  rw [Text.dropLead?_run (fun _ => isAsciiDigit_of_mem_octetText) (fun _ => isAsciiDigit_of_mem_octetText) (by decide)
    (stops_dot rest)]
  have hdot : Text.dropLead? ('.' :: lead) ('.' :: rest) = Text.dropLead? lead rest :=
    Text.dropLead?_append_append ['.'] lead rest
  simp only [octetText_inj, hdot]

theorem text_eq (a : V4) :
    a.text = octetText a.o1 ++ '.' :: (octetText a.o2 ++ '.' :: (octetText a.o3 ++ '.' :: octetText a.o4)) := by
  simp [text]

theorem startsWith_first (a : V4) (o : UInt8) : Text.startsWith (octetText o ++ ['.']) a.text = decide (o = a.o1) := by
  rw [Text.startsWith, text_eq, dropLead?_octet]
  by_cases h : o = a.o1 <;> simp [h, Text.dropLead?]

theorem startsWith_second (a : V4) (o o' : UInt8) :
    Text.startsWith (octetText o ++ '.' :: (octetText o' ++ ['.'])) a.text = decide (o = a.o1 ∧ o' = a.o2) := by
  rw [Text.startsWith, text_eq, dropLead?_octet, dropLead?_octet]
  by_cases h : o = a.o1 <;> by_cases h' : o' = a.o2 <;> simp [h, h', Text.dropLead?]

/-- An octet is written with one, two or three digits, of which the first is no zero unless it is the only one. -/
theorem octetText_cases (o : UInt8) :
    (o.toNat < 10 ∧ octetText o = [o.toNat.digitChar]) ∨
    (10 ≤ o.toNat ∧ o.toNat < 100 ∧ octetText o = [(o.toNat / 10).digitChar, (o.toNat % 10).digitChar]) ∨
    (100 ≤ o.toNat ∧ octetText o =
      [(o.toNat / 10 / 10).digitChar, (o.toNat / 10 % 10).digitChar, (o.toNat % 10).digitChar]) := by
  have ho : o.toNat < 256 := o.toNat_lt
  unfold octetText Text.decimal
  by_cases h1 : o.toNat < 10
  · exact .inl ⟨h1, by rw [Nat.toDigits_of_lt_base h1]⟩
  by_cases h2 : o.toNat < 100
  · refine .inr (.inl ⟨by omega, h2, ?_⟩)
    rw [Nat.toDigits_eq_if (by decide), if_neg h1, Nat.toDigits_of_lt_base (by omega)]
    rfl
  · refine .inr (.inr ⟨by omega, ?_⟩)
    rw [Nat.toDigits_eq_if (by decide), if_neg h1, Nat.toDigits_eq_if (by decide), if_neg (by omega),
      Nat.toDigits_of_lt_base (by omega)]
    rfl

/-! ### Second octets -/

/-- The numbers of the second octets of private addresses, as they are written. -/
theorem private_digits : ∀ d < 10, ∀ e < 10,
    ((Nat.digitChar d == '1' && '6' ≤ Nat.digitChar e && Nat.digitChar e ≤ '9') ||
      (Nat.digitChar d == '2' && Text.isDigit (Nat.digitChar e)) ||
      (Nat.digitChar d == '3' && (Nat.digitChar e == '0' || Nat.digitChar e == '1'))) =
      decide (16 ≤ 10 * d + e ∧ 10 * d + e ≤ 31) := by
  decide

/-- The rule on characters for the second octet agrees with its value. -/
theorem isPrivate172_octet (o : UInt8) (rest : List Char) :
    isPrivate172 ("172.".toList ++ (octetText o ++ '.' :: rest)) = decide (16 ≤ o.toNat ∧ o.toNat ≤ 31) := by
  rw [isPrivate172, Text.dropLead?_append]
  rcases octetText_cases o with ⟨hlt, ho⟩ | ⟨hge, hlt, ho⟩ | ⟨hge, ho⟩
  · -- The dot stands where the rule wants a digit.
    have hsmall : ¬ (16 ≤ o.toNat ∧ o.toNat ≤ 31) := by omega
    rw [ho, decide_eq_false hsmall]
    split
    · rename_i hmatch
      obtain ⟨-, rfl, -⟩ : _ ∧ '.' = _ ∧ _ := by simpa using hmatch
      simp [(by decide : Text.isDigit '.' = false)]
    · rfl
  · have hdigits := private_digits (o.toNat / 10) (by omega) (o.toNat % 10) (by omega)
    rw [Nat.div_add_mod] at hdigits
    rw [ho]
    exact hdigits
  · have hlarge : ¬ (16 ≤ o.toNat ∧ o.toNat ≤ 31) := by omega
    rw [ho, decide_eq_false hlarge]
    split
    · rename_i hmatch
      simp at hmatch
    · rfl

theorem carrier_digits_two : ∀ d < 10, ∀ e < 10,
    ('6' ≤ Nat.digitChar d && Nat.digitChar d ≤ '9' && '0' ≤ Nat.digitChar e && Nat.digitChar e ≤ '9') =
      decide (60 ≤ 10 * d + e) := by
  decide

theorem carrier_digits_three : ∀ d < 3, ∀ e < 10, ∀ f < 10,
    (Nat.digitChar d == '1' && '0' ≤ Nat.digitChar e && Nat.digitChar e ≤ '2' && '0' ≤ Nat.digitChar f &&
      Nat.digitChar f ≤ '7') =
      decide ((100 ≤ 10 * (10 * d + e) + f ∧ 10 * (10 * d + e) + f ≤ 107) ∨
        (110 ≤ 10 * (10 * d + e) + f ∧ 10 * (10 * d + e) + f ≤ 117) ∨
        (120 ≤ 10 * (10 * d + e) + f ∧ 10 * (10 * d + e) + f ≤ 127)) := by
  decide

/-- The octets that the rule on characters takes in. -/
theorem isCarrier_octet (o : UInt8) (rest : List Char) :
    isCarrier ("100.".toList ++ (octetText o ++ '.' :: rest)) =
      decide ((60 ≤ o.toNat ∧ o.toNat ≤ 107) ∨ (110 ≤ o.toNat ∧ o.toNat ≤ 117) ∨
        (120 ≤ o.toNat ∧ o.toNat ≤ 127)) := by
  have hlt256 : o.toNat < 256 := o.toNat_lt
  rw [isCarrier, Text.dropLead?_append]
  rcases octetText_cases o with ⟨hlt, ho⟩ | ⟨hge, hlt, ho⟩ | ⟨hge, ho⟩
  · rw [ho, decide_eq_false (by omega)]
    split
    · rename_i hmatch
      obtain ⟨-, rfl, -⟩ : _ ∧ '.' = _ ∧ _ := by simpa using hmatch
      simp
    · rename_i hmatch
      obtain ⟨-, rfl, -⟩ : _ ∧ '.' = _ ∧ _ := by simpa using hmatch
      simp
    · rfl
  · have hdigits := carrier_digits_two (o.toNat / 10) (by omega) (o.toNat % 10) (by omega)
    rw [Nat.div_add_mod] at hdigits
    have hcond : 60 ≤ o.toNat ↔ (60 ≤ o.toNat ∧ o.toNat ≤ 107) ∨ (110 ≤ o.toNat ∧ o.toNat ≤ 117) ∨
      (120 ≤ o.toNat ∧ o.toNat ≤ 127) := by omega
    rw [ho, ← decide_eq_decide.2 hcond]
    exact hdigits
  · have hdigits := carrier_digits_three (o.toNat / 10 / 10) (by omega) (o.toNat / 10 % 10) (by omega)
      (o.toNat % 10) (by omega)
    rw [Nat.div_add_mod, Nat.div_add_mod] at hdigits
    have hcond : (100 ≤ o.toNat ∧ o.toNat ≤ 107) ∨ (110 ≤ o.toNat ∧ o.toNat ≤ 117) ∨
      (120 ≤ o.toNat ∧ o.toNat ≤ 127) ↔ (60 ≤ o.toNat ∧ o.toNat ≤ 107) ∨ (110 ≤ o.toNat ∧ o.toNat ≤ 117) ∨
      (120 ≤ o.toNat ∧ o.toNat ≤ 127) := by omega
    rw [ho, ← decide_eq_decide.2 hcond]
    split
    · rename_i hmatch
      simp at hmatch
    · rename_i hmatch
      simp only [List.cons_append, List.nil_append, Option.some.injEq, List.cons.injEq] at hmatch
      obtain ⟨rfl, rfl, rfl, -⟩ := hmatch
      exact hdigits
    · rename_i hother
      exact absurd rfl (hother _ _ _ _)

/-! ### The rules on the text -/

theorem no_colon_text (a : V4) : ':' ∉ a.text := by
  have hoctet (o : UInt8) : ':' ∉ octetText o := fun h => absurd (isAsciiDigit_of_mem_octetText h) (by decide)
  simp [text_eq, hoctet]

theorem isPrivate172_text (a : V4) : isPrivate172 a.text = true ↔ a.o1 = 172 ∧ 16 ≤ a.o2 ∧ a.o2 ≤ 31 := by
  have hlead : "172.".toList = octetText 172 ++ ['.'] := by decide
  by_cases h : a.o1 = 172
  · have htext : a.text = "172.".toList ++ (octetText a.o2 ++ '.' :: (octetText a.o3 ++ '.' :: octetText a.o4)) := by
      simp [text_eq, h, hlead]
    rw [htext, isPrivate172_octet, decide_eq_true_iff, UInt8.le_iff_toNat_le, UInt8.le_iff_toNat_le]
    exact (and_iff_right h).symm
  · have hnone : Text.dropLead? "172.".toList a.text = none := by
      rw [hlead, text_eq, dropLead?_octet, if_neg fun h' => h h'.symm]
    refine iff_of_false ?_ fun h' => h h'.1
    rw [isPrivate172, hnone]
    exact Bool.false_ne_true

theorem isCarrier_text (a : V4) : Address.isCarrier a.text = true ↔ a.IsCarrier := by
  have hlead : "100.".toList = octetText 100 ++ ['.'] := by decide
  by_cases h : a.o1 = 100
  · have htext : a.text = "100.".toList ++ (octetText a.o2 ++ '.' :: (octetText a.o3 ++ '.' :: octetText a.o4)) := by
      simp [text_eq, h, hlead]
    rw [htext, isCarrier_octet, decide_eq_true_iff]
    simp only [IsCarrier, UInt8.le_iff_toNat_le]
    exact (and_iff_right h).symm
  · have hnone : Text.dropLead? "100.".toList a.text = none := by
      rw [hlead, text_eq, dropLead?_octet, if_neg fun h' => h h'.symm]
    refine iff_of_false ?_ fun h' => h h'.1
    rw [Address.isCarrier, hnone]
    exact Bool.false_ne_true

theorem bareText_text (a : V4) : bareText a.text = a.text := by
  rw [bareText, Text.dropLead?_of_not_mem (by decide) a.no_colon_text, Option.getD_none]

theorem bareText_carried (a : V4) : bareText ("::ffff:".toList ++ a.text) = a.text := by
  rw [bareText, Text.dropLead?_append, Option.getD_some]

/-- The rules give an address a reach that it is within. -/
theorem within_ofText (a : V4) : a.Within (Reach.ofText a.text) := by
  have hloopback6 : a.text ≠ "::1".toList := fun h => a.no_colon_text (h ▸ by decide)
  have hlinkLocal6 : ¬ Text.startsWith "fe80:".toList a.text = true := by
    rw [Text.startsWith_eq_false (a := ':') (by decide) a.no_colon_text]
    exact Bool.false_ne_true
  have hloopback : Text.startsWith "127.".toList a.text = true ↔ a.IsLoopback := by
    exact (Bool.eq_iff_iff.1 (a.startsWith_first 127)).trans (decide_eq_true_iff.trans eq_comm)
  have hprivate : (Text.startsWith "10.".toList a.text || isPrivate172 a.text ||
      Text.startsWith "192.168.".toList a.text) = true ↔ a.IsPrivate := by
    have h10 : Text.startsWith "10.".toList a.text = decide (10 = a.o1) := a.startsWith_first 10
    have h192 : Text.startsWith "192.168.".toList a.text = decide (192 = a.o1 ∧ 168 = a.o2) :=
      a.startsWith_second 192 168
    rw [h10, h192, Bool.or_eq_true, Bool.or_eq_true, isPrivate172_text, decide_eq_true_iff, decide_eq_true_iff,
      IsPrivate, or_assoc, eq_comm (b := a.o1), eq_comm (a := (192 : UInt8)), eq_comm (b := a.o2)]
  have hlinkLocal : Text.startsWith "169.254.".toList a.text = true ↔ a.IsLinkLocal := by
    have h169 : Text.startsWith "169.254.".toList a.text = decide (169 = a.o1 ∧ 254 = a.o2) :=
      a.startsWith_second 169 254
    rw [h169, decide_eq_true_iff, IsLinkLocal, eq_comm (b := a.o1), eq_comm (b := a.o2)]
  rw [Reach.ofText, bareText_text]
  dsimp only
  rw [if_neg hloopback6, if_neg hlinkLocal6]
  split
  · rename_i h
    exact hloopback.1 h
  rename_i hnotLoopback
  split
  · rename_i h
    exact hprivate.1 h
  rename_i hnotPrivate
  split
  · rename_i h
    exact hlinkLocal.1 h
  rename_i hnotLinkLocal
  split
  · rename_i h
    exact a.isCarrier_text.1 h
  · rename_i hnotCarrier
    exact ⟨mt hloopback.2 hnotLoopback, mt hprivate.2 hnotPrivate, mt hlinkLocal.2 hnotLinkLocal,
      mt a.isCarrier_text.2 hnotCarrier⟩

theorem ofText_text_iff (a : V4) (r : Reach) : Reach.ofText a.text = r ↔ a.Within r :=
  ⟨fun h => h ▸ a.within_ofText, a.within_ofText.unique⟩

end V4

/-! ## IPv6 -/

namespace V6

def IsLoopback (a : V6) : Prop := a.groups = [0, 0, 0, 0, 0, 0, 0, 1]

def IsLinkLocal (a : V6) : Prop := a.groups.head? = some 0xFE80

/-- The addresses that a reach is the reach of, among those that carry no IPv4 address. -/
def Within (a : V6) : Reach → Prop
  | .loopback .v6 => a.IsLoopback
  | .linkLocalV6 => a.IsLinkLocal
  | .everywhere => ¬ a.IsLoopback ∧ ¬ a.IsLinkLocal
  | .loopback .v4 | .privateV4 | .linkLocalV4 | .carrier => False

/-- An address whose first zeros are compressed in its text, where the group that marks a carried address and more
groups follow them: no longer run of zeros comes later. -/
def LooksCarried (a : V6) : Prop :=
  ∃ zeros rest, 1 < zeros ∧ rest ≠ [] ∧ a.groups = List.replicate zeros 0 ++ 0xFFFF :: rest ∧
    ∀ run, List.replicate run 0 <:+: rest → run ≤ zeros

/-! ### Runs of zeros -/

theorem le_zeroRun {groups : List UInt16} {n : Nat} (h : List.replicate n 0 <+: groups) : n ≤ zeroRun groups := by
  obtain ⟨rest, rfl⟩ := h
  have hzeros : ∀ g ∈ List.replicate n (0 : UInt16), (g == 0) = true :=
    fun g hg => beq_iff_eq.2 (List.eq_of_mem_replicate hg)
  rw [zeroRun, List.takeWhile_append_of_pos hzeros, List.length_append, List.length_replicate]
  exact Nat.le_add_right _ _

/-- No run of zeros is longer than the longest one. -/
theorem le_longestRun {groups : List UInt16} {n : Nat} (h : List.replicate n 0 <:+: groups) (i : Nat) :
    n ≤ (longestRun i groups).2 := by
  induction groups generalizing i with
  | nil =>
    have hlength := h.length_le
    rw [List.length_replicate] at hlength
    exact Nat.le_trans hlength (Nat.zero_le _)
  | cons g groups ih =>
    rw [longestRun]
    rcases List.infix_cons_iff.1 h with hhere | hlater
    · have hle := le_zeroRun hhere
      split
      · exact hle
      · omega
    · have hle := ih hlater (i + 1)
      split
      · omega
      · exact hle

/-- Runs of zeros do not reach across another group. -/
theorem run_le_of_split {zeros run : Nat} {g : UInt16} {rest : List UInt16} (hg : g ≠ 0)
    (hrest : ∀ run, List.replicate run 0 <:+: rest → run ≤ zeros)
    (h : List.replicate run 0 <:+: List.replicate zeros 0 ++ g :: rest) : run ≤ zeros := by
  have hhead {n : Nat} {l : List UInt16} (hl : l ⊆ List.replicate n 0) (hfront : l <+: g :: rest) : l = [] := by
    rcases List.prefix_cons_iff.1 hfront with hnil | ⟨t, rfl, -⟩
    · exact hnil
    · exact absurd (List.eq_of_mem_replicate (hl List.mem_cons_self)) hg
  rcases List.infix_append_iff.1 h with h | h | ⟨l, l', hl, hsuffix, hfront⟩
  · have hlength := h.length_le
    rwa [List.length_replicate, List.length_replicate] at hlength
  · rcases List.infix_cons_iff.1 h with h | h
    · have hnil := congrArg List.length (hhead (List.Subset.refl _) h)
      rw [List.length_replicate, List.length_nil] at hnil
      omega
    · exact hrest run h
  · have hnil : l' = [] := hhead (n := run) (by rw [hl]; exact List.subset_append_right l l') hfront
    have hlength := hsuffix.length_le
    have hrun := congrArg List.length hl
    rw [hnil, List.append_nil, List.length_replicate] at hrun
    rw [List.length_replicate] at hlength
    omega

/-- Zeros at the front with no longer run behind them are the ones that are compressed. -/
theorem longestRun_of_front {zeros : Nat} {g : UInt16} {rest : List UInt16} (hpos : 0 < zeros) (hg : g ≠ 0)
    (hrest : ∀ run, List.replicate run 0 <:+: rest → run ≤ zeros) (i : Nat) :
    longestRun i (List.replicate zeros 0 ++ g :: rest) = (i, zeros) := by
  obtain ⟨n, rfl⟩ : ∃ n, zeros = n + 1 := ⟨zeros - 1, by omega⟩
  have hzeros : ∀ g ∈ List.replicate (n + 1) (0 : UInt16), (g == 0) = true :=
    fun g hg => beq_iff_eq.2 (List.eq_of_mem_replicate hg)
  have hhere : zeroRun (List.replicate (n + 1) 0 ++ g :: rest) = n + 1 := by
    rw [zeroRun, List.takeWhile_append_of_pos hzeros, List.takeWhile_cons_of_neg (by simpa using hg), List.append_nil,
      List.length_replicate]
  obtain ⟨before, after, hgroups, -⟩ := longestRun_split (i + 1) (List.replicate n 0 ++ g :: rest)
  have hlater : (longestRun (i + 1) (List.replicate n 0 ++ g :: rest)).2 ≤ n + 1 := by
    refine run_le_of_split hg hrest ?_
    rw [List.replicate_succ, List.cons_append]
    exact List.infix_cons ⟨before, after, hgroups.symm⟩
  rw [List.replicate_succ, List.cons_append] at hhere ⊢
  rw [longestRun, hhere]
  exact if_pos hlater

/-! ### Texts -/

theorem no_dot_groupsText (groups : List UInt16) : '.' ∉ groupsText groups := by
  rcases groupsText_cases groups with h | ⟨before, zeros, after, -, -, h⟩
  · rw [h]
    exact no_dot_joined _
  · rw [h]
    simp [no_dot_joined]

theorem text_of_mapped? {a : V6} (h : a.mapped? = none) : a.text = groupsText a.groups := by
  rw [text, h]

theorem text_inj {a b : V6} (h : a.text = b.text) : a = b := by
  have hread := ofText?_text a
  rw [h, ofText?_text] at hread
  exact (Option.some.inj hread).symm

theorem hexadecimal_inj {g h : UInt16} : Text.hexadecimal g.toNat = Text.hexadecimal h.toNat ↔ g = h := by
  refine ⟨fun hsame => ?_, fun hsame => hsame ▸ rfl⟩
  have hread := Text.readHex?_hexadecimal g.toNat
  rw [hsame, Text.readHex?_hexadecimal] at hread
  exact UInt16.toNat_inj.1 (Option.some.inj hread).symm

/-- A group and the colon behind it are taken off the front where that group stands and does not stand alone. -/
theorem dropLead?_group (g h : UInt16) {rest : List Char} (hstop : Text.Stops Text.isHexDigit rest) :
    Text.dropLead? (Text.hexadecimal g.toNat ++ [':']) (Text.hexadecimal h.toNat ++ rest) =
      if g = h then Text.dropLead? [':'] rest else none := by
  rw [Text.dropLead?_run (fun _ => Text.isHexDigit_of_mem_hexadecimal) (fun _ => Text.isHexDigit_of_mem_hexadecimal)
    (by decide) hstop]
  simp only [hexadecimal_inj]

theorem joined_append_ne_colon (g : UInt16) (groups : List UInt16) (s t : List Char) :
    joined (g :: groups) ++ s ≠ ':' :: t := by
  intro h
  rw [joined_cons] at h
  cases hdigits : Text.hexadecimal g.toNat with
  | nil => exact Text.hexadecimal_ne_nil _ hdigits
  | cons c digits =>
    rw [hdigits] at h
    obtain rfl : c = ':' := (List.cons.inj h).1
    have hcolon : ':' ∈ Text.hexadecimal g.toNat := by rw [hdigits]; exact List.mem_cons_self
    exact absurd (Text.isHexDigit_of_mem_hexadecimal hcolon) (by decide)

theorem mark_eq : "::ffff:".toList = [':', ':'] ++ (Text.hexadecimal (0xFFFF : UInt16).toNat ++ [':']) := by decide

/-- The text of an address that looks as if it carried one goes on with the groups behind the mark. -/
theorem groupsText_of_looksCarried {groups rest : List UInt16} {zeros : Nat} (hzeros : 1 < zeros)
    (hgroups : groups = List.replicate zeros 0 ++ 0xFFFF :: rest)
    (hrest : ∀ run, List.replicate run 0 <:+: rest → run ≤ zeros) (hne : rest ≠ []) :
    groupsText groups = "::ffff:".toList ++ joined rest := by
  obtain ⟨before, zeros', after, hsplit, hlongest, htext⟩ := groupsText_longest groups
  have hfront : longestRun 0 groups = (0, zeros) := by
    rw [hgroups]
    exact longestRun_of_front (by omega) (by decide) hrest 0
  obtain ⟨hstart, rfl⟩ := Prod.mk.inj (hlongest.symm.trans hfront)
  obtain rfl := List.length_eq_zero_iff.1 hstart
  obtain rfl : after = 0xFFFF :: rest := List.append_cancel_left (hsplit.symm.trans hgroups)
  rw [htext, if_pos hzeros, mark_eq]
  cases rest with
  | nil => exact absurd rfl hne
  | cons g rest =>
    have hjoined : joined (0xFFFF :: g :: rest) =
      Text.hexadecimal (0xFFFF : UInt16).toNat ++ ':' :: joined (g :: rest) := rfl
    rw [hjoined]
    simp [joined]

/-- Groups whose text starts with a group and a colon start with that group, and there are more. -/
theorem groups_of_joined {g : UInt16} {groups : List UInt16} {rest : List Char}
    (h : joined groups = Text.hexadecimal g.toNat ++ [':'] ++ rest) : ∃ more, more ≠ [] ∧ groups = g :: more := by
  cases groups with
  | nil => simp [joined] at h
  | cons first more =>
    have hlead := dropLead?_group g first (stops_led_end more)
    rw [← joined_cons, h, Text.dropLead?_append] at hlead
    split at hlead
    · rename_i hsame
      refine ⟨more, ?_, by rw [hsame]⟩
      rintro rfl
      cases hlead
    · cases hlead

/-- The text of an address that carries none starts as if it did exactly where the address looks so. -/
theorem startsWith_mark_iff {a : V6} (h : a.mapped? = none) :
    Text.startsWith "::ffff:".toList a.text = true ↔ a.LooksCarried := by
  rw [text_of_mapped? h, Text.startsWith_iff]
  constructor
  · rintro ⟨rest, hrest⟩
    obtain ⟨before, zeros, after, hsplit, hlongest, htext⟩ := groupsText_longest a.groups
    rw [hrest, mark_eq] at htext
    by_cases hzeros : 1 < zeros
    · rw [if_pos hzeros] at htext
      cases before with
      | cons g before =>
        rw [List.append_assoc (joined _)] at htext
        exact absurd htext.symm (joined_append_ne_colon g before _ _)
      | nil =>
        have hafter : joined after = Text.hexadecimal (0xFFFF : UInt16).toNat ++ [':'] ++ rest := by
          simpa [joined] using htext.symm
        obtain ⟨more, hne, rfl⟩ := groups_of_joined hafter
        refine ⟨zeros, more, hzeros, hne, hsplit, fun run hrun => ?_⟩
        have hinfix : List.replicate run 0 <:+: a.groups := by
          rw [hsplit]
          exact hrun.trans ((List.suffix_cons _ _).trans (List.suffix_append _ _)).isInfix
        have hle := le_longestRun hinfix 0
        rwa [hlongest] at hle
    · rw [if_neg hzeros] at htext
      cases hgroups : a.groups with
      | nil => exact absurd (hgroups ▸ a.length_eq) (by decide)
      | cons g groups =>
        rw [hgroups, ← List.append_nil (joined _)] at htext
        exact absurd htext.symm (joined_append_ne_colon g groups _ _)
  · rintro ⟨zeros, rest, hzeros, hne, hgroups, hrest⟩
    exact ⟨joined rest, groupsText_of_looksCarried hzeros hgroups hrest hne⟩

/-- Nothing is taken off the text of an address that carries none, unless it looks as if it did. -/
theorem bareText_text_iff {a : V6} (h : a.mapped? = none) : bareText a.text = a.text ↔ ¬ a.LooksCarried := by
  rw [← startsWith_mark_iff h, bareText, Text.startsWith]
  cases hlead : Text.dropLead? "::ffff:".toList a.text with
  | none => simp
  | some rest =>
    have hlength := congrArg List.length (Text.dropLead?_eq_some_iff.1 hlead)
    refine iff_of_false (fun hsame => ?_) (by simp)
    rw [Option.getD_some] at hsame
    rw [← hsame, List.length_append] at hlength
    have hmark : 0 < "::ffff:".toList.length := by decide
    omega

/-! ### The rules on the text -/

theorem text_eq_loopback_iff (a : V6) : a.text = "::1".toList ↔ a.IsLoopback := by
  have hloopback : V6.text ⟨[0, 0, 0, 0, 0, 0, 0, 1], rfl⟩ = "::1".toList := by decide
  rw [← hloopback]
  constructor
  · intro h
    rw [IsLoopback, text_inj h]
  · intro h
    obtain ⟨groups, hlength⟩ := a
    obtain rfl : groups = _ := h
    rfl

/-- An address that carries no other starts like a link-local one exactly where it is one. -/
theorem startsWith_linkLocal_iff {a : V6} (h : a.mapped? = none) :
    Text.startsWith "fe80:".toList a.text = true ↔ a.IsLinkLocal := by
  have hlead : "fe80:".toList = Text.hexadecimal (0xFE80 : UInt16).toNat ++ [':'] := by decide
  have hgroup (g : UInt16) (rest : List Char) (hcolon : ∃ s, rest = ':' :: s) :
      Text.startsWith "fe80:".toList (Text.hexadecimal g.toNat ++ rest) = true ↔ g = 0xFE80 := by
    obtain ⟨s, rfl⟩ := hcolon
    rw [Text.startsWith, hlead, dropLead?_group _ _ (Text.stops_cons (by decide) s)]
    split
    · rename_i hsame
      exact iff_of_true rfl hsame.symm
    · rename_i hother
      exact iff_of_false Bool.false_ne_true fun hsame => hother hsame.symm
  obtain ⟨before, zeros, after, hsplit, -, htext⟩ := groupsText_longest a.groups
  rw [text_of_mapped? h, htext, IsLinkLocal]
  by_cases hzeros : 1 < zeros
  · rw [if_pos hzeros]
    cases before with
    | nil =>
      obtain ⟨n, rfl⟩ : ∃ n, zeros = n + 1 := ⟨zeros - 1, by omega⟩
      refine iff_of_false ?_ ?_
      · exact Bool.false_ne_true
      · rw [hsplit, List.replicate_succ]
        exact fun hhead => absurd (Option.some.inj hhead) (by decide)
    | cons g before =>
      rw [joined_cons, List.append_assoc, List.append_assoc, hgroup, hsplit]
      · simp
      · cases before <;> simp [led]
  · rw [if_neg hzeros]
    obtain ⟨g, g', groups, hgroups⟩ : ∃ g g' groups, a.groups = g :: g' :: groups := by
      have hlength := a.length_eq
      generalize a.groups = groups at hlength ⊢
      rcases groups with _ | ⟨g, _ | ⟨g', groups⟩⟩
      · cases hlength
      · cases hlength
      · exact ⟨g, g', groups, rfl⟩
    rw [hgroups, joined_cons, hgroup g (led (g' :: groups)) ⟨_, rfl⟩]
    simp

/-- The rules give an address that neither carries another nor looks so a reach that it is within. -/
theorem within_ofText {a : V6} (h : a.mapped? = none) (hlooks : ¬ a.LooksCarried) : a.Within (Reach.ofText a.text) := by
  have hdot : '.' ∉ a.text := by
    rw [text_of_mapped? h]
    exact no_dot_groupsText a.groups
  have hlead (lead : String) (hmem : '.' ∈ lead.toList) : Text.startsWith lead.toList a.text = false :=
    Text.startsWith_eq_false hmem hdot
  have h172 : isPrivate172 a.text = false := by
    rw [isPrivate172, Text.dropLead?_of_not_mem (a := '.') (by decide) hdot]
  have h100 : isCarrier a.text = false := by
    rw [isCarrier, Text.dropLead?_of_not_mem (a := '.') (by decide) hdot]
  rw [Reach.ofText, (bareText_text_iff h).2 hlooks]
  dsimp only
  split
  · rename_i hloopback
    exact a.text_eq_loopback_iff.1 hloopback
  rename_i hnotLoopback
  split
  · rename_i hlinkLocal
    exact (startsWith_linkLocal_iff h).1 hlinkLocal
  rename_i hnotLinkLocal
  simp only [hlead "127." (by decide), hlead "10." (by decide), hlead "192.168." (by decide),
    hlead "169.254." (by decide), h172, h100, Bool.or_self]
  exact ⟨mt a.text_eq_loopback_iff.2 hnotLoopback, mt (startsWith_linkLocal_iff h).2 hnotLinkLocal⟩

/-- The kinds of addresses do not overlap. -/
theorem Within.unique {a : V6} {r r' : Reach} (h : a.Within r) (h' : a.Within r') : r = r' := by
  rcases r with ⟨_ | _⟩ | _ | _ | _ | _ | _ <;> rcases r' with ⟨_ | _⟩ | _ | _ | _ | _ | _ <;>
    grind [Within, IsLoopback, IsLinkLocal]

theorem ofText_text_iff {a : V6} (h : a.mapped? = none) (hlooks : ¬ a.LooksCarried) (r : Reach) :
    Reach.ofText a.text = r ↔ a.Within r :=
  ⟨fun hr => hr ▸ within_ofText h hlooks, (within_ofText h hlooks).unique⟩

end V6
end Speedtest.Address
