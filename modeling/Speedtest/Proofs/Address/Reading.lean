import Speedtest.Address.V6
import Speedtest.Proofs.Text.Numeral

/-!
# Addresses read back

An address is read back from its text, and from its octets. For IPv6 the text stands in one of three shapes: all
groups, the groups around the longest run of zeros, and the groups that carry an IPv4 address. Every shape
leads the reader to the same eight groups. What an address is written with has no blanks and a greatest length.
-/
namespace Speedtest.Address

/-! ## IPv4 -/

namespace V4

theorem length_octetText_le (o : UInt8) : (octetText o).length ≤ 3 := by
  have ho : o.toNat < Nat.pow 10 3 := Nat.lt_of_lt_of_le o.toNat_lt (by decide)
  exact Text.length_decimal_le (by decide) ho

theorem readOctet?_octetText (o : UInt8) {rest : List Char} (hstop : Text.Stops Text.isAsciiDigit rest) :
    readOctet? (octetText o ++ rest) = some (o, rest) := by
  have ho : o.toNat < 256 := o.toNat_lt
  have hdigits : ∀ c ∈ octetText o, Text.isAsciiDigit c = true := fun _ => Text.isAsciiDigit_of_mem_decimal
  have hlength : ¬ 3 < (octetText o).length := Nat.not_lt.2 (length_octetText_le o)
  have hlead : ¬ ((octetText o).head? = some '0' ∧ octetText o ≠ ['0']) :=
    fun h => h.2 (Text.decimal_of_head? h.1)
  have hnumber : Text.readDigits? (octetText o) = some o.toNat := Text.readDigits?_decimal o.toNat
  simp only [readOctet?, Text.takeWhile_run hdigits hstop, Text.dropWhile_run hdigits hstop, hlength,
    hlead, hnumber, ho, if_true, if_false, UInt8.ofNat_toNat]

theorem stops_dot (s : List Char) : Text.Stops Text.isAsciiDigit ('.' :: s) :=
  Text.stops_cons (by decide) s

/-- An address is read off the front of whatever does not go on with a digit. -/
theorem read?_text (a : V4) {rest : List Char} (hstop : Text.Stops Text.isAsciiDigit rest) :
    read? (a.text ++ rest) = some (a, rest) := by
  have htext : a.text ++ rest = octetText a.o1 ++ '.' :: (octetText a.o2 ++ '.' ::
      (octetText a.o3 ++ '.' :: (octetText a.o4 ++ rest))) := by
    simp [text]
  rw [htext]
  simp only [read?, readDotted?, readOctet?_octetText _ (stops_dot _), readOctet?_octetText _ hstop,
    Option.bind_eq_bind, Option.bind_some, Option.pure_def]

theorem ofText?_text (a : V4) : ofText? a.text = some a := by
  have h := a.read?_text (Text.stops_nil _)
  rw [List.append_nil] at h
  rw [ofText?, h]

theorem isGraphic_of_mem_text {a : V4} {c : Char} (h : c ∈ a.text) : Text.IsGraphic c := by
  have hdot : Text.IsGraphic '.' := by decide
  simp only [text, List.mem_append, List.mem_cons] at h
  rcases h with ((h | rfl | h) | rfl | h) | rfl | h
  all_goals first | exact hdot | exact Text.isGraphic_of_mem_decimal h

theorem length_text_le (a : V4) : a.text.length ≤ 15 := by
  have h1 := length_octetText_le a.o1
  have h2 := length_octetText_le a.o2
  have h3 := length_octetText_le a.o3
  have h4 := length_octetText_le a.o4
  simp only [text, List.length_append, List.length_cons]
  omega

/-- Where no digit stands in front there is no address. -/
theorem read?_of_stops {s : List Char} (h : Text.Stops Text.isAsciiDigit s) : read? s = none := by
  have hrun : ∀ c ∈ ([] : List Char), Text.isAsciiDigit c = true := fun _ h => nomatch h
  have hdigits : s.takeWhile Text.isAsciiDigit = [] := Text.takeWhile_run hrun h
  have hoctet : readOctet? s = none := by
    simp [readOctet?, hdigits, Text.readDigits?]
  simp [read?, hoctet]

theorem readOctet?_eq_some {s rest : List Char} {o : UInt8} (h : readOctet? s = some (o, rest)) :
    rest = s.dropWhile Text.isAsciiDigit := by
  simp only [readOctet?] at h
  split at h
  · cases h
  · split at h
    · cases h
    · split at h
      · split at h
        · exact (Prod.mk.inj (Option.some.inj h)).2.symm
        · cases h
      · cases h

/-- A text without dots has no address in front. -/
theorem read?_of_no_dot {s : List Char} (h : '.' ∉ s) : read? s = none := by
  unfold read?
  cases hfirst : readOctet? s with
  | none => rfl
  | some found =>
    obtain ⟨o, rest⟩ := found
    have hrest : '.' ∉ rest := by
      rw [readOctet?_eq_some hfirst]
      exact fun hmem => h ((List.dropWhile_sublist _).subset hmem)
    have hdotted : readDotted? rest = none := by
      unfold readDotted?
      split
      · exact absurd List.mem_cons_self hrest
      · rfl
    simp [hdotted]

end V4

/-! ## IPv6 -/

namespace V6

/-- Groups with a colon in front of each. -/
def led (groups : List UInt16) : List Char := groups.flatMap fun g => ':' :: Text.hexadecimal g.toNat

theorem joined_cons (g : UInt16) (groups : List UInt16) :
    joined (g :: groups) = Text.hexadecimal g.toNat ++ led groups := by
  induction groups generalizing g with
  | nil => simp [joined, led]
  | cons h groups ih =>
    have hstep : joined (g :: h :: groups) = Text.hexadecimal g.toNat ++ ':' :: joined (h :: groups) := rfl
    rw [hstep, ih]
    rfl

/-! ### Groups -/

theorem readGroup?_hexadecimal (g : UInt16) {rest : List Char} (hstop : Text.Stops Text.isHexDigit rest) :
    readGroup? (Text.hexadecimal g.toNat ++ rest) = some (g, rest) := by
  have hg : g.toNat < Nat.pow 16 4 := g.toNat_lt
  have hdigits : ∀ c ∈ Text.hexadecimal g.toNat, Text.isHexDigit c = true :=
    fun _ => Text.isHexDigit_of_mem_hexadecimal
  have hlength : ¬ 4 < (Text.hexadecimal g.toNat).length :=
    Nat.not_lt.2 (Text.length_hexadecimal_le (by decide) hg)
  simp only [readGroup?, Text.takeWhile_run hdigits hstop, Text.dropWhile_run hdigits hstop, hlength,
    if_false, Text.readHex?_hexadecimal, Option.map_some, UInt16.ofNat_toNat]

theorem readGroup?_colon (s : List Char) : readGroup? (':' :: s) = none := by
  have hcolon : Text.isHexDigit ':' = false := by decide
  simp [readGroup?, hcolon, Text.readHex?]

theorem no_dot_hexadecimal (n : Nat) : '.' ∉ Text.hexadecimal n := by
  intro h
  exact absurd (Text.isHexDigit_of_mem_hexadecimal h) (by decide)

theorem no_dot_led (groups : List UInt16) : '.' ∉ led groups := by
  intro h
  obtain ⟨g, -, hmem⟩ := List.mem_flatMap.1 h
  rcases List.mem_cons.1 hmem with h | h
  · exact absurd h (by decide)
  · exact no_dot_hexadecimal _ h

theorem no_dot_joined (groups : List UInt16) : '.' ∉ joined groups := by
  cases groups with
  | nil => exact List.not_mem_nil
  | cons g groups =>
    rw [joined_cons, List.mem_append]
    rintro (h | h)
    · exact no_dot_hexadecimal _ h
    · exact no_dot_led _ h

/-- What may follow groups that are read as far as they go: nothing, or the sign for zeros. -/
def Ends (rest : List Char) : Prop := rest = [] ∨ ∃ s, rest = ':' :: ':' :: s

theorem stops_led (groups : List UInt16) {rest : List Char} (hends : Ends rest) :
    Text.Stops Text.isHexDigit (led groups ++ rest) := by
  cases groups with
  | nil =>
    rcases hends with rfl | ⟨s, rfl⟩
    · exact Text.stops_nil _
    · exact Text.stops_cons (by decide) _
  | cons g groups => exact Text.stops_cons (by decide) _

theorem stops_led_end (groups : List UInt16) : Text.Stops Text.isHexDigit (led groups) := by
  have hled := stops_led groups (.inl rfl)
  rwa [List.append_nil] at hled

/-- Where a group stands in front and no IPv4 address, the group is read and reading goes on. -/
theorem readGroups_group {limit : Nat} {first : Bool} {s t rest : List Char} {g : UInt16}
    (hcolon : afterColon? first s = some t) (hquad : V4.read? t = none)
    (hgroup : readGroup? t = some (g, rest)) :
    readGroups (limit + 1) first s =
      ((g :: (readGroups limit false rest).1), (readGroups limit false rest).2) := by
  rw [readGroups, hcolon]
  simp only [hquad, ite_self, hgroup]

theorem readGroups_stop {limit : Nat} {first : Bool} {s t : List Char}
    (hcolon : afterColon? first s = some t) (hquad : V4.read? t = none) (hgroup : readGroup? t = none) :
    readGroups limit first s = ([], false, s) := by
  cases limit with
  | zero => rfl
  | succ limit =>
    rw [readGroups, hcolon]
    simp only [hquad, ite_self, hgroup]

theorem read?_group_led (g : UInt16) (groups : List UInt16) {rest : List Char} (hdot : '.' ∉ rest) :
    V4.read? (Text.hexadecimal g.toNat ++ (led groups ++ rest)) = none := by
  apply V4.read?_of_no_dot
  simp [no_dot_hexadecimal, no_dot_led, hdot]

/-- Groups with a colon in front of each are read back, up to what ends them. -/
theorem readGroups_led (groups : List UInt16) {limit : Nat} (hlimit : groups.length ≤ limit)
    {rest : List Char} (hends : Ends rest) (hdot : '.' ∉ rest) :
    readGroups limit false (led groups ++ rest) = (groups, false, rest) := by
  induction groups generalizing limit with
  | nil =>
    rcases hends with rfl | ⟨s, rfl⟩
    · cases limit <;> rfl
    · exact readGroups_stop rfl (V4.read?_of_stops (Text.stops_cons (by decide) _)) (readGroup?_colon s)
  | cons g groups ih =>
    obtain ⟨limit, rfl⟩ : ∃ n, limit = n + 1 := ⟨limit - 1, by simp at hlimit; omega⟩
    have hquad := read?_group_led g groups hdot
    have hgroup := readGroup?_hexadecimal g (stops_led groups hends)
    have hcolon : afterColon? false (led (g :: groups) ++ rest) =
        some (Text.hexadecimal g.toNat ++ (led groups ++ rest)) := by
      simp [led, afterColon?]
    rw [readGroups_group hcolon hquad hgroup, ih (by simpa using hlimit)]

/-- Groups with colons between them are read as those groups, up to what ends them. -/
theorem readGroups_joined (groups : List UInt16) {limit : Nat} (hlimit : groups.length ≤ limit)
    {rest : List Char} (hends : Ends rest) (hdot : '.' ∉ rest) :
    readGroups limit true (joined groups ++ rest) = (groups, false, rest) := by
  cases groups with
  | nil =>
    rcases hends with rfl | ⟨s, rfl⟩
    · exact readGroups_stop rfl (V4.read?_of_no_dot hdot) rfl
    · exact readGroups_stop rfl (V4.read?_of_no_dot hdot) (readGroup?_colon _)
  | cons g groups =>
    obtain ⟨limit, rfl⟩ : ∃ n, limit = n + 1 := ⟨limit - 1, by simp at hlimit; omega⟩
    have hquad := read?_group_led g groups hdot
    have hgroup := readGroup?_hexadecimal g (stops_led groups hends)
    rw [joined_cons, List.append_assoc, readGroups_group rfl hquad hgroup,
      readGroups_led groups (by simpa using hlimit) hends hdot]

/-! ### Shapes -/

theorem take_zeroRun (groups : List UInt16) :
    groups = List.replicate (zeroRun groups) 0 ++ groups.drop (zeroRun groups) := by
  induction groups with
  | nil => rfl
  | cons g groups ih =>
    by_cases hg : g = 0
    · have hrun : zeroRun (g :: groups) = zeroRun groups + 1 := by simp [zeroRun, hg]
      rw [hrun, List.replicate_succ, List.drop_succ_cons, List.cons_append, ← ih, hg]
    · have hrun : zeroRun (g :: groups) = 0 := by simp [zeroRun, hg]
      rw [hrun]
      rfl

/-- The longest run of zeros is one, wherever it is found. -/
theorem longestRun_split (i : Nat) (groups : List UInt16) :
    ∃ before after, groups = before ++ List.replicate (longestRun i groups).2 0 ++ after ∧
      (longestRun i groups).1 = i + before.length := by
  induction groups generalizing i with
  | nil => exact ⟨[], [], rfl, rfl⟩
  | cons g groups ih =>
    simp only [longestRun]
    split
    · exact ⟨[], _, take_zeroRun (g :: groups), rfl⟩
    · obtain ⟨before, after, hgroups, hstart⟩ := ih (i + 1)
      refine ⟨g :: before, after, by rw [List.cons_append, List.cons_append, ← hgroups], ?_⟩
      rw [hstart, List.length_cons]
      omega

/-- The longest run of zeros is what the sign for zeros stands for, where there are two of them or more. -/
theorem groupsText_longest (groups : List UInt16) : ∃ before zeros after,
    groups = before ++ List.replicate zeros 0 ++ after ∧ longestRun 0 groups = (before.length, zeros) ∧
    groupsText groups =
      if 1 < zeros then joined before ++ [':', ':'] ++ joined after else joined groups := by
  obtain ⟨before, after, hgroups, hstart⟩ := longestRun_split 0 groups
  rw [Nat.zero_add] at hstart
  refine ⟨before, (longestRun 0 groups).2, after, hgroups, Prod.ext hstart rfl, ?_⟩
  unfold groupsText
  generalize longestRun 0 groups = run at hgroups hstart
  have hfront : groups.take run.1 = before := by
    rw [hgroups, hstart, List.append_assoc]
    exact List.take_left
  have hback : groups.drop (run.1 + run.2) = after := by
    rw [hgroups, hstart]
    exact List.drop_left' (by rw [List.length_append, List.length_replicate])
  simp only [hfront, hback]

/-- Groups are written in full, or with the sign for zeros in the place of two zeros or more. -/
theorem groupsText_cases (groups : List UInt16) :
    groupsText groups = joined groups ∨
    ∃ before zeros after, 1 < zeros ∧ groups = before ++ List.replicate zeros 0 ++ after ∧
      groupsText groups = joined before ++ [':', ':'] ++ joined after := by
  obtain ⟨before, zeros, after, hgroups, -, htext⟩ := groupsText_longest groups
  by_cases hrun : 1 < zeros
  · rw [if_pos hrun] at htext
    exact .inr ⟨before, zeros, after, hrun, hgroups, htext⟩
  · rw [if_neg hrun] at htext
    exact .inl htext

theorem ofGroups?_groups (a : V6) : ofGroups? a.groups = some a := dif_pos a.length_eq

theorem ofText?_joined (a : V6) : ofText? (joined a.groups) = some a := by
  have h := readGroups_joined a.groups (Nat.le_of_eq a.length_eq) (.inl rfl) List.not_mem_nil
  rw [List.append_nil] at h
  simp [ofText?, read?, h, a.length_eq, ofGroups?_groups]

/-- The sign for zeros stands for as many of them as are missing. -/
theorem ofText?_zeros {a : V6} {s t : List Char} {before after : List UInt16} {zeros : Nat} {dotted : Bool}
    (hhead : readGroups 8 true s = (before, false, ':' :: ':' :: t))
    (htail : readGroups (7 - before.length) true t = (after, dotted, [])) (hzeros : 0 < zeros)
    (hgroups : a.groups = before ++ List.replicate zeros 0 ++ after) : ofText? s = some a := by
  have hlength : before.length + zeros + after.length = 8 := by
    rw [← a.length_eq, hgroups, List.length_append, List.length_append, List.length_replicate]
  have hshort : before.length ≠ 8 := by omega
  have hmissing : 8 - before.length - after.length = zeros := by omega
  have hwhole : ofGroups? (before ++ (List.replicate zeros 0 ++ after)) = some a := by
    rw [← List.append_assoc, ← hgroups, ofGroups?_groups]
  have hread : read? s = some (a, []) := by
    simp [read?, hhead, hshort, Text.dropLead?, htail, hmissing, hwhole]
  rw [ofText?, hread]

/-- A run of zero groups may be left out, whichever it is. -/
theorem ofText?_compressed {a : V6} {before after : List UInt16} {zeros : Nat} (hzeros : 0 < zeros)
    (hgroups : a.groups = before ++ List.replicate zeros 0 ++ after) :
    ofText? (joined before ++ [':', ':'] ++ joined after) = some a := by
  have hlength : before.length + zeros + after.length = 8 := by
    rw [← a.length_eq, hgroups, List.length_append, List.length_append, List.length_replicate]
  have hdot : '.' ∉ ':' :: ':' :: joined after := by simp [no_dot_joined]
  have hbefore : before.length ≤ 8 := by omega
  have hafter : after.length ≤ 7 - before.length := by omega
  have hhead := readGroups_joined before hbefore (.inr ⟨_, rfl⟩) hdot
  have htail := readGroups_joined after hafter (.inl rfl) List.not_mem_nil
  rw [List.append_nil] at htail
  rw [List.append_assoc]
  exact ofText?_zeros hhead htail hzeros hgroups

theorem ofText?_groupsText (a : V6) : ofText? (groupsText a.groups) = some a := by
  rcases groupsText_cases a.groups with h | ⟨before, zeros, after, hzeros, hgroups, h⟩
  · rw [h]
    exact a.ofText?_joined
  · rw [h]
    exact ofText?_compressed (Nat.lt_of_succ_lt hzeros) hgroups

theorem readGroups_quad (quad : V4) (limit : Nat) :
    readGroups (limit + 2) false (':' :: quad.text) = (pairs quad.octets, true, []) := by
  have hread : V4.read? quad.text = some (quad, []) := by
    have h := quad.read?_text (Text.stops_nil _)
    rwa [List.append_nil] at h
  rw [readGroups]
  simp [afterColon?, hread]

theorem group_of_bytes (g : UInt16) :
    UInt16.ofNat ((UInt8.ofNat (g.toNat / 256)).toNat * 256 + (UInt8.ofNat (g.toNat % 256)).toNat) = g := by
  have hg : g.toNat < 65536 := g.toNat_lt
  have hnumber : (UInt8.ofNat (g.toNat / 256)).toNat * 256 + (UInt8.ofNat (g.toNat % 256)).toNat =
      g.toNat := by
    rw [UInt8.toNat_ofNat', UInt8.toNat_ofNat']
    omega
  rw [hnumber, UInt16.ofNat_toNat]

theorem groups_of_mapped? {a : V6} {quad : V4} (h : a.mapped? = some quad) :
    a.groups = List.replicate 5 0 ++ 0xFFFF :: pairs quad.octets := by
  unfold mapped? at h
  split at h
  · rename_i g g' hgroups
    obtain rfl := Option.some.inj h
    rw [hgroups]
    simp only [V4.octets, pairs, group_of_bytes]
    rfl
  · exact nomatch h

/-- An address that carries an IPv4 address has that one's text behind the group that says so. -/
theorem ofText?_mapped {a : V6} {quad : V4} (h : a.mapped? = some quad) :
    ofText? ("::ffff:".toList ++ quad.text) = some a := by
  have hmark : Text.hexadecimal (0xFFFF : UInt16).toNat = ['f', 'f', 'f', 'f'] := by decide
  have hnumber : Text.Stops Text.isAsciiDigit (['f', 'f', 'f', 'f'] ++ ':' :: quad.text) :=
    Text.stops_cons (by decide) _
  have hend : Text.Stops Text.isHexDigit (':' :: quad.text) := Text.stops_cons (by decide) _
  have hgroup := readGroup?_hexadecimal 0xFFFF hend
  rw [hmark] at hgroup
  have htail : readGroups 7 true (['f', 'f', 'f', 'f'] ++ ':' :: quad.text) =
      (0xFFFF :: pairs quad.octets, true, []) := by
    rw [readGroups_group rfl (V4.read?_of_stops hnumber) hgroup, readGroups_quad]
  have hhead : readGroups 8 true ("::ffff:".toList ++ quad.text) = ([], false, "::ffff:".toList ++ quad.text) :=
    readGroups_stop rfl (V4.read?_of_stops (Text.stops_cons (by decide) _)) (readGroup?_colon _)
  have hgroups : a.groups = [] ++ List.replicate 5 0 ++ 0xFFFF :: pairs quad.octets := groups_of_mapped? h
  exact ofText?_zeros hhead htail (by decide) hgroups

/-- An address is read back from its text. -/
theorem ofText?_text (a : V6) : ofText? a.text = some a := by
  unfold text
  split
  · rename_i quad hquad
    exact ofText?_mapped hquad
  · exact a.ofText?_groupsText

/-! ### Texts -/

theorem isGraphic_colon : Text.IsGraphic ':' := by decide

theorem isGraphic_of_mem_joined {groups : List UInt16} {c : Char} (h : c ∈ joined groups) :
    Text.IsGraphic c := by
  cases groups with
  | nil => exact nomatch h
  | cons g groups =>
    rw [joined_cons, List.mem_append] at h
    rcases h with h | h
    · exact Text.isGraphic_of_mem_hexadecimal h
    · obtain ⟨g', -, h⟩ := List.mem_flatMap.1 h
      rcases List.mem_cons.1 h with rfl | h
      · exact isGraphic_colon
      · exact Text.isGraphic_of_mem_hexadecimal h

theorem isGraphic_of_mem_groupsText {groups : List UInt16} {c : Char} (h : c ∈ groupsText groups) :
    Text.IsGraphic c := by
  rcases groupsText_cases groups with hfull | ⟨before, zeros, after, -, -, hshort⟩
  · rw [hfull] at h
    exact isGraphic_of_mem_joined h
  · simp only [hshort, List.mem_append, List.mem_cons, List.not_mem_nil, or_false, or_self] at h
    rcases h with (h | rfl) | h
    · exact isGraphic_of_mem_joined h
    · exact isGraphic_colon
    · exact isGraphic_of_mem_joined h

theorem isGraphic_of_mem_text {a : V6} {c : Char} (h : c ∈ a.text) : Text.IsGraphic c := by
  unfold text at h
  split at h
  · rcases List.mem_append.1 h with h | h
    · exact Text.isGraphic_of_all (by decide) h
    · exact V4.isGraphic_of_mem_text h
  · exact isGraphic_of_mem_groupsText h

theorem length_joined_le (groups : List UInt16) : (joined groups).length ≤ 5 * groups.length - 1 := by
  have hgroup : ∀ g : UInt16, (Text.hexadecimal g.toNat).length ≤ 4 :=
    fun g => Text.length_hexadecimal_le (by decide) g.toNat_lt
  fun_induction joined groups with
  | case1 => exact Nat.zero_le _
  | case2 g => exact hgroup g
  | case3 g groups hne ih =>
    have hg := hgroup g
    have hpos : groups.length ≠ 0 := fun h => hne (List.length_eq_zero_iff.1 h)
    simp only [List.length_append, List.length_cons]
    omega

theorem length_groupsText_le (a : V6) : (groupsText a.groups).length ≤ 39 := by
  have hlength := a.length_eq
  rcases groupsText_cases a.groups with h | ⟨before, zeros, after, hzeros, hgroups, h⟩
  · have hall := length_joined_le a.groups
    rw [h]
    omega
  · have hfront := length_joined_le before
    have hback := length_joined_le after
    have htotal := congrArg List.length hgroups
    simp only [h, List.length_append, List.length_cons, List.length_nil, List.length_replicate] at htotal ⊢
    omega

theorem length_text_le (a : V6) : a.text.length ≤ 39 := by
  unfold text
  split
  · rename_i quad _
    have hquad := quad.length_text_le
    have hlead : "::ffff:".toList.length = 7 := by decide
    rw [List.length_append, hlead]
    omega
  · exact a.length_groupsText_le

/-! ### Octets -/

theorem bytes_of_group (g : UInt16) :
    Bytes.ofNat 2 g.toNat = [UInt8.ofNat (g.toNat / 256), UInt8.ofNat (g.toNat % 256)] := by
  have hg : g.toNat / 256 < 256 := Nat.div_lt_of_lt_mul g.toNat_lt
  have hhigh : g.toNat / 256 % 256 = g.toNat / 256 := Nat.mod_eq_of_lt hg
  have hbytes : Bytes.ofNat 2 g.toNat =
      [UInt8.ofNat (g.toNat / 256 % 256), UInt8.ofNat (g.toNat % 256)] := rfl
  rw [hbytes, hhigh]

theorem pairs_octets (groups : List UInt16) :
    pairs (groups.flatMap fun g => Bytes.ofNat 2 g.toNat) = groups := by
  induction groups with
  | nil => rfl
  | cons g groups ih =>
    rw [List.flatMap_cons, bytes_of_group, List.cons_append, List.cons_append, List.nil_append, pairs, ih,
      group_of_bytes]

theorem length_octets (a : V6) : a.octets.length = 16 := by
  have hgroup : ∀ g : UInt16, (Bytes.ofNat 2 g.toNat).length = 2 := fun g => Bytes.length_ofNat 2 _
  simp [octets, List.length_flatMap, hgroup, List.map_const', a.length_eq]

theorem ofOctets?_octets (a : V6) : ofOctets? a.octets = some a := by
  rw [ofOctets?, octets, pairs_octets, ofGroups?_groups]

end V6
end Speedtest.Address
