import Speedtest.Proofs.Address.Reading

/-!
# What is read as an address

An IPv4 address has one text, and nothing else is read as that address. An IPv6 address has many. Whatever is read as
one is made of hexadecimal digits, colons and dots, so it has no blanks. Any bytes are the octets of one address if
there are as many of them as there should be.
-/
namespace Speedtest.Address

/-! ## IPv4 -/

namespace V4

/-- An octet that is read off the front is written there. -/
theorem eq_append_of_readOctet? {s rest : List Char} {o : UInt8} (h : readOctet? s = some (o, rest)) :
    s = octetText o ++ rest := by
  have hrest := readOctet?_eq_some h
  simp only [readOctet?] at h
  split at h
  · exact nomatch h
  split at h
  · exact nomatch h
  rename_i hlead
  split at h
  · rename_i n hn
    split at h
    · rename_i hlt
      obtain rfl := (Prod.mk.inj (Option.some.inj h)).1
      have hdigits := Text.eq_decimal_of_readDigits? hn hlead
      have hnumber : (UInt8.ofNat n).toNat = n := by rw [UInt8.toNat_ofNat']; omega
      rw [octetText, hnumber, ← hdigits, hrest, List.takeWhile_append_dropWhile]
    · exact nomatch h
  · exact nomatch h

theorem eq_append_of_readDotted? {s rest : List Char} {o : UInt8} (h : readDotted? s = some (o, rest)) :
    s = '.' :: octetText o ++ rest := by
  unfold readDotted? at h
  split at h
  · rw [eq_append_of_readOctet? h, List.cons_append]
  · exact nomatch h

theorem eq_append_of_read? {s rest : List Char} {a : V4} (h : read? s = some (a, rest)) : s = a.text ++ rest := by
  unfold read? at h
  obtain ⟨⟨o1, s1⟩, h1, h⟩ := Option.bind_eq_some_iff.1 h
  obtain ⟨⟨o2, s2⟩, h2, h⟩ := Option.bind_eq_some_iff.1 h
  obtain ⟨⟨o3, s3⟩, h3, h⟩ := Option.bind_eq_some_iff.1 h
  obtain ⟨⟨o4, s4⟩, h4, h⟩ := Option.bind_eq_some_iff.1 h
  obtain ⟨rfl, rfl⟩ := Prod.mk.inj (Option.some.inj h)
  rw [eq_append_of_readOctet? h1, eq_append_of_readDotted? h2, eq_append_of_readDotted? h3,
    eq_append_of_readDotted? h4]
  simp [text]

/-- An address has one text. -/
theorem ofText?_eq_some_iff {s : List Char} {a : V4} : ofText? s = some a ↔ s = a.text := by
  constructor
  · intro h
    unfold ofText? at h
    split at h
    · rename_i hread
      obtain rfl := Option.some.inj h
      have htext := eq_append_of_read? hread
      rwa [List.append_nil] at htext
    · exact nomatch h
  · rintro rfl
    exact a.ofText?_text

end V4

/-! ## IPv6 -/

namespace V6

/-- A reader that goes from a text to the rest of it has passed visible characters and nothing else. -/
def Passes (s rest : List Char) : Prop := ∃ front, s = front ++ rest ∧ ∀ c ∈ front, Text.IsGraphic c

theorem Passes.refl (s : List Char) : Passes s s := ⟨[], rfl, fun _ hc => nomatch hc⟩

theorem Passes.trans {s t rest : List Char} (h : Passes s t) (h' : Passes t rest) : Passes s rest := by
  obtain ⟨front, rfl, hfront⟩ := h
  obtain ⟨front', rfl, hfront'⟩ := h'
  refine ⟨front ++ front', (List.append_assoc _ _ _).symm, fun c hc => ?_⟩
  exact (List.mem_append.1 hc).elim (hfront c) (hfront' c)

theorem passes_readGroup? {s rest : List Char} {g : UInt16} (h : readGroup? s = some (g, rest)) : Passes s rest := by
  simp only [readGroup?] at h
  split at h
  · cases h
  · obtain ⟨n, -, hn⟩ := Option.map_eq_some_iff.1 h
    obtain ⟨-, rfl⟩ := Prod.mk.inj hn
    refine ⟨s.takeWhile Text.isHexDigit, List.takeWhile_append_dropWhile.symm, fun c hc => ?_⟩
    exact Text.isGraphic_of_isHexDigit (List.all_eq_true.1 List.all_takeWhile c hc)

theorem passes_afterColon? {first : Bool} {s t : List Char} (h : afterColon? first s = some t) : Passes s t := by
  unfold afterColon? at h
  split at h
  · obtain rfl := Option.some.inj h
    exact .refl s
  split at h
  · obtain rfl := Option.some.inj h
    exact ⟨[':'], rfl, fun c hc => List.mem_singleton.1 hc ▸ isGraphic_colon⟩
  · cases h

theorem passes_quad {s rest : List Char} {quad : V4} (h : V4.read? s = some (quad, rest)) : Passes s rest :=
  ⟨quad.text, V4.eq_append_of_read? h, fun _ => V4.isGraphic_of_mem_text⟩

/-- Reading groups only passes over graphic characters. -/
theorem passes_readGroups (limit : Nat) (first : Bool) (s : List Char) :
    Passes s (readGroups limit first s).2.2 := by
  fun_induction readGroups limit first s with
  | case1 first s => exact .refl s
  | case2 => exact .refl _
  | case3 limit first s t hcolon quad rest hquad =>
    split at hquad
    · exact nomatch hquad
    · exact (passes_afterColon? hcolon).trans (passes_quad hquad)
  | case4 => exact .refl _
  | case5 limit first s t hcolon _ g rest hgroup groups dotted rest' hgroups ih =>
    rw [hgroups] at ih
    exact ((passes_afterColon? hcolon).trans (passes_readGroup? hgroup)).trans ih

/-- A text that is an address has no blanks. -/
theorem isGraphic_of_ofText? {s : List Char} {a : V6} (h : ofText? s = some a) {c : Char} (hc : c ∈ s) :
    Text.IsGraphic c := by
  have hpass : Passes s [] := by
    unfold ofText? at h
    split at h
    · rename_i hread
      have hhead := passes_readGroups 8 true s
      simp only [read?] at hread
      split at hread
      · obtain ⟨found, -, hfound⟩ := Option.bind_eq_some_iff.1 hread
        rwa [(Prod.mk.inj (Option.some.inj hfound)).2] at hhead
      split at hread
      · cases hread
      · obtain ⟨t, hzeros, hread⟩ := Option.bind_eq_some_iff.1 hread
        obtain ⟨found, -, hfound⟩ := Option.bind_eq_some_iff.1 hread
        have hcolons : Passes (readGroups 8 true s).2.2 t := by
          rw [Text.dropLead?_eq_some_iff.1 hzeros]
          exact ⟨[':', ':'], rfl, fun c hc => by simp at hc; exact hc ▸ isGraphic_colon⟩
        have htail := passes_readGroups (7 - (readGroups 8 true s).1.length) true t
        rw [(Prod.mk.inj (Option.some.inj hfound)).2] at htail
        exact (hhead.trans hcolons).trans htail
    · cases h
  obtain ⟨front, rfl, hfront⟩ := hpass
  rw [List.append_nil] at hc
  exact hfront c hc

end V6

/-! ## Octets -/

/-- Two bytes are those of a number of sixteen bits. -/
theorem bytes_of_pair {s : Bytes} (h : s.length = 2) : Bytes.ofNat 2 (UInt16.ofNat (Bytes.toNat s)).toNat = s := by
  obtain ⟨high, low, rfl⟩ : ∃ high low, s = [high, low] := by
    match s, h with
    | [high, low], _ => exact ⟨high, low, rfl⟩
  have hhigh : high.toNat < 256 := UInt8.toNat_lt _
  have hlow : low.toNat < 256 := UInt8.toNat_lt _
  have hnumber : Bytes.toNat [high, low] = (0 * 256 + high.toNat) * 256 + low.toNat := rfl
  have hfits : Bytes.toNat [high, low] < 65536 := by omega
  rw [UInt16.toNat_ofNat_of_lt' hfits]
  exact Bytes.ofNat_toNat h

namespace V4

/-- Four bytes are the octets of an address. -/
theorem exists_octets {s : Bytes} (h : s.length = 4) : ∃ a : V4, a.octets = s := by
  match s, h with
  | [o1, o2, o3, o4], _ => exact ⟨⟨o1, o2, o3, o4⟩, rfl⟩

theorem toNat_inj {a b : V4} (h : a.toNat = b.toNat) : a = b := by
  have hoctets : a.octets = b.octets := Bytes.toNat_inj rfl h
  simp only [octets, List.cons.injEq] at hoctets
  cases a
  cases b
  simp_all

end V4

namespace V6

/-- An even number of bytes is given back by its pairs. -/
theorem octets_of_pairs (s : Bytes) (h : s.length % 2 = 0) :
    (pairs s).flatMap (fun g => Bytes.ofNat 2 g.toNat) = s := by
  fun_induction pairs s with
  | case1 high low rest ih =>
    have hpair : Bytes.ofNat 2 (UInt16.ofNat (high.toNat * 256 + low.toNat)).toNat = [high, low] := by
      have hnumber : Bytes.toNat [high, low] = high.toNat * 256 + low.toNat := by simp [Bytes.toNat]
      rw [← hnumber]
      exact bytes_of_pair rfl
    have hrest : rest.length % 2 = 0 := by
      simp only [List.length_cons] at h
      omega
    rw [List.flatMap_cons, hpair, ih hrest, List.cons_append, List.cons_append, List.nil_append]
  | case2 s hshort =>
    rcases s with _ | ⟨high, _ | ⟨low, rest⟩⟩
    · rfl
    · simp at h
    · exact absurd rfl (hshort high low rest)

theorem length_pairs (s : Bytes) : (pairs s).length = s.length / 2 := by
  fun_induction pairs s with
  | case1 high low rest ih =>
    simp only [List.length_cons, ih]
    omega
  | case2 s hshort =>
    rcases s with _ | ⟨high, _ | ⟨low, rest⟩⟩
    · rfl
    · simp
    · exact absurd rfl (hshort high low rest)

/-- Sixteen bytes are the octets of an address. -/
theorem exists_octets {s : Bytes} (h : s.length = 16) : ∃ a : V6, a.octets = s := by
  have hgroups : (pairs s).length = 8 := by rw [length_pairs, h]
  exact ⟨⟨pairs s, hgroups⟩, octets_of_pairs s (by rw [h])⟩

/-- An address is the same number by its groups and by its octets. -/
theorem toNat_eq (a : V6) : a.toNat = Bytes.toNat a.octets := by
  suffices hfrom : ∀ (groups : List UInt16) (n : Nat), groups.foldl (fun n g => n * 65536 + g.toNat) n =
      (groups.flatMap fun g => Bytes.ofNat 2 g.toNat).foldl (fun n byte => n * 256 + byte.toNat) n from
    hfrom a.groups 0
  intro groups
  induction groups with
  | nil => exact fun _ => rfl
  | cons g groups ih =>
    intro n
    have hg : g.toNat < 65536 := g.toNat_lt
    have hstep : (Bytes.ofNat 2 g.toNat).foldl (fun n byte => n * 256 + byte.toNat) n = n * 65536 + g.toNat := by
      rw [bytes_of_group]
      simp only [List.foldl_cons, List.foldl_nil, UInt8.toNat_ofNat']
      omega
    rw [List.foldl_cons, List.flatMap_cons, List.foldl_append, hstep, ih]

theorem toNat_inj {a b : V6} (h : a.toNat = b.toNat) : a = b := by
  rw [toNat_eq, toNat_eq] at h
  have hoctets : a.octets = b.octets := Bytes.toNat_inj (a.length_octets.trans b.length_octets.symm) h
  have hread := ofOctets?_octets a
  rw [hoctets, ofOctets?_octets] at hread
  exact (Option.some.inj hread).symm

end V6
end Speedtest.Address
