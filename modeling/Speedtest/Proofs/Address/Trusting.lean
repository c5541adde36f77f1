import Mathlib.Data.List.Induction
import Speedtest.Address.Network
import Speedtest.Proofs.Address.Canonical

/-!
# Who is trusted

`Spans` says which addresses a network holds: those of its family whose first bits are those of the network's address,
as many as its count says. Bits of that address behind them do not matter. The list of entries is read as a whole or not
at all, one network an entry, and a peer is trusted if one of them spans what it counts as, or if there are none.
-/
namespace Speedtest.Address

/-! ## Bits -/

/-- A bit of a byte string, the highest of its first byte first. -/
def bit (s : Bytes) (i : Nat) : Bool := (s[i / 8]?.getD 0).toNat.testBit (7 - i % 8)

theorem bit_append_left {s : Bytes} {i : Nat} (h : i < 8 * s.length) (t : Bytes) : bit (s ++ t) i = bit s i := by
  have hbyte : i / 8 < s.length := by omega
  rw [bit, bit, List.getElem?_append_left hbyte]

/-- The bits of the number that bytes write are the bits of the bytes, counted from the front. -/
theorem testBit_toNat {s : Bytes} {i : Nat} (h : i < 8 * s.length) :
    (Bytes.toNat s).testBit (8 * s.length - 1 - i) = bit s i := by
  induction s using List.reverseRecOn with
  | nil => exact absurd h (Nat.not_lt_zero i)
  | append_singleton front last ih =>
    -- The last byte is the lowest eight bits of the number, and those above are the number of the bytes before it.
    have hnumber : Bytes.toNat (front ++ [last]) = Nat.pow 2 8 * Bytes.toNat front + last.toNat := by
      rw [Bytes.toNat_append_singleton, Nat.mul_comm]
    have hsplit (j : Nat) : (Bytes.toNat (front ++ [last])).testBit j =
        if j < 8 then last.toNat.testBit j else (Bytes.toNat front).testBit (j - 8) := by
      rw [hnumber]
      exact Nat.testBit_two_pow_mul_add _ last.toNat_lt j
    rw [List.length_append, List.length_singleton] at h ⊢
    rw [hsplit]
    by_cases hi : i < 8 * front.length
    · have hplace : 8 * (front.length + 1) - 1 - i - 8 = 8 * front.length - 1 - i := by omega
      rw [if_neg (by omega), hplace, ih hi, bit_append_left hi]
    · have hplace : 8 * (front.length + 1) - 1 - i = 7 - i % 8 := by omega
      have hbyte : i / 8 = front.length := by omega
      rw [if_pos (by omega), hplace, bit, hbyte, List.getElem?_append_right (Nat.le_refl _), Nat.sub_self]
      rfl

theorem testBit_div (n k i : Nat) : (n / Nat.pow 2 k).testBit i = n.testBit (i + k) := Nat.testBit_div_two_pow n i

/-- Two numbers agree on their first bits when these are the same one by one. -/
theorem Network.agree_iff {width bits a b : Nat} (hbits : bits ≤ width) (ha : a < Nat.pow 2 width)
    (hb : b < Nat.pow 2 width) :
    agree width bits a b = true ↔ ∀ i < bits, a.testBit (width - 1 - i) = b.testBit (width - 1 - i) := by
  have hbeyond {n i : Nat} (hn : n < Nat.pow 2 width) (hi : ¬ i < bits) :
      (n / Nat.pow 2 (width - bits)).testBit i = false := by
    rw [testBit_div]
    exact Nat.testBit_lt_two_pow (Nat.lt_of_lt_of_le hn (Nat.pow_le_pow_right (by decide) (by omega)))
  rw [agree, beq_iff_eq]
  constructor
  · intro h i hi
    -- Counted from the top, a bit keeps its place when the bits below the shared ones are cut off.
    have hplace : bits - 1 - i + (width - bits) = width - 1 - i := by omega
    have hsame := congrArg (·.testBit (bits - 1 - i)) h
    simp only [testBit_div, hplace] at hsame
    exact hsame
  · intro h
    apply Nat.eq_of_testBit_eq
    intro i
    by_cases hi : i < bits
    · have hplace : width - 1 - (bits - 1 - i) = i + (width - bits) := by omega
      have hsame := h (bits - 1 - i) (by omega)
      rwa [hplace, ← testBit_div, ← testBit_div] at hsame
    · rw [hbeyond ha hi, hbeyond hb hi]

/-! ## Members of a network -/

namespace Network

/-- The addresses that a network holds. -/
inductive Spans : Network → Ip → Prop where
  | v4 {net a : V4} {bits : Fin 33} (h : ∀ i < bits.val, bit net.octets i = bit a.octets i) :
    Spans (.v4 net bits) (.v4 a)
  | v6 {net a : V6} {bits : Fin 129} (h : ∀ i < bits.val, bit net.octets i = bit a.octets i) :
    Spans (.v6 net bits) (.v6 a)

/-- Addresses of so many bytes agree on their first bits when the bits of their bytes do. -/
theorem agree_bytes_iff {s t : Bytes} (length : Nat) {bits : Nat} (hs : s.length = length) (ht : t.length = length)
    (hbits : bits ≤ 8 * length) :
    agree (8 * length) bits (Bytes.toNat s) (Bytes.toNat t) = true ↔ ∀ i < bits, bit s i = bit t i := by
  have hlt {u : Bytes} (hu : u.length = length) : Bytes.toNat u < Nat.pow 2 (8 * length) := by
    have hpow : Nat.pow 2 (8 * length) = Nat.pow 256 length := Nat.pow_mul 2 8 length
    rw [hpow, ← hu]
    exact Bytes.toNat_lt u
  have hbit {u : Bytes} (hu : u.length = length) {i : Nat} (hi : i < bits) :
      (Bytes.toNat u).testBit (8 * length - 1 - i) = bit u i := by
    have h := testBit_toNat (s := u) (i := i) (by omega)
    rwa [hu] at h
  rw [agree_iff hbits (hlt hs) (hlt ht)]
  constructor
  · intro h i hi
    rw [← hbit hs hi, ← hbit ht hi]
    exact h i hi
  · intro h i hi
    rw [hbit hs hi, hbit ht hi]
    exact h i hi

/-- Membership by prefix arithmetic is agreement of the leading bits. -/
theorem contains_iff {n : Network} {a : Ip} : n.contains a = true ↔ n.Spans a := by
  cases n with
  | v4 net bits =>
    cases a with
    | v4 a =>
      have hagree := agree_bytes_iff (s := net.octets) (t := a.octets) 4 rfl rfl (Nat.le_of_lt_succ bits.isLt)
      refine hagree.trans ⟨.v4, fun h => ?_⟩
      cases h with
      | v4 h => exact h
    | v6 a => exact ⟨nofun, nofun⟩
  | v6 net bits =>
    cases a with
    | v4 a => exact ⟨nofun, nofun⟩
    | v6 a =>
      have hagree := agree_bytes_iff 16 net.length_octets a.length_octets (Nat.le_of_lt_succ bits.isLt)
      rw [← V6.toNat_eq, ← V6.toNat_eq] at hagree
      refine hagree.trans ⟨.v6, fun h => ?_⟩
      cases h with
      | v6 h => exact h

end Network

namespace AllowList

/-- The peers that a list trusts: all of them if it is empty, and otherwise those that count as an address of one of its
networks. -/
theorem trusts_iff_spans {list : AllowList} {peer : Ip} :
    list.trusts peer = true ↔ list.networks = [] ∨ ∃ n ∈ list.networks, ∃ a, peer.CountsAs a ∧ n.Spans a := by
  rw [trusts, Bool.or_eq_true, List.isEmpty_iff, List.any_eq_true]
  constructor
  · rintro (hempty | ⟨n, hn, hcontains⟩)
    · exact .inl hempty
    · exact .inr ⟨n, hn, peer.canonical, Ip.countsAs_iff.2 rfl, Network.contains_iff.1 hcontains⟩
  · rintro (hempty | ⟨n, hn, a, hcounts, hspans⟩)
    · exact .inl hempty
    · obtain rfl := Ip.countsAs_iff.1 hcounts
      exact .inr ⟨n, hn, Network.contains_iff.2 hspans⟩

/-! ## Reading the entries -/

/-- An entry without the blanks around it. -/
def bare (entry : String) : List Char := Text.trim entry.toList

def named? (entry : String) : Option Network := Network.ofText? (bare entry)

/-- The first entry that names no network. -/
def FirstBad (entries : List String) (bad : String) : Prop :=
  ∃ before entry after, entries = before ++ entry :: after ∧ (∀ e ∈ before, named? e ≠ none) ∧ named? entry = none ∧
    bad = String.ofList (bare entry)

theorem readEntry_of_named? {entry : String} {n : Network} (h : named? entry = some n) : readEntry entry = .ok n := by
  rw [named?, bare] at h
  rw [readEntry, h]

theorem readEntry_of_not_named? {entry : String} (h : named? entry = none) :
    readEntry entry = .error ⟨String.ofList (bare entry)⟩ := by
  rw [named?, bare] at h
  rw [readEntry, h, bare]

theorem mapM_cons_ok {entry : String} {n : Network} (h : named? entry = some n) (entries : List String) :
    (entry :: entries).mapM readEntry = (entries.mapM readEntry).map (n :: ·) := by
  rw [List.mapM_cons, readEntry_of_named? h]
  cases entries.mapM readEntry <;> rfl

theorem mapM_cons_error {entry : String} (h : named? entry = none) (entries : List String) :
    (entry :: entries).mapM readEntry = .error ⟨String.ofList (bare entry)⟩ := by
  rw [List.mapM_cons, readEntry_of_not_named? h]
  rfl

/-- What reading the entries comes to: their networks, or the first that names none. -/
theorem mapM_cases (entries : List String) :
    (∃ networks, entries.mapM readEntry = .ok networks ∧ networks.map some = entries.map named?) ∨
    (∃ bad, entries.mapM readEntry = .error ⟨bad⟩ ∧ FirstBad entries bad) := by
  induction entries with
  | nil => exact .inl ⟨[], rfl, rfl⟩
  | cons entry entries ih =>
    cases hentry : named? entry with
    | none => exact .inr ⟨_, mapM_cons_error hentry entries, [], entry, entries, rfl, nofun, hentry, rfl⟩
    | some n =>
      rw [mapM_cons_ok hentry]
      rcases ih with ⟨networks, hread, hnamed⟩ | ⟨bad, hread, before, e, after, rfl, hbefore, he, rfl⟩
      · refine .inl ⟨n :: networks, by rw [hread]; rfl, ?_⟩
        rw [List.map_cons, List.map_cons, hnamed, hentry]
      · refine .inr ⟨_, by rw [hread]; rfl, entry :: before, e, after, rfl, ?_, he, rfl⟩
        intro e' he'
        rcases List.mem_cons.1 he' with rfl | he'
        · rw [hentry]
          nofun
        · exact hbefore e' he'

/-- What reading a list of entries has to come to: the first entry that names no network if there is one, and otherwise
a network for each, so that a list with entries does not come to trust everyone. -/
structure Checked (entries : List String) (result : Except BadEntry AllowList) : Prop where
  fails : (∃ bad, result = .error bad) ↔ ∃ e ∈ entries, named? e = none
  first : ∀ bad, result = .error bad → FirstBad entries bad.entry
  networks : ∀ list, result = .ok list → list.networks.map some = entries.map named?
  length : ∀ list, result = .ok list → list.networks.length = entries.length ∧ (entries ≠ [] → list.networks ≠ [])

theorem exists_of_firstBad {entries : List String} {bad : String} (h : FirstBad entries bad) :
    ∃ e ∈ entries, named? e = none := by
  obtain ⟨before, e, after, rfl, -, he, -⟩ := h
  exact ⟨e, List.mem_append_right before List.mem_cons_self, he⟩

theorem length_networks {entries : List String} {networks : List Network}
    (h : networks.map some = entries.map named?) : networks.length = entries.length := by
  have hlength := congrArg List.length h
  rwa [List.length_map, List.length_map] at hlength

theorem mem_networks {entries : List String} {networks : List Network} (h : networks.map some = entries.map named?)
    {n : Network} : n ∈ networks ↔ ∃ e ∈ entries, named? e = some n := by
  have hmem : n ∈ networks ↔ some n ∈ networks.map some := by simp
  rw [hmem, h, List.mem_map]

theorem ofEntries_cases (entries : List String) :
    (∃ networks, ofEntries entries = .ok ⟨networks⟩ ∧ networks.map some = entries.map named?) ∨
    (∃ bad, ofEntries entries = .error ⟨bad⟩ ∧ FirstBad entries bad) := by
  rcases mapM_cases entries with ⟨networks, hread, hnamed⟩ | ⟨bad, hread, hbad⟩
  · exact .inl ⟨networks, by rw [ofEntries, hread]; rfl, hnamed⟩
  · exact .inr ⟨bad, by rw [ofEntries, hread]; rfl, hbad⟩

theorem named_of_networks {entries : List String} {networks : List Network}
    (h : networks.map some = entries.map named?) {e : String} (he : e ∈ entries) : named? e ≠ none := by
  obtain ⟨n, -, hn⟩ := List.mem_map.1 (h ▸ List.mem_map_of_mem he)
  rw [← hn]
  nofun

/-- The list of some entries is there exactly where each entry names a network, and otherwise tells the first that
does not. -/
theorem checked_ofEntries (entries : List String) : Checked entries (ofEntries entries) := by
  rcases ofEntries_cases entries with ⟨networks, hread, hnamed⟩ | ⟨bad, hread, hbad⟩ <;> rw [hread]
  · have hlength := length_networks hnamed
    constructor
    case fails => exact ⟨nofun, fun ⟨e, he, hnone⟩ => absurd hnone (named_of_networks hnamed he)⟩
    case first => nofun
    case networks =>
      rintro list hlist
      obtain rfl := Except.ok.inj hlist
      exact hnamed
    case length =>
      rintro list hlist
      obtain rfl := Except.ok.inj hlist
      refine ⟨hlength, fun hne hempty => hne (List.eq_nil_of_length_eq_zero ?_)⟩
      rw [← hlength]
      exact congrArg List.length hempty
  · constructor
    case fails => exact ⟨fun _ => exists_of_firstBad hbad, fun _ => ⟨_, rfl⟩⟩
    case first =>
      rintro _ hsame
      obtain rfl := Except.error.inj hsame
      exact hbad
    case networks => nofun
    case length => nofun

/-! ## What trust depends on -/

/-- Both readings fail, or both lists trust the same peers. -/
inductive SameTrust : Except BadEntry AllowList → Except BadEntry AllowList → Prop where
  | fail (bad bad' : BadEntry) : SameTrust (.error bad) (.error bad')
  | trust {list list' : AllowList} (h : ∀ peer, list.trusts peer = list'.trusts peer) : SameTrust (.ok list) (.ok list')

theorem trusts_of_subset {list list' : AllowList} (hne : list.networks ≠ [])
    (h : ∀ n ∈ list.networks, n ∈ list'.networks) {peer : Ip} (htrusts : list.trusts peer = true) :
    list'.trusts peer = true := by
  rcases trusts_iff_spans.1 htrusts with hempty | ⟨n, hn, hspans⟩
  · exact absurd hempty hne
  · exact trusts_iff_spans.2 (.inr ⟨n, h n hn, hspans⟩)

theorem trusts_congr {list list' : AllowList} (h : ∀ n, n ∈ list.networks ↔ n ∈ list'.networks) (peer : Ip) :
    list.trusts peer = list'.trusts peer := by
  rw [Bool.eq_iff_iff, trusts_iff_spans, trusts_iff_spans, List.eq_nil_iff_forall_not_mem,
    List.eq_nil_iff_forall_not_mem]
  simp only [h]

theorem sameTrust_of_same_entries {entries entries' : List String} (h : ∀ e, e ∈ entries ↔ e ∈ entries') :
    SameTrust (ofEntries entries) (ofEntries entries') := by
  rcases ofEntries_cases entries with ⟨networks, hread, hnamed⟩ | ⟨bad, hread, hbad⟩ <;>
    rcases ofEntries_cases entries' with ⟨networks', hread', hnamed'⟩ | ⟨bad', hread', hbad'⟩ <;> rw [hread, hread']
  · refine .trust (trusts_congr fun n => ?_)
    rw [mem_networks hnamed, mem_networks hnamed']
    simp only [h]
  · obtain ⟨e, he, hnone⟩ := exists_of_firstBad hbad'
    exact absurd hnone (named_of_networks hnamed ((h e).2 he))
  · obtain ⟨e, he, hnone⟩ := exists_of_firstBad hbad
    exact absurd hnone (named_of_networks hnamed' ((h e).1 he))
  · exact .fail _ _

/-- A list is read whole, with a network for each entry, or the first entry that names none is reported. It trusts whom
one of its networks spans, and everyone if it has none. So neither the order of the entries nor their repetition
matters, and more entries take no trust away where there were some. -/
theorem trust_of_entries (entries : List String) :
    Checked entries (ofEntries entries) ∧
    (∀ (list : AllowList) (peer : Ip), list.trusts peer = true ↔
      list.networks = [] ∨ ∃ n ∈ list.networks, ∃ a, peer.CountsAs a ∧ n.Spans a) ∧
    (∀ entries', (∀ e, e ∈ entries ↔ e ∈ entries') → SameTrust (ofEntries entries) (ofEntries entries')) ∧
    ∀ entries' list list', entries ≠ [] → (∀ e ∈ entries, e ∈ entries') → ofEntries entries = .ok list →
      ofEntries entries' = .ok list' → ∀ peer, list.trusts peer = true → list'.trusts peer = true := by
  refine ⟨checked_ofEntries entries, fun _ _ => trusts_iff_spans, fun _ => sameTrust_of_same_entries, ?_⟩
  intro entries' list list' hne hsub hread hread' peer
  have hnamed := (checked_ofEntries entries).networks list hread
  have hnamed' := (checked_ofEntries entries').networks list' hread'
  refine trusts_of_subset (((checked_ofEntries entries).length list hread).2 hne) fun n hn => ?_
  obtain ⟨e, he, hn⟩ := (mem_networks hnamed).1 hn
  exact (mem_networks hnamed').2 ⟨e, hsub e he, hn⟩

/-- Blanks, host bits and both families. -/
def relays : List String := [" 10.20.30.40/8", "2001:db8::/32 ", "192.0.2.7"]

/-- The same entries in another order, one of them twice, and one that holds every IPv6 address. -/
def moreRelays : List String := ["192.0.2.7", "::1/0", "2001:db8::/32 ", " 10.20.30.40/8", "192.0.2.7"]

def relayList : AllowList :=
  ⟨[.v4 ⟨10, 20, 30, 40⟩ ⟨8, by decide⟩, .v6 ⟨[0x2001, 0xdb8, 0, 0, 0, 0, 0, 0], rfl⟩ ⟨32, by decide⟩,
    .v4 ⟨192, 0, 2, 7⟩ ⟨32, by decide⟩]⟩

def moreRelayList : AllowList :=
  ⟨[.v4 ⟨192, 0, 2, 7⟩ ⟨32, by decide⟩, .v6 ⟨[0, 0, 0, 0, 0, 0, 0, 1], rfl⟩ ⟨0, by decide⟩,
    .v6 ⟨[0x2001, 0xdb8, 0, 0, 0, 0, 0, 0], rfl⟩ ⟨32, by decide⟩, .v4 ⟨10, 20, 30, 40⟩ ⟨8, by decide⟩,
    .v4 ⟨192, 0, 2, 7⟩ ⟨32, by decide⟩]⟩

/-- A peer of the IPv4 network that connects over IPv6. -/
def carriedPeer : Ip := .v6 ⟨[0, 0, 0, 0, 0, 0xFFFF, 0x0A01, 0x0203], rfl⟩

/-- Two lists of relays, one within the other, and a list that a bad entry spoils. -/
theorem trust_of_entries_relays :
    relays ≠ [] ∧ (∀ e ∈ relays, e ∈ moreRelays) ∧ ofEntries relays = .ok relayList ∧
    ofEntries moreRelays = .ok moreRelayList ∧ relayList.trusts carriedPeer = true ∧
    moreRelayList.trusts carriedPeer = true ∧ FirstBad ("::1" :: " 10.0.0.0/33 " :: relays) "10.0.0.0/33" := by
  have hread : ofEntries relays = .ok relayList := by decide
  have hread' : ofEntries moreRelays = .ok moreRelayList := by decide
  have htrusts : relayList.trusts carriedPeer = true := by decide
  obtain ⟨-, -, -, hmore⟩ := trust_of_entries relays
  obtain ⟨hchecked, -⟩ := trust_of_entries ("::1" :: " 10.0.0.0/33 " :: relays)
  refine ⟨by decide, by decide, hread, hread', htrusts, ?_, ?_⟩
  · exact hmore moreRelays relayList moreRelayList (by decide) (by decide) hread hread' carriedPeer htrusts
  · exact hchecked.first ⟨"10.0.0.0/33"⟩ (by decide)

end AllowList
end Speedtest.Address
