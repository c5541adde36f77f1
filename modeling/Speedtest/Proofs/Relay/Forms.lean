import Speedtest.Proofs.Address.Reading
import Speedtest.Proofs.Relay.HeaderReading
import Speedtest.Proofs.Text.Utf8

/-!
# The two forms of a header agree

A route is sent as a line of text or in binary form. A line is its fields with single blanks between them, and
no field holds a blank or the start of a line end, so the fields are read back one by one and the line stays
within its limit. A header in binary form announces its own length, so what stands behind the ports is passed
over. Either way the bytes settle on the route and leave the payload.
-/
namespace Speedtest.Relay

/-! ## Lines -/

namespace TextForm

def fieldsOf (family source destination : List Char) (p q : UInt16) : List (List Char) :=
  ["PROXY".toList, family, source, destination, Text.decimal p.toNat, Text.decimal q.toNat]

def fields : Route → List (List Char)
  | .v4 a p b q => fieldsOf "TCP4".toList a.text b.text p q
  | .v6 a p b q => fieldsOf "TCP6".toList a.text b.text p q

theorem line_v4 (a : Address.V4) (p : UInt16) (b : Address.V4) (q : UInt16) :
    line (.v4 a p b q) = "PROXY TCP4 ".toList ++ a.text ++ ' ' :: b.text ++
      ' ' :: Text.decimal p.toNat ++ ' ' :: Text.decimal q.toNat := rfl

theorem line_v6 (a : Address.V6) (p : UInt16) (b : Address.V6) (q : UInt16) :
    line (.v6 a p b q) = "PROXY TCP6 ".toList ++ a.text ++ ' ' :: b.text ++
      ' ' :: Text.decimal p.toNat ++ ' ' :: Text.decimal q.toNat := rfl

theorem line_eq_intercalate (r : Route) : line r = [' '].intercalate (fields r) := by
  have h4 : "PROXY TCP4 ".toList = "PROXY".toList ++ ' ' :: "TCP4".toList ++ [' '] := by decide
  have h6 : "PROXY TCP6 ".toList = "PROXY".toList ++ ' ' :: "TCP6".toList ++ [' '] := by decide
  cases r with
  | v4 a p b q =>
    simp only [line_v4, fields, fieldsOf, h4, List.intercalate_cons_cons, List.intercalate_singleton,
      List.append_assoc, List.cons_append, List.nil_append]
  | v6 a p b q =>
    simp only [line_v6, fields, fieldsOf, h6, List.intercalate_cons_cons, List.intercalate_singleton,
      List.append_assoc, List.cons_append, List.nil_append]

/-- Fields are as graphic as what they are made of. -/
theorem isGraphic_of_mem_fieldsOf {family source destination : List Char} {p q : UInt16}
    (hfamily : ∀ c ∈ family, Text.IsGraphic c) (hsource : ∀ c ∈ source, Text.IsGraphic c)
    (hdestination : ∀ c ∈ destination, Text.IsGraphic c) {field : List Char}
    (hfield : field ∈ fieldsOf family source destination p q) {c : Char} (hc : c ∈ field) : Text.IsGraphic c := by
  simp only [fieldsOf, List.mem_cons, List.not_mem_nil, or_false] at hfield
  rcases hfield with rfl | rfl | rfl | rfl | rfl | rfl
  · exact Text.isGraphic_of_all (by decide) hc
  · exact hfamily c hc
  · exact hsource c hc
  · exact hdestination c hc
  · exact Text.isGraphic_of_mem_decimal hc
  · exact Text.isGraphic_of_mem_decimal hc

theorem isGraphic_of_mem_field {r : Route} {field : List Char} (hfield : field ∈ fields r) {c : Char}
    (hc : c ∈ field) : Text.IsGraphic c := by
  cases r with
  | v4 a p b q =>
    exact isGraphic_of_mem_fieldsOf (fun _ => Text.isGraphic_of_all (by decide))
      (fun _ => Address.V4.isGraphic_of_mem_text) (fun _ => Address.V4.isGraphic_of_mem_text) hfield hc
  | v6 a p b q =>
    exact isGraphic_of_mem_fieldsOf (fun _ => Text.isGraphic_of_all (by decide))
      (fun _ => Address.V6.isGraphic_of_mem_text) (fun _ => Address.V6.isGraphic_of_mem_text) hfield hc

/-- No field holds a blank, so a line is split into its fields. -/
theorem splitOn_fieldsOf {family source destination : List Char} {p q : UInt16}
    (hfamily : ∀ c ∈ family, Text.IsGraphic c) (hsource : ∀ c ∈ source, Text.IsGraphic c)
    (hdestination : ∀ c ∈ destination, Text.IsGraphic c) :
    ([' '].intercalate (fieldsOf family source destination p q)).splitOn ' ' =
      fieldsOf family source destination p q := by
  have hblank : ∀ field ∈ fieldsOf family source destination p q, ' ' ∉ field := by
    intro field hfield hc
    exact absurd (isGraphic_of_mem_fieldsOf hfamily hsource hdestination hfield hc).1 (by decide)
  exact List.splitOn_intercalate ' ' hblank (List.cons_ne_nil _ _)

theorem splitOn_line (r : Route) : (line r).splitOn ' ' = fields r := by
  rw [line_eq_intercalate]
  cases r with
  | v4 a p b q =>
    exact splitOn_fieldsOf (fun _ => Text.isGraphic_of_all (by decide))
      (fun _ => Address.V4.isGraphic_of_mem_text) (fun _ => Address.V4.isGraphic_of_mem_text)
  | v6 a p b q =>
    exact splitOn_fieldsOf (fun _ => Text.isGraphic_of_all (by decide))
      (fun _ => Address.V6.isGraphic_of_mem_text) (fun _ => Address.V6.isGraphic_of_mem_text)

theorem readPort_decimal (p : UInt16) : readPort (Text.decimal p.toNat) = .ok p := by
  have hlead : ¬ ((Text.decimal p.toNat).head? = some '0' ∧ Text.decimal p.toNat ≠ ['0']) :=
    fun h => h.2 (Text.decimal_of_head? h.1)
  have hp : p.toNat < 65536 := p.toNat_lt
  simp only [readPort, hlead, Text.readDigits?_decimal, hp, if_true, if_false, UInt16.ofNat_toNat]

theorem readFields_v4 {source destination : List Char} {a b : Address.V4} {p q : UInt16}
    (hsource : Address.V4.ofText? source = some a) (hdestination : Address.V4.ofText? destination = some b) :
    readFields (fieldsOf "TCP4".toList source destination p q) = .ok (.proxied (.v4 a p b q)) := by
  have hunknown : "TCP4".toList ≠ "UNKNOWN".toList := by decide
  simp only [fieldsOf, readFields, ne_eq, not_true_eq_false, if_false, hunknown, if_true, required, hsource,
    hdestination, readPort_decimal]
  rfl

theorem readFields_v6 {source destination : List Char} {a b : Address.V6} {p q : UInt16}
    (hsource : Address.V6.ofText? source = some a) (hdestination : Address.V6.ofText? destination = some b) :
    readFields (fieldsOf "TCP6".toList source destination p q) = .ok (.proxied (.v6 a p b q)) := by
  have hunknown : "TCP6".toList ≠ "UNKNOWN".toList := by decide
  have hother : "TCP6".toList ≠ "TCP4".toList := by decide
  simp only [fieldsOf, readFields, ne_eq, not_true_eq_false, if_false, hunknown, hother, if_true, required, hsource,
    hdestination, readPort_decimal]
  rfl

theorem readFields_fields (r : Route) : readFields (fields r) = .ok (.proxied r) := by
  cases r with
  | v4 a p b q => exact readFields_v4 a.ofText?_text b.ofText?_text
  | v6 a p b q => exact readFields_v6 a.ofText?_text b.ofText?_text

theorem read_line (r : Route) : read (Text.Utf8.encode (line r)) = .ok (.proxied r) := by
  simp only [read, Text.Utf8.decode?_encode, splitOn_line, readFields_fields]

/-- A line has nothing but blanks and visible ASCII characters. -/
theorem bounds_of_mem_line {r : Route} {c : Char} (hc : c ∈ line r) : 0x20 ≤ c.toNat ∧ c.toNat < 0x80 := by
  rw [line_eq_intercalate] at hc
  rcases Text.mem_intercalate hc with rfl | ⟨field, hfield, hc⟩
  · decide
  · obtain ⟨hlow, hhigh⟩ := isGraphic_of_mem_field hfield hc
    omega

/-- No route is too long for a line. -/
theorem length_line_le (r : Route) : (line r).length + 2 ≤ maxLength := by
  have hport : ∀ p : UInt16, (Text.decimal p.toNat).length ≤ 5 := fun p =>
    Text.length_decimal_le (by decide) (Nat.lt_of_lt_of_le p.toNat_lt (by decide))
  have hlead : "PROXY TCP4 ".toList.length = 11 ∧ "PROXY TCP6 ".toList.length = 11 := by decide
  cases r with
  | v4 a p b q =>
    have ha := a.length_text_le
    have hb := b.length_text_le
    have hp := hport p
    have hq := hport q
    simp only [line_v4, List.length_append, List.length_cons, hlead.1, maxLength]
    omega
  | v6 a p b q =>
    have ha := a.length_text_le
    have hb := b.length_text_le
    have hp := hport p
    have hq := hport q
    simp only [line_v6, List.length_append, List.length_cons, hlead.2, maxLength]
    omega

theorem encode_line (r : Route) :
    Text.Utf8.encode (line r) = (line r).map fun c => UInt8.ofNat c.toNat :=
  Text.Utf8.encode_of_ascii fun _ hc => (bounds_of_mem_line hc).2

theorem bytes_eq (r : Route) : bytes r = Text.Utf8.encode (line r) ++ lineEnd := by
  have hend : Text.Utf8.encode ['\r', '\n'] = lineEnd := by decide
  rw [bytes, Text.Utf8.encode_append, hend]

theorem signature_prefix (r : Route) : signature <+: Text.Utf8.encode (line r) := by
  have hlead : signature = Text.Utf8.encode "PROXY ".toList := by decide
  have hline : ∃ rest, line r = "PROXY ".toList ++ rest := by
    rw [line_eq_intercalate]
    cases r <;> exact ⟨_, rfl⟩
  obtain ⟨rest, hrest⟩ := hline
  rw [hrest, Text.Utf8.encode_append, ← hlead]
  exact List.prefix_append _ _

theorem no_return_line (r : Route) : 0x0D ∉ Text.Utf8.encode (line r) := by
  rw [encode_line]
  intro h
  obtain ⟨c, hc, hbyte⟩ := List.mem_map.1 h
  have hbounds := bounds_of_mem_line hc
  have hnumber : c.toNat % 2 ^ 8 = 0x0D := by
    rw [← UInt8.toNat_ofNat', hbyte]
    rfl
  omega

end TextForm

/-- Bytes among which no line end starts stand in front of the first one. -/
theorem FirstLine.of_not_mem {line rest : Bytes} (h : 0x0D ∉ line) :
    FirstLine (line ++ lineEnd ++ rest) line rest := by
  refine ⟨rfl, fun a b hab => ?_⟩
  rcases Nat.lt_or_ge a.length line.length with hlt | hle
  · -- A line end that starts earlier has its first byte among those of the line.
    have htake := congrArg (List.take (a.length + 1)) hab
    rw [List.append_assoc, List.take_append_of_le_length hlt, List.append_assoc, List.take_length_add_append] at htake
    have hmem : 0x0D ∈ line.take (a.length + 1) := by
      rw [htake]
      exact List.mem_append_right _ List.mem_cons_self
    exact absurd (List.mem_of_mem_take hmem) h
  · exact hle

theorem settles_text (r : Route) (payload : Bytes) :
    Settles (TextForm.bytes r ++ payload) (.ok (some (.proxied r), payload)) := by
  have hlength : (Text.Utf8.encode (TextForm.line r)).length = (TextForm.line r).length := by
    rw [TextForm.encode_line, List.length_map]
  have hread : ofLine (Text.Utf8.encode (TextForm.line r)) payload = .ok (some (.proxied r), payload) := by
    rw [ofLine, TextForm.read_line]
  rw [← hread, TextForm.bytes_eq]
  refine .line ?_ (.of_not_mem (TextForm.no_return_line r)) ?_
  · rw [List.append_assoc]
    exact (TextForm.signature_prefix r).trans (List.prefix_append _ _)
  · rw [hlength]
    exact TextForm.length_line_le r

/-! ## Binary form -/

namespace BinaryForm

theorem port_ofNat (p : UInt16) : port (Bytes.ofNat 2 p.toNat) = p := by
  rw [port, Bytes.toNat_ofNat p.toNat_lt, UInt16.ofNat_toNat]

theorem readV4?_block (a : Address.V4) (p : UInt16) (b : Address.V4) (q : UInt16) (more : Bytes) :
    readV4? (block (.v4 a p b q) ++ more) = some (.v4 a p b q) := by
  have hp := port_ofNat p
  have hq := port_ofNat q
  rw [Address.V6.bytes_of_group] at hp hq
  simp [readV4?, block, Address.V4.octets, Address.V6.bytes_of_group, v4?, hp, hq]

/-- A block of IPv6 is read back, whatever is behind it. -/
theorem readV6?_block (a : Address.V6) (p : UInt16) (b : Address.V6) (q : UInt16) (more : Bytes) :
    readV6? (block (.v6 a p b q) ++ more) = some (.v6 a p b q) := by
  have hp := Bytes.length_ofNat 2 p.toNat
  have hq := Bytes.length_ofNat 2 q.toNat
  generalize hbody : block (.v6 a p b q) ++ more = body
  simp only [block, List.append_assoc] at hbody
  have h16 : body.drop 16 = b.octets ++ (Bytes.ofNat 2 p.toNat ++ (Bytes.ofNat 2 q.toNat ++ more)) := by
    rw [← hbody, List.drop_left' a.length_octets]
  have h32 : body.drop 32 = Bytes.ofNat 2 p.toNat ++ (Bytes.ofNat 2 q.toNat ++ more) := by
    have h := List.drop_drop (i := 16) (j := 16) (l := body)
    rw [h16, List.drop_left' b.length_octets] at h
    exact h.symm
  have h34 : body.drop 34 = Bytes.ofNat 2 q.toNat ++ more := by
    have h := List.drop_drop (i := 2) (j := 32) (l := body)
    rw [h32, List.drop_left' hp] at h
    exact h.symm
  have hsource : body.take 16 = a.octets := by rw [← hbody, List.take_left' a.length_octets]
  have hlength : ¬ body.length < 36 := by
    simp only [← hbody, List.length_append, a.length_octets, b.length_octets, hp, hq]
    omega
  simp only [readV6?, hsource, h16, h32, h34, List.take_left' b.length_octets, List.take_left' hp,
    List.take_left' hq, hlength, Address.V6.ofOctets?_octets, port_ofNat, Option.bind_eq_bind,
    Option.bind_some, if_false]

theorem readBody_block (r : Route) (more : Bytes) :
    readBody ((familyByte r).toNat / 16) (block r ++ more) = .ok (.proxied r) := by
  cases r with
  | v4 a p b q =>
    have hfamily : (0x11 : UInt8).toNat / 16 = 1 := by decide
    rw [familyByte, hfamily, readBody, readV4?_block, required]
  | v6 a p b q =>
    have hfamily : (0x21 : UInt8).toNat / 16 = 2 := by decide
    rw [familyByte, hfamily, readBody, readV6?_block, required]

theorem read_bytes (r : Route) (more : Bytes) : read (bytes r more) = .ok (.proxied r) := by
  have hlead : Text.dropLead? signature (bytes r more) =
      some (0x21 :: familyByte r :: (Bytes.ofNat 2 (block r ++ more).length ++ (block r ++ more))) := by
    rw [Text.dropLead?_eq_some_iff]
    simp [bytes]
  have hversion : ¬ (0x21 : UInt8).toNat / 16 ≠ 2 := by decide
  have hcommand : (0x21 : UInt8).toNat % 16 = 1 := by decide
  obtain ⟨high, low, hlength⟩ : ∃ high low, Bytes.ofNat 2 (block r ++ more).length = [high, low] := ⟨_, _, rfl⟩
  rw [hlength] at hlead
  simp only [read, hlead, List.cons_append, List.nil_append, hversion, if_false, hcommand, readBody_block]

theorem length_bytes (r : Route) (more : Bytes) :
    (bytes r more).length = fixedLength + (block r ++ more).length := by
  have hlead : signature.length = 12 := rfl
  simp only [bytes, List.length_append, List.length_cons, List.length_nil, Bytes.length_ofNat, hlead, fixedLength]

/-- The length that a header announces is its own, whatever stands behind it. -/
theorem headerLength_bytes {r : Route} {more : Bytes} (hfits : (block r ++ more).length ≤ 65535)
    (payload : Bytes) : headerLength (bytes r more ++ payload) = (bytes r more).length := by
  have hbody : ((bytes r more ++ payload).drop 14).take 2 = Bytes.ofNat 2 (block r ++ more).length := by
    have hfront : (signature ++ [0x21, familyByte r]).length = 14 := rfl
    rw [bytes, List.append_assoc, List.append_assoc, List.drop_left' hfront,
      List.take_left' (Bytes.length_ofNat 2 _)]
  rw [headerLength, bodyLength, hbody, Bytes.toNat_ofNat (Nat.lt_succ_of_le hfits), length_bytes]

end BinaryForm

/-- The binary form of a route settles that route, with the payload left. -/
theorem settles_binary {r : Route} {more : Bytes} (hfits : (BinaryForm.block r ++ more).length ≤ 65535)
    (payload : Bytes) :
    Settles (BinaryForm.bytes r more ++ payload) (.ok (some (.proxied r), payload)) := by
  have hlength := BinaryForm.headerLength_bytes hfits payload
  have hlead : BinaryForm.signature <+: BinaryForm.bytes r more ++ payload := by
    simp only [BinaryForm.bytes, List.append_assoc]
    exact List.prefix_append _ _
  have hwhole : headerLength (BinaryForm.bytes r more ++ payload) ≤
      (BinaryForm.bytes r more ++ payload).length := by
    rw [hlength, List.length_append]
    omega
  have h := Settles.binary hlead hwhole
  rwa [hlength, List.take_left, List.drop_left, ofWhole, BinaryForm.read_bytes] at h

/-! ## Streams -/

/-- A stream is read as a header and a payload: when reading may take as long as it likes, and within the time
that a peer has for it. -/
structure Delivers (f : Feed) (h : Header) (payload : Bytes) : Prop where
  awaited : whole (await f) = some (.ok (some h, payload))
  inTime : ∃ left, read f = .ok (some h, left) ∧ left.bytes = payload ∧ left.ending = f.ending

/-- A stream that is settled by its header delivers the payload, however it is cut. -/
theorem Delivers.of_settles {f : Feed} {h : Header} {payload : Bytes}
    (hset : Settles f.bytes (.ok (some h, payload))) : Delivers f h payload := by
  have hawait := (whole_settled f).1 _ hset
  obtain ⟨hread, hending⟩ := read_of_whole f
  rw [hawait, Option.getD_some] at hread
  refine ⟨hawait, ?_⟩
  cases hf : read f with
  | error e =>
    rw [hf] at hread
    exact nomatch hread
  | ok found =>
    obtain ⟨h', left⟩ := found
    rw [hf] at hread
    obtain ⟨rfl, hbytes⟩ := Prod.mk.inj (Except.ok.inj hread)
    exact ⟨left, rfl, hbytes, hending _ _ hf⟩

/-- However a stream is cut and however it ends: whether a route is sent as a line or in binary form, with any bytes
behind the ports that the body has room for, the reader takes off that route and leaves the payload. No line
is too long. -/
theorem forms_deliver (r : Route) (more payload : Bytes)
    (hfits : (BinaryForm.block r ++ more).length ≤ 65535) (f g : Feed)
    (hf : f.bytes = TextForm.bytes r ++ payload) (hg : g.bytes = BinaryForm.bytes r more ++ payload) :
    (TextForm.bytes r).length ≤ TextForm.maxLength ∧
    Delivers f (.proxied r) payload ∧ Delivers g (.proxied r) payload := by
  refine ⟨?_, .of_settles (hf ▸ settles_text r payload), .of_settles (hg ▸ settles_binary hfits payload)⟩
  rw [TextForm.bytes_eq, TextForm.encode_line, List.length_append, List.length_map]
  exact TextForm.length_line_le r

/-- A route between addresses that carry IPv4 addresses and addresses with a run of zeros. -/
def acrossFamilies : Route :=
  .v6 ⟨[0, 0, 0, 0, 0, 0xFFFF, 0xC000, 0x0201], rfl⟩ 51000 ⟨[0x2001, 0xDB8, 0, 0, 0, 0, 0, 1], rfl⟩ 443

/-- Its line, cut inside the signature, inside an address and inside the line end. -/
def asLine : Feed :=
  ⟨[Bytes.ofAscii "PROX", Bytes.ofAscii "Y TCP6 ::ffff:192.0", Bytes.ofAscii ".2.1 2001:db8::1 51000 443", [0x0D],
    [0x0A, 71, 69], [84]], .silence⟩

/-- Its header in binary form with three bytes behind the ports, cut inside the length and the ports. -/
def inBinary : Feed :=
  ⟨[BinaryForm.signature ++ [0x21, 0x21, 0], [39, 0, 0, 0, 0, 0, 0, 0, 0, 0, 0, 255, 255, 192, 0, 2, 1],
    [32, 1, 13, 184, 0, 0, 0, 0, 0, 0, 0, 0, 0, 0, 0, 1, 199], [56, 1, 187, 4, 0], [0, 71], [69, 84]],
    .closed⟩

theorem forms_deliver_acrossFamilies :
    (TextForm.bytes acrossFamilies).length ≤ TextForm.maxLength ∧
    Delivers asLine (.proxied acrossFamilies) [71, 69, 84] ∧
    Delivers inBinary (.proxied acrossFamilies) [71, 69, 84] :=
  forms_deliver acrossFamilies [4, 0, 0] [71, 69, 84] (by decide) asLine inBinary (by decide) (by decide)

end Speedtest.Relay
