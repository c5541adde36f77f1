import Speedtest.Proofs.Address.Spelling
import Speedtest.Proofs.Relay.Forms
import Speedtest.Relay.Cursor

/-!
# The layout of a header in binary form

The first sixteen bytes say whether a header is a route or the relay's own, and for a route how wide an address
is. Behind them stand the two addresses and the two ports at fixed places, so any bytes that are long enough
there are the block of one route. A cursor is asked for no more than that, and nothing else is looked at.
-/
namespace Speedtest.Relay.BinaryForm

def highNibble (s : Bytes) (position : Nat) : Nat := (s.getD position 0).toNat / 16

def lowNibble (s : Bytes) (position : Nat) : Nat := (s.getD position 0).toNat % 16

/-- The number that stands in a field, the high byte first. -/
def field (s : Bytes) (position width : Nat) : Nat := Bytes.toNat ((s.drop position).take width)

/-- Bytes start with a whole fixed part that has the right signature and the right version, and a command. -/
structure Leads (s : Bytes) (command : Nat) : Prop where
  whole : fixedLength ≤ s.length
  signature : signature <+: s
  version : highNibble s 12 = 2
  command : lowNibble s 12 = command

def family (s : Bytes) : Nat := highNibble s 13

/-- A command to relay with two addresses of a width, and two ports behind them. -/
structure HasBlock (s : Bytes) (code width source destination sourcePort destinationPort : Nat) : Prop where
  leads : Leads s 1
  family : family s = code
  whole : fixedLength + (2 * width + 4) ≤ s.length
  source : field s fixedLength width = source
  destination : field s (fixedLength + width) width = destination
  sourcePort : field s (fixedLength + 2 * width) 2 = sourcePort
  destinationPort : field s (fixedLength + 2 * width + 2) 2 = destinationPort

def Carries (s : Bytes) : Route → Prop
  | .v4 a p b q => HasBlock s 1 4 a.toNat b.toNat p.toNat q.toNat
  | .v6 a p b q => HasBlock s 2 16 a.toNat b.toNat p.toNat q.toNat

/-- Bytes have room for a route. -/
def IsRelayed (s : Bytes) : Prop :=
  Leads s 1 ∧ (family s = 1 ∧ fixedLength + 12 ≤ s.length ∨ family s = 2 ∧ fixedLength + 36 ≤ s.length)

/-- Bytes say that the connection is the relay's own, or not one of addresses. -/
def IsOwn (s : Bytes) : Prop := Leads s 0 ∨ Leads s 1 ∧ (family s = 0 ∨ family s = 3)

/-- The length of the addresses and ports that a command to relay has. -/
def blockLength (s : Bytes) : Nat :=
  if lowNibble s 12 = 1 then
    match family s with
    | 1 => 12
    | 2 => 36
    | _ => 0
  else 0

/-- Bytes agree but for the transport, the length that is announced, and what stands behind the block. -/
structure AgreeInBlock (s t : Bytes) : Prop where
  whole : fixedLength ≤ s.length ↔ fixedLength ≤ t.length
  lead : s.take 13 = t.take 13
  family : family s = family t
  block : (s.drop fixedLength).take (blockLength s) = (t.drop fixedLength).take (blockLength s)

/-! ## Cursors -/

namespace Cursor

theorem run_take {s : Bytes} {width : Nat} (h : s.length = width) (rest : Bytes) :
    (take width).run (s ++ rest) = some (s, rest) := by
  have hwithin : width ≤ (s ++ rest).length := by
    rw [List.length_append]
    omega
  show take width (s ++ rest) = _
  rw [take, if_pos hwithin, List.take_left' h, List.drop_left' h]

theorem run_v4 (a : Address.V4) (rest : Bytes) : v4.run (a.octets ++ rest) = some (a, rest) := by
  have hlength : a.octets.length = 4 := rfl
  have hread : v4? a.octets = some a := rfl
  simp only [v4, StateT.run_bind, run_take hlength, Option.bind_eq_bind, Option.bind_some]
  simp [hread]

theorem run_v6 (a : Address.V6) (rest : Bytes) : v6.run (a.octets ++ rest) = some (a, rest) := by
  simp only [v6, StateT.run_bind, run_take a.length_octets, Option.bind_eq_bind, Option.bind_some]
  simp [Address.V6.ofOctets?_octets]

theorem run_port (p : UInt16) (rest : Bytes) : port.run (Bytes.ofNat 2 p.toNat ++ rest) = some (p, rest) := by
  have hlength : (Bytes.ofNat 2 p.toNat).length = 2 := Bytes.length_ofNat 2 _
  simp only [port, StateT.run_map, run_take hlength]
  simp [port_ofNat]

theorem run_routeV4 (a : Address.V4) (p : UInt16) (b : Address.V4) (q : UInt16) (more : Bytes) :
    routeV4.run (block (.v4 a p b q) ++ more) = some (.v4 a p b q, more) := by
  simp only [routeV4, block, List.append_assoc, StateT.run_bind, run_v4, run_port, Option.bind_eq_bind,
    Option.bind_some, StateT.run_pure, Option.pure_def]

theorem run_routeV6 (a : Address.V6) (p : UInt16) (b : Address.V6) (q : UInt16) (more : Bytes) :
    routeV6.run (block (.v6 a p b q) ++ more) = some (.v6 a p b q, more) := by
  simp only [routeV6, block, List.append_assoc, StateT.run_bind, run_v6, run_port, Option.bind_eq_bind,
    Option.bind_some, StateT.run_pure, Option.pure_def]

end Cursor

/-! ## Blocks -/

theorem exists_parts {body : Bytes} (width : Nat) (h : 2 * width + 4 ≤ body.length) :
    ∃ x y u v more, body = x ++ y ++ u ++ v ++ more ∧
      x.length = width ∧ y.length = width ∧ u.length = 2 ∧ v.length = 2 := by
  refine ⟨body.take width, (body.drop width).take width, (body.drop (width + width)).take 2,
    (body.drop (width + width + 2)).take 2, body.drop (width + width + 2 + 2), ?_, ?_, ?_, ?_, ?_⟩
  · rw [← List.take_add, ← List.take_add, ← List.take_add, List.take_append_drop]
  all_goals
    simp only [List.length_take, List.length_drop]
    omega

/-- A body that is long enough starts with the block of a route. -/
theorem exists_blockV4 {body : Bytes} (h : 12 ≤ body.length) :
    ∃ a p b q more, body = block (.v4 a p b q) ++ more := by
  obtain ⟨x, y, u, v, more, hbody, hx, hy, hu, hv⟩ := exists_parts 4 h
  obtain ⟨a, rfl⟩ := Address.V4.exists_octets hx
  obtain ⟨b, rfl⟩ := Address.V4.exists_octets hy
  refine ⟨a, port u, b, port v, more, ?_⟩
  rw [hbody, block, port, port, Address.bytes_of_pair hu, Address.bytes_of_pair hv]

theorem exists_blockV6 {body : Bytes} (h : 36 ≤ body.length) :
    ∃ a p b q more, body = block (.v6 a p b q) ++ more := by
  obtain ⟨x, y, u, v, more, hbody, hx, hy, hu, hv⟩ := exists_parts 16 h
  obtain ⟨a, rfl⟩ := Address.V6.exists_octets hx
  obtain ⟨b, rfl⟩ := Address.V6.exists_octets hy
  refine ⟨a, port u, b, port v, more, ?_⟩
  rw [hbody, block, port, port, Address.bytes_of_pair hu, Address.bytes_of_pair hv]

theorem field_append {front x : Bytes} {position width : Nat} (hfront : front.length = position)
    (hx : x.length = width) (rest : Bytes) : field (front ++ (x ++ rest)) position width = Bytes.toNat x := by
  rw [field, List.drop_left' hfront, List.take_left' hx]

/-- What stands at the places of a block. -/
theorem fields_block {front x y : Bytes} {width : Nat} (hfront : front.length = fixedLength) (hx : x.length = width)
    (hy : y.length = width) (p q : UInt16) (more : Bytes) {s : Bytes}
    (hs : s = front ++ (x ++ y ++ Bytes.ofNat 2 p.toNat ++ Bytes.ofNat 2 q.toNat ++ more)) :
    field s fixedLength width = Bytes.toNat x ∧ field s (fixedLength + width) width = Bytes.toNat y ∧
      field s (fixedLength + 2 * width) 2 = p.toNat ∧ field s (fixedLength + 2 * width + 2) 2 = q.toNat := by
  have hp : (Bytes.ofNat 2 p.toNat).length = 2 := Bytes.length_ofNat 2 _
  have hq : (Bytes.ofNat 2 q.toNat).length = 2 := Bytes.length_ofNat 2 _
  have hafterSource : (front ++ x).length = fixedLength + width := by
    rw [List.length_append]
    omega
  have hafterDestination : (front ++ x ++ y).length = fixedLength + 2 * width := by
    rw [List.length_append]
    omega
  have hafterPort : (front ++ x ++ y ++ Bytes.ofNat 2 p.toNat).length = fixedLength + 2 * width + 2 := by
    rw [List.length_append]
    omega
  have hsource := field_append hfront hx (y ++ (Bytes.ofNat 2 p.toNat ++ (Bytes.ofNat 2 q.toNat ++ more)))
  have hdestination := field_append hafterSource hy (Bytes.ofNat 2 p.toNat ++ (Bytes.ofNat 2 q.toNat ++ more))
  have hsourcePort := field_append hafterDestination hp (Bytes.ofNat 2 q.toNat ++ more)
  have hdestinationPort := field_append hafterPort hq more
  rw [Bytes.toNat_ofNat p.toNat_lt] at hsourcePort
  rw [Bytes.toNat_ofNat q.toNat_lt] at hdestinationPort
  simp only [List.append_assoc] at hs hsource hdestination hsourcePort hdestinationPort
  rw [hs]
  exact ⟨hsource, hdestination, hsourcePort, hdestinationPort⟩

/-- A block at its place in the header has its parts at their places and nowhere else. -/
theorem hasBlock_iff {s front x y more : Bytes} {code width : Nat} {p q : UInt16} (hleads : Leads s 1)
    (hfamily : family s = code) (hfront : front.length = fixedLength) (hx : x.length = width) (hy : y.length = width)
    (hs : s = front ++ (x ++ y ++ Bytes.ofNat 2 p.toNat ++ Bytes.ofNat 2 q.toNat ++ more))
    {source destination sourcePort destinationPort : Nat} :
    HasBlock s code width source destination sourcePort destinationPort ↔
      source = Bytes.toNat x ∧ destination = Bytes.toNat y ∧
        sourcePort = p.toNat ∧ destinationPort = q.toNat := by
  obtain ⟨hsource, hdestination, hsourcePort, hdestinationPort⟩ := fields_block hfront hx hy p q more hs
  constructor
  · intro h
    exact ⟨h.source.symm.trans hsource, h.destination.symm.trans hdestination,
      h.sourcePort.symm.trans hsourcePort, h.destinationPort.symm.trans hdestinationPort⟩
  · rintro ⟨rfl, rfl, rfl, rfl⟩
    have hwhole : fixedLength + (2 * width + 4) ≤ s.length := by
      simp only [hs, List.length_append, hfront, hx, hy, Bytes.length_ofNat]
      omega
    exact ⟨hleads, hfamily, hwhole, hsource, hdestination, hsourcePort, hdestinationPort⟩

/-- Bytes carry the route of their block and no other. -/
theorem carries_blockV4_iff {s front more : Bytes} {a b : Address.V4} {p q : UInt16} (hleads : Leads s 1)
    (hfamily : family s = 1) (hfront : front.length = fixedLength)
    (hs : s = front ++ (block (.v4 a p b q) ++ more)) {r : Route} : Carries s r ↔ r = .v4 a p b q := by
  cases r with
  | v6 => exact ⟨fun h => absurd (hfamily.symm.trans h.family) (by decide), fun h => (nomatch h)⟩
  | v4 a' p' b' q' =>
    have ha : a.octets.length = 4 := rfl
    have hb : b.octets.length = 4 := rfl
    rw [Carries, hasBlock_iff hleads hfamily hfront ha hb hs]
    constructor
    · rintro ⟨ha, hb, hp, hq⟩
      rw [Address.V4.toNat_inj ha, Address.V4.toNat_inj hb, UInt16.toNat_inj.1 hp, UInt16.toNat_inj.1 hq]
    · intro h
      obtain ⟨rfl, rfl, rfl, rfl⟩ := Route.v4.inj h
      exact ⟨rfl, rfl, rfl, rfl⟩

/-- A header with a block of IPv6 carries the route of that block and no other. -/
theorem carries_blockV6_iff {s front more : Bytes} {a b : Address.V6} {p q : UInt16} (hleads : Leads s 1)
    (hfamily : family s = 2) (hfront : front.length = fixedLength)
    (hs : s = front ++ (block (.v6 a p b q) ++ more)) {r : Route} : Carries s r ↔ r = .v6 a p b q := by
  cases r with
  | v4 => exact ⟨fun h => absurd (hfamily.symm.trans h.family) (by decide), fun h => (nomatch h)⟩
  | v6 a' p' b' q' =>
    rw [Carries, hasBlock_iff hleads hfamily hfront a.length_octets b.length_octets hs, ← Address.V6.toNat_eq,
      ← Address.V6.toNat_eq]
    constructor
    · rintro ⟨ha, hb, hp, hq⟩
      rw [Address.V6.toNat_inj ha, Address.V6.toNat_inj hb, UInt16.toNat_inj.1 hp, UInt16.toNat_inj.1 hq]
    · intro h
      obtain ⟨rfl, rfl, rfl, rfl⟩ := Route.v6.inj h
      exact ⟨rfl, rfl, rfl, rfl⟩

/-! ## Reading -/

theorem exists_fixed {s : Bytes} (hwhole : fixedLength ≤ s.length) (hlead : signature <+: s) :
    ∃ a b c d body, s = signature ++ a :: b :: c :: d :: body := by
  obtain ⟨rest, rfl⟩ := hlead
  have hsignature : signature.length = 12 := rfl
  rw [List.length_append, hsignature, fixedLength] at hwhole
  rcases rest with _ | ⟨a, _ | ⟨b, _ | ⟨c, _ | ⟨d, body⟩⟩⟩⟩
  case cons.cons.cons.cons => exact ⟨a, b, c, d, body, rfl⟩
  all_goals
    simp only [List.length_cons, List.length_nil] at hwhole
    omega

/-- The fixed part decides by its version and its command whether the body matters. -/
theorem read_fixed (a b c d : UInt8) (body : Bytes) :
    read (signature ++ a :: b :: c :: d :: body) =
      if a.toNat / 16 ≠ 2 then .error .badVersion
      else match a.toNat % 16 with
        | 0 => .ok .own
        | 1 => readBody (b.toNat / 16) body
        | _ => .error .unknownCommand := by
  have hdrop := Text.dropLead?_append signature (a :: b :: c :: d :: body)
  unfold read
  split
  · rename_i hfixed
    cases hdrop.symm.trans hfixed
    rfl
  · rename_i hother
    exact absurd hdrop (hother a b c d body)

/-- The scan over a cursor goes by the fixed part in the same way. -/
theorem scan_fixed (a b c d : UInt8) (body : Bytes) :
    scan (signature ++ a :: b :: c :: d :: body) =
      if a.toNat / 16 ≠ 2 then some (.error .badVersion)
      else match a.toNat % 16 with
        | 0 => some (.ok .own)
        | 1 => scanBody (b.toNat / 16) body
        | _ => some (.error .unknownCommand) := by
  have hwhole : fixedLength ≤ (signature ++ a :: b :: c :: d :: body).length :=
    Nat.le_add_left fixedLength body.length
  have hlead : Text.startsWith signature (signature ++ a :: b :: c :: d :: body) = true :=
    (startsWith_eq _ _).2 (List.prefix_append _ _)
  have hbehind : behind fixedLength (signature ++ a :: b :: c :: d :: body) = some body := by
    rw [behind, if_pos hwhole]
    rfl
  rw [scan, if_neg (not_or.2 ⟨Nat.not_lt.2 hwhole, Bool.not_eq_false _ ▸ hlead⟩), hbehind]
  rfl

theorem read_of_not_fixed {s : Bytes} (h : ¬ (fixedLength ≤ s.length ∧ signature <+: s)) :
    read s = .error .noSignature := by
  unfold read
  split
  · rename_i a b c d body hdrop
    obtain rfl := Text.dropLead?_eq_some_iff.1 hdrop
    exact absurd ⟨Nat.le_add_left fixedLength body.length, List.prefix_append _ _⟩ h
  · rfl

theorem scan_of_not_fixed {s : Bytes} (h : ¬ (fixedLength ≤ s.length ∧ signature <+: s)) :
    scan s = some (.error .noSignature) := by
  rw [scan, if_pos]
  by_cases hwhole : fixedLength ≤ s.length
  · exact .inr (Bool.eq_false_iff.2 fun hlead => h ⟨hwhole, (startsWith_eq _ _).1 hlead⟩)
  · exact .inl (Nat.not_le.1 hwhole)

/-- What a header is read as, by its version and its command. -/
theorem leads_cases (s : Bytes) :
    (Leads s 0 ∧ read s = .ok .own ∧ scan s = some (.ok .own)) ∨
    (Leads s 1 ∧ read s = readBody (family s) (s.drop fixedLength) ∧
      scan s = scanBody (family s) (s.drop fixedLength)) ∨
    (¬ Leads s 0 ∧ ¬ Leads s 1 ∧ ∃ fault, read s = .error fault ∧ scan s = some (.error fault)) := by
  by_cases hfixed : fixedLength ≤ s.length ∧ signature <+: s
  · obtain ⟨hwhole, hlead⟩ := hfixed
    obtain ⟨a, b, c, d, body, rfl⟩ := exists_fixed hwhole hlead
    have hbody : (signature ++ a :: b :: c :: d :: body).drop fixedLength = body := rfl
    have hfamily : family (signature ++ a :: b :: c :: d :: body) = b.toNat / 16 := rfl
    rw [read_fixed, scan_fixed, hbody, hfamily]
    by_cases hversion : a.toNat / 16 = 2
    · rw [if_neg (not_not_intro hversion), if_neg (not_not_intro hversion)]
      split
      · rename_i hcommand
        exact .inl ⟨⟨hwhole, hlead, hversion, hcommand⟩, rfl, rfl⟩
      · rename_i hcommand
        exact .inr (.inl ⟨⟨hwhole, hlead, hversion, hcommand⟩, rfl, rfl⟩)
      · rename_i hzero hone
        exact .inr (.inr ⟨fun h => hzero h.command, fun h => hone h.command, _, rfl, rfl⟩)
    · rw [if_pos hversion, if_pos hversion]
      exact .inr (.inr ⟨fun h => hversion h.version, fun h => hversion h.version, _, rfl, rfl⟩)
  · exact .inr (.inr ⟨fun h => hfixed ⟨h.whole, h.signature⟩, fun h => hfixed ⟨h.whole, h.signature⟩, _,
      read_of_not_fixed hfixed, scan_of_not_fixed hfixed⟩)

theorem readV4?_of_short {body : Bytes} (h : body.length < 12) : readV4? body = none := by
  simp [readV4?, h]

theorem readV6?_of_short {body : Bytes} (h : body.length < 36) : readV6? body = none := by
  simp [readV6?, h]

theorem scanRoute_v4 (body : Bytes) :
    scanRoute 12 .shortV4 Cursor.routeV4 body = some (required .shortV4 (readV4? body)) := by
  by_cases hshort : body.length < 12
  · rw [scanRoute, if_pos hshort, readV4?_of_short hshort]
    rfl
  · obtain ⟨a, p, b, q, more, rfl⟩ := exists_blockV4 (Nat.not_lt.1 hshort)
    rw [scanRoute, if_neg hshort, readV4?_block, StateT.run'_eq, Cursor.run_routeV4]
    rfl

theorem scanRoute_v6 (body : Bytes) :
    scanRoute 36 .shortV6 Cursor.routeV6 body = some (required .shortV6 (readV6? body)) := by
  by_cases hshort : body.length < 36
  · rw [scanRoute, if_pos hshort, readV6?_of_short hshort]
    rfl
  · obtain ⟨a, p, b, q, more, rfl⟩ := exists_blockV6 (Nat.not_lt.1 hshort)
    rw [scanRoute, if_neg hshort, readV6?_block, StateT.run'_eq, Cursor.run_routeV6]
    rfl

theorem scanBody_eq (code : Nat) (body : Bytes) : scanBody code body = some (readBody code body) := by
  match code with
  | 0 | 3 | _ + 4 => rfl
  | 1 => exact scanRoute_v4 body
  | 2 => exact scanRoute_v6 body

/-- A cursor finds what is read, and never looks beyond the end. -/
theorem scan_eq (s : Bytes) : scan s = some (read s) := by
  rcases leads_cases s with ⟨-, hread, hscan⟩ | ⟨-, hread, hscan⟩ | ⟨-, -, fault, hread, hscan⟩
  · rw [hread, hscan]
  · rw [hread, hscan, scanBody_eq]
  · rw [hread, hscan]

theorem Leads.command_unique {s : Bytes} {c c' : Nat} (h : Leads s c) (h' : Leads s c') : c = c' :=
  h.command.symm.trans h'.command

theorem read_of_leads {s : Bytes} (h : Leads s 1) : read s = readBody (family s) (s.drop fixedLength) := by
  rcases leads_cases s with ⟨hzero, -, -⟩ | ⟨-, hread, -⟩ | ⟨-, hone, -⟩
  · exact absurd (h.command_unique hzero) (by decide)
  · exact hread
  · exact absurd h hone

/-- What has room for a route is read as the route that it carries. -/
theorem exists_route {s : Bytes} (h : IsRelayed s) :
    ∃ r, read s = .ok (.proxied r) ∧ ∀ r', Carries s r' ↔ r' = r := by
  obtain ⟨hleads, hroom⟩ := h
  have hfront : (s.take fixedLength).length = fixedLength := List.length_take_of_le hleads.whole
  have hcut : s = s.take fixedLength ++ s.drop fixedLength := (List.take_append_drop _ _).symm
  have hbody : (s.drop fixedLength).length = s.length - fixedLength := List.length_drop
  rw [read_of_leads hleads]
  rcases hroom with ⟨hfamily, hlength⟩ | ⟨hfamily, hlength⟩
  · have hlong : 12 ≤ (s.drop fixedLength).length := by omega
    obtain ⟨a, p, b, q, more, hblock⟩ := exists_blockV4 hlong
    rw [hblock] at hcut
    refine ⟨.v4 a p b q, ?_, fun _ => carries_blockV4_iff hleads hfamily hfront hcut⟩
    rw [hfamily, hblock, readBody, readV4?_block, required]
  · have hlong : 36 ≤ (s.drop fixedLength).length := by omega
    obtain ⟨a, p, b, q, more, hblock⟩ := exists_blockV6 hlong
    rw [hblock] at hcut
    refine ⟨.v6 a p b q, ?_, fun _ => carries_blockV6_iff hleads hfamily hfront hcut⟩
    rw [hfamily, hblock, readBody, readV6?_block, required]

theorem isRelayed_of_carries {s : Bytes} {r : Route} (h : Carries s r) : IsRelayed s := by
  cases r with
  | v4 => exact ⟨h.leads, .inl ⟨h.family, h.whole⟩⟩
  | v6 => exact ⟨h.leads, .inr ⟨h.family, h.whole⟩⟩

theorem read_of_isOwn {s : Bytes} (h : IsOwn s) : read s = .ok .own := by
  rcases h with hzero | ⟨hone, hfamily⟩
  · rcases leads_cases s with ⟨-, hread, -⟩ | ⟨hone, -⟩ | ⟨hnot, -⟩
    · exact hread
    · exact absurd (hzero.command_unique hone) (by decide)
    · exact absurd hzero hnot
  · rw [read_of_leads hone]
    rcases hfamily with hfamily | hfamily
    · rw [hfamily, readBody]
    · rw [hfamily, readBody]

/-- A header that is neither relayed nor the sender's own has a fault. -/
theorem exists_fault {s : Bytes} (hrelayed : ¬ IsRelayed s) (hown : ¬ IsOwn s) :
    ∃ fault, read s = .error fault := by
  rcases leads_cases s with ⟨hzero, -⟩ | ⟨hone, hread, -⟩ | ⟨-, -, fault, hread, -⟩
  · exact absurd (.inl hzero) hown
  · have hbody : (s.drop fixedLength).length = s.length - fixedLength := List.length_drop
    have hwhole := hone.whole
    rw [hread]
    unfold readBody
    split
    · rename_i hfamily
      have hshort : ¬ fixedLength + 12 ≤ s.length := fun h => hrelayed ⟨hone, .inl ⟨hfamily, h⟩⟩
      rw [readV4?_of_short (by omega)]
      exact ⟨_, rfl⟩
    · rename_i hfamily
      have hshort : ¬ fixedLength + 36 ≤ s.length := fun h => hrelayed ⟨hone, .inr ⟨hfamily, h⟩⟩
      rw [readV6?_of_short (by omega)]
      exact ⟨_, rfl⟩
    · rename_i hfamily
      exact absurd (.inr ⟨hone, .inl hfamily⟩) hown
    · rename_i hfamily
      exact absurd (.inr ⟨hone, .inr hfamily⟩) hown
    · exact ⟨_, rfl⟩
  · exact ⟨fault, hread⟩

/-! ## What is not looked at -/

theorem readV4?_take (body : Bytes) : readV4? (body.take 12) = readV4? body := by
  have hlength : (body.take 12).length < 12 ↔ body.length < 12 := by
    rw [List.length_take]
    omega
  simp only [readV4?, hlength, List.take_take, List.drop_take]
  rfl

theorem readV6?_take (body : Bytes) : readV6? (body.take 36) = readV6? body := by
  have hlength : (body.take 36).length < 36 ↔ body.length < 36 := by
    rw [List.length_take]
    omega
  simp only [readV6?, hlength, List.take_take, List.drop_take]
  rfl

theorem AgreeInBlock.signature_iff {s t : Bytes} (h : AgreeInBlock s t) : signature <+: s ↔ signature <+: t := by
  have hlength : signature.length ≤ 13 := by decide
  have htake : ∀ u : Bytes, signature <+: u ↔ signature <+: u.take 13 := fun u =>
    ⟨fun hu => List.prefix_take_iff.2 ⟨hu, hlength⟩, fun hu => hu.trans (List.take_prefix _ _)⟩
  rw [htake s, htake t, h.lead]

theorem readBody_eq_of_block {code n : Nat} {body body' : Bytes} (h4 : code = 1 → n = 12) (h6 : code = 2 → n = 36)
    (h : body.take n = body'.take n) : readBody code body = readBody code body' := by
  match code with
  | 0 | 3 | _ + 4 => rfl
  | 1 =>
    obtain rfl := h4 rfl
    rw [readBody, readBody, ← readV4?_take body, h, readV4?_take]
  | 2 =>
    obtain rfl := h6 rfl
    rw [readBody, readBody, ← readV6?_take body, h, readV6?_take]

/-- The reader sees the fixed part and the block and nothing behind them. -/
theorem read_eq_of_agreeInBlock {s t : Bytes} (h : AgreeInBlock s t) : read t = read s := by
  by_cases hfixed : fixedLength ≤ s.length ∧ signature <+: s
  · obtain ⟨hwhole, hlead⟩ := hfixed
    obtain ⟨a, b, c, d, body, rfl⟩ := exists_fixed hwhole hlead
    obtain ⟨a', b', c', d', body', rfl⟩ := exists_fixed (h.whole.1 hwhole) (h.signature_iff.1 hlead)
    have hsame : signature ++ [a] = signature ++ [a'] := h.lead
    obtain rfl : a = a' := List.head_eq_of_cons_eq (List.append_cancel_left hsame)
    have hfamily : b.toNat / 16 = b'.toNat / 16 := h.family
    rw [read_fixed, read_fixed, ← hfamily]
    split
    · rfl
    split
    · rfl
    · rename_i hcommand
      have hlow : lowNibble (signature ++ a :: b :: c :: d :: body) 12 = 1 := hcommand
      have hcode : family (signature ++ a :: b :: c :: d :: body) = b.toNat / 16 := rfl
      refine (readBody_eq_of_block (fun h4 => ?_) (fun h6 => ?_) h.block).symm
      · simp only [blockLength, if_pos hlow, hcode, h4]
      · simp only [blockLength, if_pos hlow, hcode, h6]
    · rfl
  · have hother : ¬ (fixedLength ≤ t.length ∧ signature <+: t) := by rwa [← h.whole, ← h.signature_iff]
    rw [read_of_not_fixed hfixed, read_of_not_fixed hother]

/-! ## The layout -/

/-- The three outcomes exclude one another. -/
theorem read_cases (s : Bytes) :
    (IsRelayed s ∧ ¬ IsOwn s ∧ ∃ r, read s = .ok (.proxied r) ∧ ∀ r', Carries s r' ↔ r' = r) ∨
    (¬ IsRelayed s ∧ IsOwn s ∧ read s = .ok .own) ∨
    (¬ IsRelayed s ∧ ¬ IsOwn s ∧ ∃ fault, read s = .error fault) := by
  by_cases hrelayed : IsRelayed s
  · obtain ⟨r, hread, hcarries⟩ := exists_route hrelayed
    have hown : ¬ IsOwn s := fun hown => nomatch hread.symm.trans (read_of_isOwn hown)
    exact .inl ⟨hrelayed, hown, r, hread, hcarries⟩
  by_cases hown : IsOwn s
  · exact .inr (.inl ⟨hrelayed, hown, read_of_isOwn hown⟩)
  · exact .inr (.inr ⟨hrelayed, hown, exists_fault hrelayed hown⟩)

/-- What stands at the fixed places of a byte string decides what it is read as, however long it is. -/
structure ReadByLayout (s : Bytes) : Prop where
  /-- A cursor comes to the same and never looks beyond the end. -/
  within : scan s = some (read s)
  relayed : (∃ r, read s = .ok (.proxied r)) ↔ IsRelayed s
  route : ∀ r, read s = .ok (.proxied r) ↔ Carries s r
  own : read s = .ok .own ↔ IsOwn s
  /-- What is shorter than a fixed part counts as having no signature. -/
  short : s.length < fixedLength → read s = .error .noSignature
  faulty : (∃ fault, read s = .error fault) ↔ ¬ IsRelayed s ∧ ¬ IsOwn s
  /-- Neither the transport nor the length that is announced matters, nor what stands behind the block. -/
  blind : ∀ t, AgreeInBlock s t → read t = read s

theorem read_by_layout (s : Bytes) : ReadByLayout s := by
  have hwithin := scan_eq s
  have hblind : ∀ t, AgreeInBlock s t → read t = read s := fun _ => read_eq_of_agreeInBlock
  have hshort : s.length < fixedLength → read s = .error .noSignature := fun hlt =>
    read_of_not_fixed fun hfixed => Nat.not_le.2 hlt hfixed.1
  have hcarries : ¬ IsRelayed s → ∀ r, ¬ Carries s r := fun h _ hr => h (isRelayed_of_carries hr)
  rcases read_cases s with ⟨hrelayed, hown, r, hread, hroute⟩ | ⟨hrelayed, hown, hread⟩ |
    ⟨hrelayed, hown, fault, hread⟩
  · exact ⟨hwithin, by simp [hread, hrelayed], by simp [hread, hroute, eq_comm], by simp [hread, hown],
      hshort, by simp [hread, hrelayed], hblind⟩
  · exact ⟨hwithin, by simp [hread, hrelayed], by simp [hread, hcarries hrelayed], by simp [hread, hown],
      hshort, by simp [hread, hown], hblind⟩
  · exact ⟨hwithin, by simp [hread, hrelayed], by simp [hread, hcarries hrelayed], by simp [hread, hown],
      hshort, by simp [hread, hrelayed, hown], hblind⟩

end Speedtest.Relay.BinaryForm
