import Speedtest.Proofs.Address.Spelling
import Speedtest.Proofs.Relay.Forms

/-!
# The grammar of a line

A line that names a route has six fields with one blank between them, and that is the only way to write the
route but for the texts of its addresses. No field holds a blank, so splitting gives the six fields back. A line that
starts with the two words of the relay's own may go on in any way behind them. Every other line has a fault.
-/
namespace Speedtest.Relay.TextForm

/-- A line of six fields, each with one blank in front but the first. -/
def lineOf (family source destination : List Char) (p q : UInt16) : List Char :=
  "PROXY ".toList ++ family ++ ' ' :: source ++ ' ' :: destination ++ ' ' :: Text.decimal p.toNat ++
    ' ' :: Text.decimal q.toNat

/-- A line is one of the relay's own. -/
def IsOwn (s : List Char) : Prop := ["PROXY".toList, "UNKNOWN".toList] <+: s.splitOn ' '

/-- A line names a route. -/
inductive Names (s : List Char) : Route → Prop where
  | v4 {source destination : List Char} {a b : Address.V4} {p q : UInt16}
      (hline : s = lineOf "TCP4".toList source destination p q)
      (hsource : Address.V4.ofText? source = some a) (hdestination : Address.V4.ofText? destination = some b) :
      Names s (.v4 a p b q)
  | v6 {source destination : List Char} {a b : Address.V6} {p q : UInt16}
      (hline : s = lineOf "TCP6".toList source destination p q)
      (hsource : Address.V6.ofText? source = some a) (hdestination : Address.V6.ofText? destination = some b) :
      Names s (.v6 a p b q)

theorem lineOf_eq_intercalate (family source destination : List Char) (p q : UInt16) :
    lineOf family source destination p q = [' '].intercalate (fieldsOf family source destination p q) := by
  have hword : "PROXY ".toList = "PROXY".toList ++ [' '] := by decide
  unfold lineOf fieldsOf
  rw [hword]
  simp only [List.intercalate_cons_cons, List.intercalate_singleton, List.append_assoc, List.cons_append,
    List.nil_append]

/-! ## Fields -/

/-- A port has one numeral. -/
theorem readPort_eq_ok_iff {s : List Char} {p : UInt16} : readPort s = .ok p ↔ s = Text.decimal p.toNat := by
  constructor
  · intro h
    unfold readPort at h
    split at h
    · exact nomatch h
    rename_i hlead
    split at h
    · rename_i n hn
      split at h
      · rename_i hlt
        obtain rfl := Except.ok.inj h
        rw [UInt16.toNat_ofNat_of_lt' hlt]
        exact Text.eq_decimal_of_readDigits? hn hlead
      · exact nomatch h
    · exact nomatch h
  · rintro rfl
    exact readPort_decimal p

theorem bind_eq_ok {α β : Type} {x : Except TextFault α} {f : α → Except TextFault β} {b : β}
    (h : x >>= f = .ok b) : ∃ a, x = .ok a ∧ f a = .ok b := by
  cases x with
  | error e => exact nomatch h
  | ok a => exact ⟨a, rfl, h⟩

theorem required_eq_ok {α : Type} {o : Option α} {a : α} (h : required o = .ok a) : o = some a := by
  cases o with
  | none => exact nomatch h
  | some a' => rw [Except.ok.inj h]

/-- Four fields behind the family that make a route. -/
theorem ends_of_eq_ok {α : Type} {source destination : Option α} {sourcePort destinationPort : List Char}
    {route : α → UInt16 → α → UInt16 → Route} {h : Header}
    (hread : (do
      let a ← required source
      let b ← required destination
      return Header.proxied (route a (← readPort sourcePort) b (← readPort destinationPort))) = .ok h) :
    ∃ a b p q, source = some a ∧ destination = some b ∧ sourcePort = Text.decimal p.toNat ∧
      destinationPort = Text.decimal q.toNat ∧ h = .proxied (route a p b q) := by
  obtain ⟨a, ha, hread⟩ := bind_eq_ok hread
  obtain ⟨b, hb, hread⟩ := bind_eq_ok hread
  obtain ⟨p, hp, hread⟩ := bind_eq_ok hread
  obtain ⟨q, hq, hread⟩ := bind_eq_ok hread
  exact ⟨a, b, p, q, required_eq_ok ha, required_eq_ok hb, readPort_eq_ok_iff.1 hp, readPort_eq_ok_iff.1 hq,
    (Except.ok.inj hread).symm⟩

/-- What fields are read as. -/
theorem readFields_cases {fs : List (List Char)} {h : Header} (hread : readFields fs = .ok h) :
    (["PROXY".toList, "UNKNOWN".toList] <+: fs ∧ h = .own) ∨
      ∃ r, Names ([' '].intercalate fs) r ∧ h = .proxied r := by
  unfold readFields at hread
  split at hread
  · rename_i word family rest
    split at hread
    · cases hread
    rename_i hword
    obtain rfl := Decidable.not_not.1 hword
    split at hread
    · rename_i hfamily
      exact .inl ⟨⟨rest, by rw [hfamily]; rfl⟩, (Except.ok.inj hread).symm⟩
    right
    split at hread
    · rename_i source destination sourcePort destinationPort
      split at hread
      · rename_i hfamily
        obtain ⟨a, b, p, q, ha, hb, rfl, rfl, rfl⟩ := ends_of_eq_ok hread
        refine ⟨.v4 a p b q, .v4 ?_ ha hb, rfl⟩
        rw [lineOf_eq_intercalate, fieldsOf, hfamily]
      split at hread
      · rename_i hfamily
        obtain ⟨a, b, p, q, ha, hb, rfl, rfl, rfl⟩ := ends_of_eq_ok hread
        refine ⟨.v6 a p b q, .v6 ?_ ha hb, rfl⟩
        rw [lineOf_eq_intercalate, fieldsOf, hfamily]
      · cases hread
    · cases hread
  · cases hread

theorem readFields_of_isOwn {s : List Char} (h : IsOwn s) : readFields (s.splitOn ' ') = .ok .own := by
  obtain ⟨rest, hrest⟩ := h
  rw [← hrest]
  rfl

theorem isGraphic_of_v4 {s : List Char} {a : Address.V4} (h : Address.V4.ofText? s = some a) {c : Char}
    (hc : c ∈ s) : Text.IsGraphic c := by
  rw [Address.V4.ofText?_eq_some_iff.1 h] at hc
  exact Address.V4.isGraphic_of_mem_text hc

theorem readFields_of_names {s : List Char} {r : Route} (h : Names s r) :
    readFields (s.splitOn ' ') = .ok (.proxied r) := by
  cases h with
  | v4 hline hsource hdestination =>
    rw [hline, lineOf_eq_intercalate, splitOn_fieldsOf (fun _ => Text.isGraphic_of_all (by decide))
      (fun _ => isGraphic_of_v4 hsource) (fun _ => isGraphic_of_v4 hdestination)]
    exact readFields_v4 hsource hdestination
  | v6 hline hsource hdestination =>
    rw [hline, lineOf_eq_intercalate, splitOn_fieldsOf (fun _ => Text.isGraphic_of_all (by decide))
      (fun _ => Address.V6.isGraphic_of_ofText? hsource) (fun _ => Address.V6.isGraphic_of_ofText? hdestination)]
    exact readFields_v6 hsource hdestination

/-! ## Lines -/

theorem read_encode (s : List Char) : read (Text.Utf8.encode s) = readFields (s.splitOn ' ') := by
  rw [read, Text.Utf8.decode?_encode]

/-- A line that is read as anything is a text. -/
theorem eq_encode_of_read {line : Bytes} {h : Header} (hread : read line = .ok h) :
    ∃ s, line = Text.Utf8.encode s ∧ readFields (s.splitOn ' ') = .ok h := by
  unfold read at hread
  split at hread
  · rename_i s hs
    exact ⟨s, Text.Utf8.decode?_eq_some_iff.1 hs, hread⟩
  · exact nomatch hread

theorem read_eq_own_iff {line : Bytes} :
    read line = .ok .own ↔ ∃ s, line = Text.Utf8.encode s ∧ IsOwn s := by
  constructor
  · intro hread
    obtain ⟨s, hs, hfields⟩ := eq_encode_of_read hread
    rcases readFields_cases hfields with ⟨hown, -⟩ | ⟨r, -, hr⟩
    · exact ⟨s, hs, hown⟩
    · exact nomatch hr
  · rintro ⟨s, rfl, hown⟩
    rw [read_encode, readFields_of_isOwn hown]

theorem read_eq_proxied_iff {line : Bytes} {r : Route} :
    read line = .ok (.proxied r) ↔ ∃ s, line = Text.Utf8.encode s ∧ Names s r := by
  constructor
  · intro hread
    obtain ⟨s, hs, hfields⟩ := eq_encode_of_read hread
    rcases readFields_cases hfields with ⟨-, hr⟩ | ⟨r', hnames, hr⟩
    · exact nomatch hr
    · obtain rfl := Header.proxied.inj hr
      rw [List.intercalate_splitOn] at hnames
      exact ⟨s, hs, hnames⟩
  · rintro ⟨s, rfl, hnames⟩
    rw [read_encode, readFields_of_names hnames]

/-- The bytes of a line are read as the relay's own, or as a route, exactly when they are a text that says so by the
grammar. All others have a fault. -/
theorem read_by_grammar (line : Bytes) :
    (read line = .ok .own ↔ ∃ s, line = Text.Utf8.encode s ∧ IsOwn s) ∧
    (∀ r, read line = .ok (.proxied r) ↔ ∃ s, line = Text.Utf8.encode s ∧ Names s r) ∧
    ((∃ fault, read line = .error fault) ↔
      ∀ s, line = Text.Utf8.encode s → ¬ IsOwn s ∧ ∀ r, ¬ Names s r) := by
  refine ⟨read_eq_own_iff, fun r => read_eq_proxied_iff, ?_, ?_⟩
  · rintro ⟨fault, hfault⟩ s hs
    refine ⟨fun hown => ?_, fun r hnames => ?_⟩
    · exact nomatch hfault.symm.trans (read_eq_own_iff.2 ⟨s, hs, hown⟩)
    · exact nomatch hfault.symm.trans (read_eq_proxied_iff.2 ⟨s, hs, hnames⟩)
  · intro hnone
    cases hread : read line with
    | error fault => exact ⟨fault, rfl⟩
    | ok h =>
      cases h with
      | own =>
        obtain ⟨s, hs, hown⟩ := read_eq_own_iff.1 hread
        exact absurd hown (hnone s hs).1
      | proxied r =>
        obtain ⟨s, hs, hnames⟩ := read_eq_proxied_iff.1 hread
        exact absurd hnames ((hnone s hs).2 r)

end Speedtest.Relay.TextForm
