import Speedtest.Http.ClientAddress
import Speedtest.Proofs.Address.Canonical
import Speedtest.Proofs.Text.Scan

/-!
# Who names the client

`Resolves` says which address a client is known by. Where header fields are not trusted it is what the peer of the
connection counts as. Where they are, three of them may offer a text, of which the first that is an address decides, and
the peer is what is left when none is. Whatever the fields hold, what comes out is one address and its text.
-/
namespace Speedtest.Http.ClientAddress

/-! ## Texts that are offered -/

/-- The text of the first value of a field, where that is visible. -/
def FirstText (h : Headers) (name : String) (s : List Char) : Prop :=
  ∃ before value after, h = before ++ (name, value) :: after ∧ (∀ field ∈ before, field.1 ≠ name) ∧
    (∀ b ∈ value, Headers.isVisible b = true) ∧ s = value.map fun b => Char.ofNat b.toNat

/-- A text without the blanks at the two ends of another. -/
def Trims (s t : List Char) : Prop :=
  ∃ front back, s = front ++ t ++ back ∧ (∀ c ∈ front ++ back, Text.isBlank c = true) ∧
    Text.Stops Text.isBlank t ∧ Text.Stops Text.isBlank t.reverse

/-- The part of a text in front of its first comma. -/
def Leads (s item : List Char) : Prop := ',' ∉ item ∧ (s = item ∨ ∃ rest, s = item ++ ',' :: rest)

/-- Where a request may offer the address of its client, in the order in which these are looked at. -/
inductive Place where
  | trueClient
  | real
  | forwardedFor
  deriving DecidableEq

namespace Place

def all : List Place := [.trueClient, .real, .forwardedFor]

def name : Place → String
  | .trueClient => "true-client-ip"
  | .real => "x-real-ip"
  | .forwardedFor => "x-forwarded-for"

/-- The part of a field's text that counts: one of the fields lists addresses, that of the client first. -/
def Counts : Place → (s item : List Char) → Prop
  | .forwardedFor, s, item => Leads s item
  | _, s, item => item = s

end Place

/-- The text that is offered in a place. -/
def Offers (h : Headers) (place : Place) (t : List Char) : Prop :=
  ∃ s item, FirstText h place.name s ∧ place.Counts s item ∧ Trims item t

/-- The address that a client is known by. -/
inductive Resolves (peer : Address.Endpoint) (h : Headers) : (trusted : Bool) → Address.Ip → Prop where
  | untrusted {c : Address.Ip} (counts : peer.ip.CountsAs c) : Resolves peer h false c
  | named {before after : List Place} {place : Place} {t : List Char} {a c : Address.Ip}
    (order : Place.all = before ++ place :: after)
    (skipped : ∀ earlier ∈ before, ∀ t, Offers h earlier t → Address.Ip.ofText? t = none)
    (offers : Offers h place t) (reads : Address.Ip.ofText? t = some a) (counts : a.CountsAs c) : Resolves peer h true c
  | unnamed {c : Address.Ip} (skipped : ∀ place t, Offers h place t → Address.Ip.ofText? t = none)
    (counts : peer.ip.CountsAs c) : Resolves peer h true c

/-! ## Reading what is offered -/

theorem first?_eq_some_iff {h : Headers} {name : String} {value : Bytes} :
    h.first? name = some value ↔
      ∃ before after, h = before ++ (name, value) :: after ∧ ∀ field ∈ before, field.1 ≠ name := by
  rw [Headers.first?, List.lookup_eq_some_iff]
  simp only [bne_iff_ne, ne_comm]

theorem visible?_eq_some_iff {value : Bytes} {t : String} :
    Headers.visible? value = some t ↔
      (∀ b ∈ value, Headers.isVisible b = true) ∧ t.toList = value.map fun b => Char.ofNat b.toNat := by
  rw [Headers.visible?, Option.ite_none_right_eq_some, List.all_eq_true, Option.some.injEq]
  refine and_congr_right fun _ => ⟨?_, fun h => ?_⟩
  · rintro rfl
    exact String.toList_ofList
  · rw [← h, String.ofList_toList]

theorem firstText_iff {h : Headers} {name : String} {s : List Char} :
    FirstText h name s ↔ ∃ t, h.text? name = some t ∧ t.toList = s := by
  constructor
  · rintro ⟨before, value, after, hsplit, hbefore, hvisible, rfl⟩
    refine ⟨String.ofList (value.map fun b => Char.ofNat b.toNat), ?_, String.toList_ofList⟩
    rw [Headers.text?, first?_eq_some_iff.2 ⟨before, after, hsplit, hbefore⟩]
    exact visible?_eq_some_iff.2 ⟨hvisible, String.toList_ofList⟩
  · rintro ⟨t, htext, rfl⟩
    obtain ⟨value, hfirst, hvisible⟩ := Option.bind_eq_some_iff.1 htext
    obtain ⟨before, after, hsplit, hbefore⟩ := first?_eq_some_iff.1 hfirst
    obtain ⟨hvisible, hchars⟩ := visible?_eq_some_iff.1 hvisible
    exact ⟨before, value, after, hsplit, hbefore, hvisible, hchars⟩

theorem trims_iff {s t : List Char} : Trims s t ↔ t = Text.trim s := by
  constructor
  · rintro ⟨front, back, rfl, hblank, hfirst, hlast⟩
    refine (Text.trimBy_append ?_ ?_ hfirst hlast).symm
    · exact fun c hc => hblank c (List.mem_append_left back hc)
    · exact fun c hc => hblank c (List.mem_append_right front hc)
  · rintro rfl
    exact Text.trimBy_spec s

/-- The item in front is what is read up to the first comma. -/
theorem leads_iff {s item : List Char} : Leads s item ↔ item = firstItem s := by
  constructor
  · rintro ⟨hno, hsplit⟩
    have hrun : ∀ c ∈ item, (c != ',') = true := fun c hc => bne_iff_ne.2 fun h => hno (h ▸ hc)
    rcases hsplit with rfl | ⟨rest, rfl⟩
    · exact (Text.takeWhile_run hrun (Text.stops_nil _)).symm.trans (congrArg firstItem (List.append_nil _))
    · exact (Text.takeWhile_run hrun (Text.stops_cons (by decide) rest)).symm
  · rintro rfl
    have hsplit : s = firstItem s ++ s.dropWhile (· != ',') := List.takeWhile_append_dropWhile.symm
    refine ⟨fun h => ?_, ?_⟩
    · exact absurd (List.all_eq_true.1 List.all_takeWhile ',' h) (by decide)
    · have hstop := Text.stops_dropWhile (p := (· != ',')) s
      cases hrest : s.dropWhile (· != ',') with
      | nil =>
        rw [hrest, List.append_nil] at hsplit
        exact .inl hsplit
      | cons c rest =>
        have hcomma : (c != ',') = false := hstop c (by rw [hrest]; rfl)
        obtain rfl : c = ',' := by simpa using hcomma
        exact .inr ⟨rest, by rw [← hrest]; exact hsplit⟩

/-- The part of a field's text that counts, as it is cut off. -/
def Place.part : Place → List Char → List Char
  | .forwardedFor => firstItem
  | _ => id

theorem Place.counts_iff {place : Place} {s item : List Char} : place.Counts s item ↔ item = place.part s := by
  cases place with
  | trueClient => exact Iff.rfl
  | real => exact Iff.rfl
  | forwardedFor => exact leads_iff

/-- A place names the address of the text that is offered in it. -/
theorem named?_eq_some_iff {h : Headers} {place : Place} {a : Address.Ip} :
    named? h place.name place.part = some a ↔ ∃ t, Offers h place t ∧ Address.Ip.ofText? t = some a := by
  rw [named?, Option.bind_eq_some_iff]
  constructor
  · rintro ⟨s, htext, hread⟩
    exact ⟨_, ⟨s.toList, _, firstText_iff.2 ⟨s, htext, rfl⟩, Place.counts_iff.2 rfl, trims_iff.2 rfl⟩, hread⟩
  · rintro ⟨t, ⟨s, item, hfirst, hcounts, htrims⟩, hread⟩
    obtain ⟨s, htext, rfl⟩ := firstText_iff.1 hfirst
    obtain rfl := Place.counts_iff.1 hcounts
    obtain rfl := trims_iff.1 htrims
    exact ⟨s, htext, hread⟩

theorem named?_eq_none_iff {h : Headers} {place : Place} :
    named? h place.name place.part = none ↔ ∀ t, Offers h place t → Address.Ip.ofText? t = none := by
  constructor
  · intro hnone t hoffers
    exact Option.eq_none_iff_forall_ne_some.2 fun a hread =>
      nomatch hnone.symm.trans (named?_eq_some_iff.2 ⟨t, hoffers, hread⟩)
  · intro hnone
    refine Option.eq_none_iff_forall_ne_some.2 fun a hnamed => ?_
    obtain ⟨t, hoffers, hread⟩ := named?_eq_some_iff.1 hnamed
    exact nomatch (hnone t hoffers).symm.trans hread

theorem forwarded?_eq (h : Headers) :
    forwarded? h = Place.all.findSome? fun place => named? h place.name place.part := by
  have hlist (x y z : Option Address.Ip) : x.or (y.or z) = [x, y, z].findSome? id := by
    cases x <;> cases y <;> cases z <;> rfl
  exact hlist _ _ _

/-! ## The client -/

/-- Exactly one address is what a client is known by: the one that comes out. -/
theorem resolves_iff {peer : Address.Endpoint} {h : Headers} {trusted : Bool} {c : Address.Ip} :
    Resolves peer h trusted c ↔ resolve peer h trusted = c := by
  cases trusted with
  | false =>
    rw [resolve, if_neg Bool.false_ne_true, Option.getD_none, ← Address.Ip.countsAs_iff]
    constructor
    · rintro ⟨counts⟩
      exact counts
    · exact .untrusted
  | true =>
    rw [resolve, if_pos rfl, forwarded?_eq]
    constructor
    · intro hresolves
      cases hresolves with
      | named order skipped offers reads counts =>
        have hfound : Place.all.findSome? (fun place => named? h place.name place.part) = some _ :=
          List.findSome?_eq_some_iff.2 ⟨_, _, _, order, named?_eq_some_iff.2 ⟨_, offers, reads⟩,
            fun earlier hearlier => named?_eq_none_iff.2 (skipped earlier hearlier)⟩
        rw [hfound, Option.getD_some, Address.Ip.countsAs_iff.1 counts]
      | unnamed skipped counts =>
        have hnone : Place.all.findSome? (fun place => named? h place.name place.part) = none :=
          List.findSome?_eq_none_iff.2 fun place _ => named?_eq_none_iff.2 (skipped place)
        rw [hnone, Option.getD_none, Address.Ip.countsAs_iff.1 counts]
    · rintro rfl
      cases hfound : Place.all.findSome? (fun place => named? h place.name place.part) with
      | some a =>
        obtain ⟨before, place, after, order, hnamed, hskipped⟩ := List.findSome?_eq_some_iff.1 hfound
        obtain ⟨t, offers, reads⟩ := named?_eq_some_iff.1 hnamed
        exact .named order (fun earlier hearlier => named?_eq_none_iff.1 (hskipped earlier hearlier)) offers reads
          (Address.Ip.countsAs_iff.2 rfl)
      | none =>
        have hall : ∀ place : Place, place ∈ Place.all := by rintro ⟨⟩ <;> decide
        exact .unnamed (fun place => named?_eq_none_iff.1 (List.findSome?_eq_none_iff.1 hfound place (hall place)))
          (Address.Ip.countsAs_iff.2 rfl)

end Speedtest.Http.ClientAddress
