import Speedtest.Proofs.Redaction.Delimited
import Speedtest.Proofs.Text.Matches

/-!
# What both passes for addresses leave alone

A match of either pattern is made of digits, hexadecimal digits, dots and colons, and has at least three dots or two
colons. So neither pass touches a quote, a backslash or a control character, and neither finds anything in a text with
fewer marks than that.
-/
namespace Speedtest.Redaction

/-! ## Matches of the IPv6 pattern -/

theorem isColoned_of_isHexDigit {c : Char} (h : Text.isHexDigit c = true) : isColoned c = true :=
  Bool.or_eq_true_iff.2 (.inl h)

theorem count_colon_of_group {run : List Char} (h : ∀ c ∈ run, Text.isHexDigit c = true) : run.count ':' = 0 :=
  List.count_eq_zero.2 fun hcolon => absurd (h ':' hcolon) (by decide)

theorem group?_cut {s rest : List Char} {n : Nat} (h : group? s = some (n, rest)) :
    ∃ run, s = run ++ rest ∧ run.length = n ∧ ∀ c ∈ run, isColoned c = true := by
  obtain ⟨run, rfl, rfl, -, hhex⟩ := Text.run?_eq_some h
  exact ⟨run, rfl, rfl, fun c hc => isColoned_of_isHexDigit (hhex c hc)⟩

/-- What is counted as groups with their colons is a run at the front. -/
theorem closedGroups_cut (most : Nat) (s : List Char) : ∃ run, s = run ++ (closedGroups most s).rest ∧
    run.length = (closedGroups most s).taken ∧ run.count ':' = (closedGroups most s).count ∧
    ∀ c ∈ run, isColoned c = true := by
  induction most generalizing s with
  | zero => exact ⟨[], rfl, rfl, rfl, nofun⟩
  | succ most ih =>
    rw [closedGroups]
    cases h : closed? s with
    | none => exact ⟨[], rfl, rfl, rfl, nofun⟩
    | some found =>
      obtain ⟨n, rest⟩ := found
      rw [closed?_eq] at h
      obtain ⟨first, rfl, rfl, -, hhex⟩ := ended?_eq_some h
      obtain ⟨run, hrest, hlength, hcount, hrun⟩ := ih rest
      have hzero := count_colon_of_group hhex
      refine ⟨first ++ ':' :: run, ?_, ?_, ?_, ?_⟩
      · rw [List.append_assoc, List.cons_append, ← hrest]
      · simp only [List.length_append, List.length_cons, hlength]
        omega
      · simp only [List.count_append, List.count_cons_self, hzero, hcount]
        omega
      · intro c hc
        rcases List.mem_append.1 hc with hc | hc
        · exact isColoned_of_isHexDigit (hhex c hc)
        · rcases List.mem_cons.1 hc with rfl | hc
          · decide
          · exact hrun c hc

/-- What is taken as groups without a colon at the end is a run at the front. -/
theorem openGroups_cut (most : Nat) (s : List Char) : ∃ run rest, s = run ++ rest ∧ run.length = openGroups most s ∧
    ∀ c ∈ run, isColoned c = true := by
  induction most generalizing s with
  | zero => exact ⟨[], s, rfl, rfl, nofun⟩
  | succ most ih =>
    unfold openGroups
    split
    · rename_i t
      cases h : group? t with
      | none => exact ⟨[], _, rfl, rfl, nofun⟩
      | some found =>
        obtain ⟨first, rfl, hfirst, hcoloned⟩ := group?_cut h
        obtain ⟨run, rest, hrest, hlength, hrun⟩ := ih found.2
        refine ⟨':' :: (first ++ run), rest, ?_, ?_, ?_⟩
        · rw [List.cons_append, List.append_assoc, ← hrest]
        · simp only [List.length_append, List.length_cons, hfirst, hlength]
          omega
        · intro c hc
          rcases List.mem_cons.1 hc with rfl | hc
          · decide
          · exact (List.mem_append.1 hc).elim (hcoloned c) (hrun c)
    · exact ⟨[], _, rfl, rfl, nofun⟩

/-- So many characters at the front are hexadecimal digits and colons, two colons at least. -/
def StartsColoned (s : List Char) (n : Nat) : Prop :=
  ∃ found rest, s = found ++ rest ∧ found.length = n ∧ (∀ c ∈ found, isColoned c = true) ∧ 2 ≤ found.count ':'

theorem startsColoned_whole {s : List Char} {n : Nat} (h : whole? s = some n) : StartsColoned s n := by
  obtain ⟨run, hrun, hlength, hcount, hcoloned⟩ := closedGroups_cut 7 s
  rw [whole?] at h
  dsimp only at h
  split at h
  · rename_i hseven
    obtain ⟨⟨k, rest⟩, hgroup, rfl⟩ := Option.map_eq_some_iff.1 h
    obtain ⟨last, hlast, rfl, hhex⟩ := group?_cut hgroup
    refine ⟨run ++ last, rest, ?_, ?_, ?_, ?_⟩
    · rw [List.append_assoc, ← hlast, ← hrun]
    · rw [List.length_append, hlength]
    · exact fun c hc => (List.mem_append.1 hc).elim (hcoloned c) (hhex c)
    · rw [List.count_append]
      omega
  · cases h

theorem startsColoned_inner {s : List Char} {n : Nat} (h : inner? s = some n) : StartsColoned s n := by
  obtain ⟨run, hrun, hlength, hcount, hcoloned⟩ := closedGroups_cut 7 s
  rw [inner?] at h
  split at h
  · rename_i count t hsome hrest
    have hs : s = run ++ [':'] ++ t := by rw [List.append_assoc, List.singleton_append, ← hrest, ← hrun]
    have htwo : (run ++ [':']).count ':' = count + 2 := by
      rw [List.count_append, hcount, hsome, List.count_singleton_self]
    have hcolons : ∀ c ∈ run ++ [':'], isColoned c = true := fun c hc =>
      (List.mem_append.1 hc).elim (hcoloned c) fun hc => by
        rw [List.mem_singleton.1 hc]
        decide
    split at h
    · rename_i k rest hgroup
      obtain ⟨first, hfirst, rfl, hhex⟩ := group?_cut hgroup
      obtain ⟨others, behind, hothers, hlengthOthers, hrunOthers⟩ := openGroups_cut 5 rest
      obtain rfl := Option.some.inj h
      refine ⟨run ++ [':'] ++ (first ++ others), behind, ?_, ?_, ?_, ?_⟩
      · rw [hs, hfirst, hothers]
        simp only [List.append_assoc]
      · simp only [List.length_append, List.length_singleton, hlength, hlengthOthers]
        omega
      · intro c hc
        rcases List.mem_append.1 hc with hc | hc
        · exact hcolons c hc
        · exact (List.mem_append.1 hc).elim (hhex c) (hrunOthers c)
      · rw [List.count_append]
        omega
    · obtain rfl := Option.some.inj h
      refine ⟨run ++ [':'], t, hs, ?_, hcolons, ?_⟩
      · rw [List.length_append, hlength, List.length_singleton]
      · omega
  · cases h

theorem startsColoned_leading {s : List Char} {n : Nat} (h : leading? s = some n) : StartsColoned s n := by
  rw [leading?.eq_def] at h
  split at h
  · rename_i t
    obtain ⟨run, hrun, hlength, hcount, hcoloned⟩ := closedGroups_cut 6 t
    have hcolons : ∀ c ∈ ':' :: ':' :: run, isColoned c = true := by
      intro c hc
      rcases List.mem_cons.1 hc with rfl | hc
      · decide
      · rcases List.mem_cons.1 hc with rfl | hc
        · decide
        · exact hcoloned c hc
    dsimp only at h
    split at h
    · rename_i k rest hgroup
      obtain ⟨last, hlast, rfl, hhex⟩ := group?_cut hgroup
      obtain rfl := Option.some.inj h
      refine ⟨':' :: ':' :: (run ++ last), rest, ?_, ?_, ?_, ?_⟩
      · rw [List.cons_append, List.cons_append, List.append_assoc, ← hlast, ← hrun]
      · simp only [List.length_cons, List.length_append, hlength]
        omega
      · intro c hc
        rw [← List.cons_append, ← List.cons_append] at hc
        exact (List.mem_append.1 hc).elim (hcolons c) (hhex c)
      · rw [List.count_cons_self, List.count_cons_self]
        omega
    · -- The colon behind the last group is left alone.
      rename_i count hgroup hsome
      obtain rfl := Option.some.inj h
      rcases List.eq_nil_or_concat run with rfl | ⟨init, last, rfl⟩
      · exact absurd (hcount.trans hsome) (Nat.succ_ne_zero _).symm
      · rw [List.concat_eq_append] at hrun hlength hcolons
        refine ⟨':' :: ':' :: init, last :: (closedGroups 6 t).rest, ?_, ?_, ?_, ?_⟩
        · rw [List.append_assoc, List.singleton_append] at hrun
          exact congrArg (':' :: ':' :: ·) hrun
        · simp only [List.length_append, List.length_singleton] at hlength
          simp only [List.length_cons]
          omega
        · exact fun c hc => hcolons c (List.mem_append_left [last] hc)
        · rw [List.count_cons_self, List.count_cons_self]
          omega
    · cases h
  · cases h

theorem startsColoned_v6 {before : Option Char} {s : List Char} {n : Nat} (h : v6 before s = some n) :
    StartsColoned s n := by
  rw [v6, Option.or_eq_some_iff, Option.or_eq_some_iff] at h
  rcases h with h | ⟨-, h | ⟨-, h⟩⟩
  · exact startsColoned_whole h
  · exact startsColoned_inner h
  · exact startsColoned_leading h

/-! ## Both passes -/

/-- What matches of the patterns for addresses are made of. -/
def isAddressed (c : Char) : Bool := isDotted c || isColoned c

/-- A pattern that looks for addresses: it is local, and its matches have the characters of addresses, with dots or
colons enough among them. -/
structure SeeksAddresses (p : Text.Pattern) : Prop where
  apart : Text.Local p joinsAddress
  made : ∀ before s n, p before s = some n → ∃ found rest, s = found ++ rest ∧ found.length = n ∧
    (∀ c ∈ found, isAddressed c = true) ∧ (3 ≤ found.count '.' ∨ 2 ≤ found.count ':')

theorem seeksAddresses_v4 : SeeksAddresses v4 where
  apart := v4_local_joinsAddress
  made := by
    intro before s n h
    obtain ⟨found, rest, hs, hlength, hdotted, hdots, -⟩ := v4_eq_some h
    exact ⟨found, rest, hs, hlength, fun c hc => Bool.or_eq_true_iff.2 (.inl (hdotted c hc)), .inl (by omega)⟩

theorem seeksAddresses_v6 : SeeksAddresses v6 where
  apart := v6_local_joinsAddress
  made := by
    intro before s n h
    obtain ⟨found, rest, hs, hlength, hcoloned, hcolons⟩ := startsColoned_v6 h
    exact ⟨found, rest, hs, hlength, fun c hc => Bool.or_eq_true_iff.2 (.inr (hcoloned c hc)), .inr hcolons⟩

def taken (p : Text.Pattern) (s : List Char) : List Char := Text.replaceAll p placeholder.toList s

/-- What the pass for IPv6 is given. -/
def quadless (t : List Char) : List Char := taken v4 (Text.replaceAll hostname hiddenHostname.toList t)

theorem scrub_eq (t : List Char) : scrub t = taken v6 (quadless t) := rfl

section Pass

variable {p : Text.Pattern} (hp : SeeksAddresses p)
include hp

theorem SeeksAddresses.replaced (s : List Char) : Text.Replaced p placeholder.toList none s (taken p s) :=
  Text.replaced_replaceAll hp.apart.fits s

theorem SeeksAddresses.mem_found {before : Option Char} {found rest : List Char}
    (h : p before (found ++ rest) = some found.length) : ∀ c ∈ found, isAddressed c = true := by
  obtain ⟨found', rest', hsplit, hlength, hmade, -⟩ := hp.made before _ _ h
  rw [(List.append_inj hsplit hlength.symm).1]
  exact hmade

/-- With two dots and one colon at most there is no match. -/
theorem SeeksAddresses.eq_none {before : Option Char} {s : List Char} (hdots : s.count '.' ≤ 2)
    (hcolons : s.count ':' ≤ 1) : p before s = none := by
  refine Option.eq_none_iff_forall_ne_some.2 fun n h => ?_
  obtain ⟨found, rest, rfl, -, -, hmarks⟩ := hp.made before s n h
  rw [List.count_append] at hdots hcolons
  omega

theorem SeeksAddresses.taken_between {front back : List Char} (hfront : Text.Stops joinsAddress front.reverse)
    (hback : Text.Stops joinsAddress back) (core : List Char) :
    taken p (front ++ core ++ back) = taken p front ++ taken p core ++ taken p back :=
  Text.replaceAll_between hp.apart hfront hback core

end Pass
end Speedtest.Redaction
