import Speedtest.Proofs.Address.Reaching
import Speedtest.Proofs.Text.Replacing
import Speedtest.Redaction.Scrub

/-!
# What the patterns for addresses match

A match of the IPv4 pattern has digits and three dots, and stands between edges of words; a match of the IPv6 pattern
has hexadecimal digits and colons. Neither looks further than the next character that it cannot have. The text of an
address matches as a whole, in each of the shapes that it is written in.
-/
namespace Speedtest.Redaction

open Address (V4 V6)

/-! ## Digits and word characters -/

theorem inRanges_mono {ranges ranges' : List (Nat × Nat)} {n : Nat}
    (hcover : ranges.all (fun r => ranges'.any fun r' => Nat.ble r'.1 r.1 && Nat.ble r.2 r'.2) = true)
    (h : Text.inRanges ranges n = true) : Text.inRanges ranges' n = true := by
  obtain ⟨r, hr, hn⟩ := List.any_eq_true.1 h
  obtain ⟨r', hr', hover⟩ := List.any_eq_true.1 (List.all_eq_true.1 hcover r hr)
  simp only [Bool.and_eq_true, decide_eq_true_eq] at hn
  rw [Bool.and_eq_true, Nat.ble_eq, Nat.ble_eq] at hover
  refine List.any_eq_true.2 ⟨r', hr', ?_⟩
  simp only [Bool.and_eq_true, decide_eq_true_eq]
  omega

theorem isWord_of_isDigit {c : Char} (h : Text.isDigit c = true) : Text.isWord c = true := by
  rw [Text.isDigit] at h
  rw [Text.isWord]
  split
  · rename_i hlt
    rw [if_pos hlt] at h
    rw [h, Bool.or_true, Bool.true_or]
  · rename_i hlt
    rw [if_neg hlt] at h
    exact inRanges_mono (by decide +kernel) h

/-! ## Runs with a mark behind them -/

section Ended

variable {most n : Nat} {kind : Char → Bool} {mark : Char} {s rest : List Char}

/-- One to `most` characters of a kind and the mark behind them: how many characters that makes, and the text behind. -/
def ended? (most : Nat) (kind : Char → Bool) (mark : Char) (s : List Char) : Option (Nat × List Char) :=
  (Text.run? most kind s).bind fun (n, rest) => (Text.dropLead? [mark] rest).map fun rest => (n + 1, rest)

theorem ended?_eq_some (h : ended? most kind mark s = some (n, rest)) :
    ∃ run, s = run ++ mark :: rest ∧ n = run.length + 1 ∧ run ≠ [] ∧ ∀ c ∈ run, kind c = true := by
  obtain ⟨⟨k, behind⟩, hrun, h⟩ := Option.bind_eq_some_iff.1 h
  obtain ⟨rest', hmark, h⟩ := Option.map_eq_some_iff.1 h
  obtain ⟨rfl, rfl⟩ := Prod.mk.inj h
  obtain rfl := Text.dropLead?_eq_some_iff.1 hmark
  obtain ⟨run, rfl, rfl, hne, hkind⟩ := Text.run?_eq_some hrun
  exact ⟨run, rfl, rfl, hne, hkind⟩

theorem ended?_append_cons {c : Char} (hkind : kind c = false) (hmark : c ≠ mark) (s t : List Char) :
    ended? most kind mark (s ++ c :: t) = (ended? most kind mark s).map fun (n, rest) => (n, rest ++ c :: t) := by
  rw [ended?, ended?, Text.run?_append_cons hkind]
  cases Text.run? most kind s with
  | none => rfl
  | some found =>
    obtain ⟨n, rest⟩ := found
    cases rest with
    | nil => simp [Text.dropLead?, hmark.symm]
    | cons d rest => by_cases hd : mark = d <;> simp [Text.dropLead?, hd]

theorem ended?_run {run : List Char} (hne : run ≠ []) (hrun : ∀ c ∈ run, kind c = true) (hmost : run.length ≤ most)
    (hmark : kind mark = false) : ended? most kind mark (run ++ mark :: rest) = some (run.length + 1, rest) := by
  rw [ended?, Text.run?_run hne hrun hmost (Text.stops_cons hmark rest)]
  simp [Text.dropLead?]

end Ended

theorem dotted?_eq (s : List Char) : dotted? s = ended? 3 Text.isDigit '.' s := by
  rw [dotted?, ended?]
  rcases Text.run? 3 Text.isDigit s with _ | ⟨n, _ | ⟨c, rest⟩⟩
  · rfl
  · rfl
  · by_cases hc : c = '.'
    · subst hc
      rfl
    · simp [Text.dropLead?, Ne.symm hc, hc]

theorem closed?_eq (s : List Char) : closed? s = ended? 4 Text.isHexDigit ':' s := by
  rw [closed?, group?, ended?]
  rcases Text.run? 4 Text.isHexDigit s with _ | ⟨n, _ | ⟨c, rest⟩⟩
  · rfl
  · rfl
  · by_cases hc : c = ':'
    · subst hc
      rfl
    · simp [Text.dropLead?, Ne.symm hc, hc]

/-! ## IPv4 -/

/-- What a match of the IPv4 pattern is made of. -/
def isDotted (c : Char) : Bool := Text.isDigit c || c == '.'

/-- What may go on with a match of the IPv4 pattern, or keeps it from being one. -/
def joinsQuad (c : Char) : Bool := Text.isWord c || c == '.'

theorem no_dot_of_digits {run : List Char} (h : ∀ c ∈ run, Text.isDigit c = true) : run.count '.' = 0 :=
  List.count_eq_zero.2 fun hdot => absurd (h '.' hdot) (by decide)

/-- A match is a run of digits and dots, three of them dots, that does not start inside a word. -/
theorem v4_eq_some {before : Option Char} {s : List Char} {n : Nat} (h : v4 before s = some n) :
    ∃ found rest, s = found ++ rest ∧ found.length = n ∧ (∀ c ∈ found, isDotted c = true) ∧ found.count '.' = 3 ∧
      before.any Text.isWord = false := by
  rw [v4] at h
  split at h
  · exact nomatch h
  · rename_i hbefore
    obtain ⟨⟨n1, s1⟩, h1, h⟩ := Option.bind_eq_some_iff.1 h
    obtain ⟨⟨n2, s2⟩, h2, h⟩ := Option.bind_eq_some_iff.1 h
    obtain ⟨⟨n3, s3⟩, h3, h⟩ := Option.bind_eq_some_iff.1 h
    obtain ⟨⟨n4, s4⟩, h4, h⟩ := Option.bind_eq_some_iff.1 h
    rw [dotted?_eq] at h1 h2 h3
    obtain ⟨r1, rfl, rfl, -, hr1⟩ := ended?_eq_some h1
    obtain ⟨r2, rfl, rfl, -, hr2⟩ := ended?_eq_some h2
    obtain ⟨r3, rfl, rfl, -, hr3⟩ := ended?_eq_some h3
    obtain ⟨r4, rfl, rfl, -, hr4⟩ := Text.run?_eq_some h4
    have hn : r1.length + 1 + (r2.length + 1) + (r3.length + 1) + r4.length = n := by
      dsimp only at h
      split at h
      · exact nomatch h
      · exact Option.some.inj h
    refine ⟨r1 ++ '.' :: (r2 ++ '.' :: (r3 ++ '.' :: r4)), s4, by simp, ?_, ?_, ?_, by simpa using hbefore⟩
    · simp only [List.length_append, List.length_cons]
      omega
    · intro c hc
      simp only [List.mem_append, List.mem_cons] at hc
      rw [isDotted, Bool.or_eq_true, beq_iff_eq]
      rcases hc with hc | rfl | hc | rfl | hc | rfl | hc
      · exact .inl (hr1 c hc)
      · exact .inr rfl
      · exact .inl (hr2 c hc)
      · exact .inr rfl
      · exact .inl (hr3 c hc)
      · exact .inr rfl
      · exact .inl (hr4 c hc)
    · simp [List.count_append, no_dot_of_digits hr1, no_dot_of_digits hr2, no_dot_of_digits hr3, no_dot_of_digits hr4]

theorem v4_fits : Text.Fits v4 := by
  intro before s n h
  obtain ⟨found, rest, rfl, rfl, -, hdots, -⟩ := v4_eq_some h
  have hle : found.count '.' ≤ found.length := List.count_le_length
  exact ⟨by omega, by simp⟩

/-- What stands behind a character that joins no quad has no part in the match. -/
theorem v4_ahead (before : Option Char) (s : List Char) (c : Char) (t : List Char) (hc : joinsQuad c = false) :
    v4 before (s ++ c :: t) = v4 before s := by
  obtain ⟨hword, hdot⟩ : Text.isWord c = false ∧ c ≠ '.' := by simpa [joinsQuad] using hc
  have hdigit : Text.isDigit c = false := Bool.eq_false_iff.2 fun h => by simp [isWord_of_isDigit h] at hword
  have hdotted (s : List Char) : dotted? (s ++ c :: t) = (dotted? s).map fun (n, rest) => (n, rest ++ c :: t) := by
    rw [dotted?_eq, dotted?_eq, ended?_append_cons hdigit hdot]
  rw [v4, v4]
  split
  · rfl
  · rw [hdotted]
    rcases dotted? s with _ | ⟨n1, s1⟩
    · rfl
    simp only [Option.map_some, Option.bind_eq_bind, Option.bind_some, hdotted]
    rcases dotted? s1 with _ | ⟨n2, s2⟩
    · rfl
    simp only [Option.map_some, Option.bind_some, hdotted]
    rcases dotted? s2 with _ | ⟨n3, s3⟩
    · rfl
    simp only [Option.map_some, Option.bind_some, Text.run?_append_cons hdigit]
    rcases Text.run? 3 Text.isDigit s3 with _ | ⟨n4, s4⟩
    · rfl
    -- The fourth number may end at the character itself, which is then the edge of a word.
    cases s4 with
    | nil => simp [hword]
    | cons d s4 => rfl

theorem v4_local : Text.Local v4 joinsQuad where
  fits := v4_fits
  ahead := v4_ahead
  behind := by
    intro c s hc
    obtain ⟨hword, -⟩ : Text.isWord c = false ∧ c ≠ '.' := by simpa [joinsQuad] using hc
    simp [v4, hword]

/-- A word character stands next to what these are the neighbours of. -/
def Touched (before after : Option Char) : Prop := before.any Text.isWord = true ∨ after.any Text.isWord = true

instance (before after : Option Char) : Decidable (Touched before after) := inferInstanceAs (Decidable (_ ∨ _))

/-- An address is a match exactly where no word character stands next to it. -/
theorem v4_text (a : V4) (before : Option Char) {rest : List Char} (hstop : Text.Stops Text.isDigit rest) :
    v4 before (a.text ++ rest) =
      if Touched before rest.head? then none else some a.text.length := by
  have hdigits (o : UInt8) : ∀ c ∈ V4.octetText o, Text.isDigit c = true := fun _ hc =>
    Text.isDigit_of_isAsciiDigit (V4.isAsciiDigit_of_mem_octetText hc)
  have hne (o : UInt8) : V4.octetText o ≠ [] := Text.decimal_ne_nil _
  have hdotted (o : UInt8) (s : List Char) :
      dotted? (V4.octetText o ++ '.' :: s) = some ((V4.octetText o).length + 1, s) := by
    rw [dotted?_eq, ended?_run (hne o) (hdigits o) (V4.length_octetText_le o) (by decide)]
  have hlast : Text.run? 3 Text.isDigit (V4.octetText a.o4 ++ rest) = some ((V4.octetText a.o4).length, rest) :=
    Text.run?_run (hne a.o4) (hdigits a.o4) (V4.length_octetText_le a.o4) hstop
  have htext : a.text ++ rest = V4.octetText a.o1 ++ '.' :: (V4.octetText a.o2 ++ '.' ::
      (V4.octetText a.o3 ++ '.' :: (V4.octetText a.o4 ++ rest))) := by
    simp [V4.text_eq]
  have hlength : (V4.octetText a.o1).length + 1 + ((V4.octetText a.o2).length + 1) +
      ((V4.octetText a.o3).length + 1) + (V4.octetText a.o4).length = a.text.length := by
    simp only [V4.text_eq, List.length_append, List.length_cons]
    omega
  rw [htext, v4]
  by_cases hbefore : before.any Text.isWord = true
  · rw [if_pos hbefore, if_pos (.inl hbefore)]
  · have hbehind : Touched before rest.head? ↔ rest.head?.any Text.isWord = true := or_iff_right hbefore
    simp only [hbefore, Bool.false_eq_true, if_false, hdotted, Option.bind_eq_bind, Option.bind_some, hlast, hlength,
      hbehind]

/-! ## IPv6 -/

/-- What a match of the IPv6 pattern is made of. -/
def isColoned (c : Char) : Bool := Text.isHexDigit c || c == ':'

section Behind

variable {c : Char}

theorem group?_append_cons (hc : isColoned c = false) (s t : List Char) :
    group? (s ++ c :: t) = (group? s).map fun (n, rest) => (n, rest ++ c :: t) :=
  Text.run?_append_cons (Bool.or_eq_false_iff.1 hc).1 s t

theorem closed?_append_cons (hc : isColoned c = false) (s t : List Char) :
    closed? (s ++ c :: t) = (closed? s).map fun (n, rest) => (n, rest ++ c :: t) := by
  obtain ⟨hhex, hcolon⟩ := Bool.or_eq_false_iff.1 hc
  rw [closed?_eq, closed?_eq, ended?_append_cons hhex (beq_eq_false_iff_ne.1 hcolon)]

theorem closedGroups_append_cons (hc : isColoned c = false) (most : Nat) (s t : List Char) :
    closedGroups most (s ++ c :: t) =
      ⟨(closedGroups most s).count, (closedGroups most s).taken, (closedGroups most s).rest ++ c :: t⟩ := by
  induction most generalizing s with
  | zero => rfl
  | succ most ih =>
    rw [closedGroups, closedGroups, closed?_append_cons hc]
    cases closed? s with
    | none => rfl
    | some found => simp only [Option.map_some, ih]

/-- What stands behind a character that is in no group has no part in the groups. -/
theorem openGroups_append_cons (hc : isColoned c = false) (most : Nat) (s t : List Char) :
    openGroups most (s ++ c :: t) = openGroups most s := by
  obtain ⟨-, hcolon⟩ := Bool.or_eq_false_iff.1 hc
  have hne : c ≠ ':' := beq_eq_false_iff_ne.1 hcolon
  induction most generalizing s with
  | zero => rfl
  | succ most ih =>
    cases s with
    | nil => simp [openGroups, hne]
    | cons d s =>
      by_cases hd : d = ':'
      · subst hd
        rw [List.cons_append, openGroups, openGroups, group?_append_cons hc]
        cases group? s with
        | none => rfl
        | some found => simp only [Option.map_some, ih]
      · simp [openGroups, hd]

/-- What stands behind a character that is in no group has no part in the match. -/
theorem v6_ahead (before : Option Char) (s : List Char) (c : Char) (t : List Char) (hc : isColoned c = false) :
    v6 before (s ++ c :: t) = v6 before s := by
  obtain ⟨-, hcolon⟩ := Bool.or_eq_false_iff.1 hc
  have hne : c ≠ ':' := beq_eq_false_iff_ne.1 hcolon
  have hwhole : whole? (s ++ c :: t) = whole? s := by
    simp only [whole?, closedGroups_append_cons hc, group?_append_cons hc, Option.map_map]
    rfl
  have hinner : inner? (s ++ c :: t) = inner? s := by
    simp only [inner?, closedGroups_append_cons hc]
    -- Where the groups end with the text, the character takes the place of a second colon, which it is not.
    rcases (closedGroups 7 s) with ⟨_ | count, taken, _ | ⟨d, rest⟩⟩
    · rfl
    · rfl
    · simp [hne]
    · by_cases hd : d = ':'
      · subst hd
        simp only [List.cons_append, group?_append_cons hc]
        rcases group? rest with _ | ⟨n, behind⟩
        · rfl
        · simp only [Option.map_some, openGroups_append_cons hc]
      · simp [hd]
  have hleading : leading? (s ++ c :: t) = leading? s := by
    match s with
    | [] => simp [leading?, hne]
    | [d] => simp [leading?, hne]
    | d :: e :: s =>
      by_cases hd : d = ':' ∧ e = ':'
      · obtain ⟨rfl, rfl⟩ := hd
        simp only [List.cons_append, leading?, closedGroups_append_cons hc, group?_append_cons hc]
        rcases (closedGroups 6 s) with ⟨count, taken, rest⟩
        rcases group? rest with _ | ⟨n, behind⟩ <;> rfl
      · have hother (s : List Char) : leading? (d :: e :: s) = none := by
          rw [leading?]
          intro s' hs'
          obtain ⟨rfl, htail⟩ := List.cons.inj hs'
          exact hd ⟨rfl, (List.cons.inj htail).1⟩
        rw [List.cons_append, List.cons_append, hother, hother]
  rw [v6, v6, hwhole, hinner, hleading]

end Behind

/-! ### Lengths of matches -/

theorem group?_eq_some {s rest : List Char} {n : Nat} (h : group? s = some (n, rest)) :
    0 < n ∧ s.length = n + rest.length := by
  obtain ⟨run, rfl, rfl, hne, -⟩ := Text.run?_eq_some h
  exact ⟨List.length_pos_iff.2 hne, List.length_append⟩

/-- What is taken and what is left are the whole text, and every colon counted was taken. -/
theorem closedGroups_length (most : Nat) (s : List Char) :
    s.length = (closedGroups most s).taken + (closedGroups most s).rest.length ∧
      (closedGroups most s).count ≤ (closedGroups most s).taken := by
  induction most generalizing s with
  | zero => simp [closedGroups]
  | succ most ih =>
    rw [closedGroups]
    cases h : closed? s with
    | none => simp
    | some found =>
      obtain ⟨n, rest⟩ := found
      rw [closed?_eq] at h
      obtain ⟨run, rfl, rfl, hne, -⟩ := ended?_eq_some h
      obtain ⟨hlength, hcount⟩ := ih rest
      simp only [List.length_append, List.length_cons]
      omega

theorem openGroups_le (most : Nat) (s : List Char) : openGroups most s ≤ s.length := by
  induction most generalizing s with
  | zero => exact Nat.zero_le _
  | succ most ih =>
    unfold openGroups
    split
    · rename_i t
      cases h : group? t with
      | none => exact Nat.zero_le _
      | some found =>
        obtain ⟨hpos, hlength⟩ := group?_eq_some h
        have hrest := ih found.2
        simp only [List.length_cons]
        omega
    · exact Nat.zero_le _

/-- A match for IPv6 has at least one character, and no more than there are. -/
theorem v6_fits : Text.Fits v6 := by
  intro before s n h
  rw [v6, Option.or_eq_some_iff, Option.or_eq_some_iff] at h
  rcases h with h | ⟨-, h | ⟨-, h⟩⟩
  · obtain ⟨hlength, hcount⟩ := closedGroups_length 7 s
    rw [whole?] at h
    dsimp only at h
    split at h
    · obtain ⟨found, hgroup, rfl⟩ := Option.map_eq_some_iff.1 h
      obtain ⟨hpos, hrest⟩ := group?_eq_some hgroup
      omega
    · exact nomatch h
  · obtain ⟨hlength, hcount⟩ := closedGroups_length 7 s
    rw [inner?] at h
    split at h
    · rename_i count t hsome hrest
      rw [hrest, List.length_cons] at hlength
      split at h
      · rename_i k rest hgroup
        obtain ⟨hpos, hbehind⟩ := group?_eq_some hgroup
        have hopen := openGroups_le 5 rest
        obtain rfl := Option.some.inj h
        omega
      · obtain rfl := Option.some.inj h
        omega
    · exact nomatch h
  · rw [leading?.eq_def] at h
    split at h
    · rename_i t
      obtain ⟨hlength, hcount⟩ := closedGroups_length 6 t
      simp only [List.length_cons]
      dsimp only at h
      split at h
      · rename_i k rest hgroup
        obtain ⟨hpos, hbehind⟩ := group?_eq_some hgroup
        obtain rfl := Option.some.inj h
        omega
      · obtain rfl := Option.some.inj h
        omega
      · exact nomatch h
    · exact nomatch h

theorem v6_local : Text.Local v6 isColoned where
  fits := v6_fits
  ahead := v6_ahead
  behind := fun _ _ _ => rfl

theorem closed?_of_no_colon {s : List Char} (h : ':' ∉ s) : closed? s = none := by
  rw [closed?_eq]
  refine Option.eq_none_iff_forall_ne_some.2 fun found hfound => h ?_
  obtain ⟨run, rfl, -⟩ := ended?_eq_some hfound
  exact List.mem_append_right run List.mem_cons_self

/-- There is no match without a colon. -/
theorem v6_of_no_colon {before : Option Char} {s : List Char} (h : ':' ∉ s) : v6 before s = none := by
  have hgroups : closedGroups 7 s = ⟨0, 0, s⟩ := by rw [closedGroups, closed?_of_no_colon h]
  have hleading : leading? s = none := by
    rw [leading?.eq_def]
    split
    · exact absurd List.mem_cons_self h
    · rfl
  rw [v6, whole?, inner?, hgroups, hleading]
  rfl

/-! ### Groups as they are written -/

theorem group?_hexadecimal (g : UInt16) {rest : List Char} (hstop : Text.Stops Text.isHexDigit rest) :
    group? (Text.hexadecimal g.toNat ++ rest) = some ((Text.hexadecimal g.toNat).length, rest) := by
  have hg : g.toNat < Nat.pow 16 4 := g.toNat_lt
  exact Text.run?_run (Text.hexadecimal_ne_nil _) (fun _ => Text.isHexDigit_of_mem_hexadecimal)
    (Text.length_hexadecimal_le (by decide) hg) hstop

theorem group?_hexadecimal_end (g : UInt16) :
    group? (Text.hexadecimal g.toNat) = some ((Text.hexadecimal g.toNat).length, []) := by
  have hgroup := group?_hexadecimal g (Text.stops_nil Text.isHexDigit)
  rwa [List.append_nil] at hgroup

theorem closed?_colon (s : List Char) : closed? (':' :: s) = none := by
  rw [closed?, group?, Text.run?_of_stops (Text.stops_cons (by decide) s)]

/-- Groups with a colon behind each. -/
def closedText (groups : List UInt16) : List Char := groups.flatMap fun g => Text.hexadecimal g.toNat ++ [':']

theorem closedText_cons (g : UInt16) (groups : List UInt16) :
    closedText (g :: groups) = Text.hexadecimal g.toNat ++ ':' :: closedText groups := by
  simp [closedText]

theorem joined_concat (groups : List UInt16) (g : UInt16) :
    V6.joined (groups ++ [g]) = closedText groups ++ Text.hexadecimal g.toNat := by
  induction groups with
  | nil => rfl
  | cons h groups ih =>
    have hstep : V6.joined (h :: groups ++ [g]) = Text.hexadecimal h.toNat ++ ':' :: V6.joined (groups ++ [g]) := by
      cases groups <;> rfl
    rw [hstep, ih, closedText_cons, List.append_assoc, List.cons_append]

theorem joined_colon {groups : List UInt16} (hne : groups ≠ []) : V6.joined groups ++ [':'] = closedText groups := by
  rcases List.eq_nil_or_concat groups with rfl | ⟨init, g, rfl⟩
  · exact absurd rfl hne
  · rw [List.concat_eq_append, joined_concat, closedText, closedText, List.flatMap_append, List.append_assoc]
    simp

/-- Groups with colons behind them are read as far as they go. -/
theorem closedGroups_closedText {groups : List UInt16} {most : Nat} {rest : List Char} (hmost : groups.length ≤ most)
    (hend : groups.length = most ∨ closed? rest = none) :
    closedGroups most (closedText groups ++ rest) = ⟨groups.length, (closedText groups).length, rest⟩ := by
  induction groups generalizing most with
  | nil =>
    cases most with
    | zero => rfl
    | succ most =>
      have hnone : closed? rest = none := hend.resolve_left (Nat.succ_ne_zero most).symm
      change closedGroups (most + 1) rest = _
      rw [closedGroups, hnone]
      rfl
  | cons g groups ih =>
    obtain ⟨most, rfl⟩ : ∃ m, most = m + 1 := ⟨most - 1, by simp at hmost; omega⟩
    have hg : g.toNat < Nat.pow 16 4 := g.toNat_lt
    have hfirst : closed? (closedText (g :: groups) ++ rest) =
        some ((Text.hexadecimal g.toNat).length + 1, closedText groups ++ rest) := by
      rw [closedText_cons, List.append_assoc, List.cons_append, closed?_eq,
        ended?_run (Text.hexadecimal_ne_nil _) (fun _ => Text.isHexDigit_of_mem_hexadecimal)
          (Text.length_hexadecimal_le (by decide) hg) (by decide)]
    have hrest := ih (Nat.le_of_succ_le_succ hmost) (hend.imp_left Nat.succ.inj)
    rw [closedGroups, hfirst]
    simp only [hrest, closedText_cons g, List.length_append, List.length_cons]
    congr 1
    omega

/-- Groups with colons in front of them are read as far as they go. -/
theorem openGroups_led {groups : List UInt16} {most : Nat} (hmost : groups.length ≤ most) :
    openGroups most (V6.led groups) = (V6.led groups).length := by
  induction groups generalizing most with
  | nil => cases most <;> rfl
  | cons g groups ih =>
    obtain ⟨most, rfl⟩ : ∃ m, most = m + 1 := ⟨most - 1, by simp at hmost; omega⟩
    have hled : V6.led (g :: groups) = ':' :: (Text.hexadecimal g.toNat ++ V6.led groups) := rfl
    rw [hled, openGroups, group?_hexadecimal g (V6.stops_led_end groups)]
    simp only [ih (Nat.le_of_succ_le_succ hmost), List.length_cons, List.length_append]
    omega

/-! ### The three shapes -/

theorem whole?_joined {groups : List UInt16} (h : groups.length = 8) :
    whole? (V6.joined groups) = some (V6.joined groups).length := by
  rcases List.eq_nil_or_concat groups with rfl | ⟨init, g, rfl⟩
  · exact nomatch h
  · rw [List.concat_eq_append] at h ⊢
    have hinit : init.length = 7 := by simpa using h
    have hlast := group?_hexadecimal_end g
    rw [joined_concat, whole?, closedGroups_closedText (Nat.le_of_eq hinit) (.inl hinit)]
    simp [hinit, hlast]

/-- The sign for zeros behind groups, and perhaps in front of others. -/
theorem inner?_compressed {before after : List UInt16} (hne : before ≠ []) (hlength : before.length + after.length ≤ 6)
    (hclosed : closedGroups 7 (closedText before ++ ':' :: V6.joined after) =
      ⟨before.length, (closedText before).length, ':' :: V6.joined after⟩) :
    inner? (closedText before ++ ':' :: V6.joined after) =
      some (closedText before ++ ':' :: V6.joined after).length := by
  obtain ⟨b, before, rfl⟩ := List.exists_cons_of_ne_nil hne
  rw [inner?, hclosed]
  cases after with
  | nil =>
    have hnone : group? [] = none := rfl
    simp only [V6.joined, hnone, List.length_append, List.length_cons, List.length_nil, Nat.zero_add]
  | cons g after =>
    have hopen : openGroups 5 (V6.led after) = (V6.led after).length :=
      openGroups_led (by simp only [List.length_cons] at hlength; omega)
    simp only [V6.joined_cons, List.length_cons, group?_hexadecimal g (V6.stops_led_end after), hopen, List.length_append]
    congr 1
    omega

/-- The sign for zeros in front of all groups. -/
theorem leading?_compressed {after : List UInt16} (hne : after ≠ []) (hlength : after.length ≤ 6) :
    leading? (':' :: ':' :: V6.joined after) = some (V6.joined after).length.succ.succ := by
  rcases List.eq_nil_or_concat after with rfl | ⟨init, g, rfl⟩
  · exact absurd rfl hne
  · rw [List.concat_eq_append] at hlength ⊢
    have hlast := group?_hexadecimal_end g
    have hcolon : ':' ∉ Text.hexadecimal g.toNat := fun h =>
      absurd (Text.isHexDigit_of_mem_hexadecimal h) (by decide)
    have hinit : init.length ≤ 6 := by simp at hlength; omega
    rw [joined_concat, leading?, closedGroups_closedText hinit (.inr (closed?_of_no_colon hcolon))]
    simp only [hlast, List.length_append]
    congr 1
    omega

/-- An address that is written with groups and at least one of them is matched as a whole. -/
theorem v6_text {b : V6} (hdot : '.' ∉ b.text) (hne : b.text ≠ "::".toList) (before : Option Char) :
    v6 before b.text = some b.text.length := by
  have htext : b.text = V6.groupsText b.groups := by
    cases hmapped : b.mapped? with
    | none => exact V6.text_of_mapped? hmapped
    | some quad =>
      refine absurd ?_ hdot
      rw [V6.text, hmapped]
      simp [V4.text_eq]
  rcases V6.groupsText_cases b.groups with hfull | ⟨front, zeros, back, hzeros, hgroups, hcompressed⟩
  · rw [htext, hfull, v6, whole?_joined b.length_eq]
    rfl
  -- With two zeros or more left out there are at most six groups, so the first shape does not match.
  have hlength : front.length + zeros + back.length = 8 := by
    have hall := b.length_eq
    rwa [hgroups, List.length_append, List.length_append, List.length_replicate] at hall
  rw [hcompressed] at htext
  cases front with
  | nil =>
    have hcolons : b.text = ':' :: ':' :: V6.joined back := by rw [htext]; rfl
    have hback : back ≠ [] := by
      rintro rfl
      exact hne hcolons
    have hgroups7 : closedGroups 7 (':' :: ':' :: V6.joined back) = ⟨0, 0, ':' :: ':' :: V6.joined back⟩ := by
      rw [closedGroups, closed?_colon]
    rw [hcolons, v6, whole?, inner?, hgroups7, leading?_compressed hback (by simp at hlength; omega)]
    rfl
  | cons g front =>
    have hfront : g :: front ≠ [] := List.cons_ne_nil g front
    have hclosedText : b.text = closedText (g :: front) ++ ':' :: V6.joined back := by
      rw [htext, ← joined_colon hfront]
      simp
    have hshort : (g :: front).length + back.length ≤ 6 := by omega
    have hclosed : closedGroups 7 (closedText (g :: front) ++ ':' :: V6.joined back) = _ :=
      closedGroups_closedText (by omega) (.inr (closed?_colon (V6.joined back)))
    have hwhole : whole? b.text = none := by
      rw [whole?, hclosedText, hclosed]
      exact if_neg (by dsimp only; omega)
    rw [v6, hwhole, hclosedText, inner?_compressed hfront hshort hclosed]
    rfl

/-! ## Host names -/

theorem hostname_of_not_lead {before : Option Char} {s : List Char} (h : ¬ hostnameKey <+: s) :
    hostname before s = none := by
  rw [hostname, Text.dropLead?_eq_none h]

end Speedtest.Redaction
