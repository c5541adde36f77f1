import Speedtest.Proofs.Json.Walking
import Speedtest.Proofs.Text.Numeral
import Speedtest.Proofs.Text.Utf8

/-!
# Lexemes of a document, by bytes and by characters

The reader takes strings, numerals and literals off bytes. A string is taken off the bytes of a text exactly where its
characters are the contents of one. What is taken as a numeral or a literal does not depend on what comes behind the
characters that either may have.
-/
namespace Speedtest.Json

open Lexeme Reader
open Text.Utf8 (encode)

/-! ## Bytes -/

theorem of_ascii {P : Char → Prop} (h : ∀ n < 128, P (Char.ofNat n)) {c : Char} (hc : c.toNat < 128) : P c := by
  have hchar := h c.toNat hc
  rwa [Char.ofNat_toNat] at hchar

section AsChar

variable (b : UInt8) (d : Char)

theorem toNat_asChar : (asChar b).toNat = b.toNat := by
  have hb := b.toNat_lt
  exact Text.Utf8.toNat_charOfNat (.inl (by omega))

theorem asChar_ofNat {c : Char} (hc : c.toNat < 0x80) : asChar (UInt8.ofNat c.toNat) = c := by
  rw [asChar, UInt8.toNat_ofNat', Nat.mod_eq_of_lt (by omega), Char.ofNat_toNat]

theorem asChar_eq_iff : asChar b = d ↔ b.toNat = d.toNat := by rw [← toNat_asChar, Char.toNat_inj]

theorem asChar_beq (hd : d.toNat < 0x80) : (asChar b == d) = (b == UInt8.ofNat d.toNat) := by
  rw [Bool.eq_iff_iff, beq_iff_eq, beq_iff_eq, asChar_eq_iff, ← UInt8.toNat_inj, UInt8.toNat_ofNat',
    Nat.mod_eq_of_lt (by omega)]

theorem le_asChar : d ≤ asChar b ↔ d.toNat ≤ b.toNat := by
  rw [← toNat_asChar]
  rfl

theorem asChar_le : asChar b ≤ d ↔ b.toNat ≤ d.toNat := by
  rw [← toNat_asChar]
  rfl

theorem isAsciiDigit_asChar : Text.isAsciiDigit (asChar b) = isDigit b := by
  rw [Bool.eq_iff_iff]
  simp only [Text.isAsciiDigit, isDigit, Bool.and_eq_true, decide_eq_true_eq, le_asChar, asChar_le,
    UInt8.le_iff_toNat_le]
  rfl

theorem isHexDigit_asChar : Text.isHexDigit (asChar b) = isHex b := by
  have hbyte : isHex b = true ↔ ('0' ≤ asChar b ∧ asChar b ≤ '9') ∨ ('a' ≤ asChar b ∧ asChar b ≤ 'f') ∨
      ('A' ≤ asChar b ∧ asChar b ≤ 'F') := by
    simp only [isHex, Bool.or_eq_true, Bool.and_eq_true, decide_eq_true_eq, le_asChar, asChar_le,
      UInt8.le_iff_toNat_le, or_assoc]
    rfl
  rw [Bool.eq_iff_iff, hbyte, Text.isHexDigit, Text.hexValue?]
  repeat' split
  all_goals simp [*]

theorem isEscape_asChar : isEscape (asChar b) = (simpleEscape? b).isSome := by
  rw [isEscape, simpleEscape?]
  generalize asChar b = c
  split
  case h_9 hquote hback hslash hb hf hn hr ht =>
    have hout : c ∉ "\"\\/bfnrt".toList := by
      simp only [String.reduceToList, List.mem_cons, List.not_mem_nil, or_false, not_or]
      exact ⟨hquote, hback, hslash, hb, hf, hn, hr, ht⟩
    rw [List.contains_eq_mem, decide_eq_false hout]
    rfl
  all_goals rfl

theorem isGap_asChar : isGap (asChar b) = isSpace b := by
  rw [isGap, asChar_beq b ' ' (by decide), asChar_beq b '\n' (by decide), asChar_beq b '\t' (by decide),
    asChar_beq b '\r' (by decide)]
  rfl

end AsChar

/-- A byte of a numeral or a literal. -/
def isBareByte (b : UInt8) : Bool := isBare (asChar b)

/-- The bytes do not go on with a numeral or a literal. -/
def Ends (t : Bytes) : Prop := ∀ b, t.head? = some b → isBareByte b = false

section Ends

variable {s t w r : Bytes} {kind : UInt8 → Bool}

theorem Ends.stops (ht : Ends t) (hkind : ∀ b, kind b = true → isBareByte b = true) :
    ∀ b, t.head? = some b → kind b = false := by
  intro b hb
  have hbare := ht b hb
  cases hk : kind b with
  | false => rfl
  | true =>
    rw [hkind b hk] at hbare
    exact nomatch hbare

theorem takeWhile_append_stops (h : ∀ b, t.head? = some b → kind b = false) (s : Bytes) :
    (s ++ t).takeWhile kind = s.takeWhile kind ∧ (s ++ t).dropWhile kind = s.dropWhile kind ++ t := by
  induction s with
  | nil =>
    cases t with
    | nil => exact ⟨rfl, rfl⟩
    | cons b t => simp [h b rfl]
  | cons b s ih =>
    rw [List.cons_append, List.takeWhile_cons, List.takeWhile_cons, List.dropWhile_cons, List.dropWhile_cons, ih.1,
      ih.2]
    cases kind b <;> exact ⟨rfl, rfl⟩

/-! ## Numerals and literals -/

theorem isBareByte_of_isDigit (b : UInt8) (hb : isDigit b = true) : isBareByte b = true := by
  rw [isBareByte, isBare, isAsciiDigit_asChar, hb]
  simp

theorem integerFrom_append (ht : Ends t) (s : Bytes) :
    integerFrom (s ++ t) = (integerFrom s).map fun found => (found.1, found.2 ++ t) := by
  obtain ⟨htake, hdrop⟩ := takeWhile_append_stops (ht.stops isBareByte_of_isDigit) s
  unfold integerFrom
  rw [htake, hdrop]
  dsimp only
  split <;> rfl

theorem fractionFrom_of_ne {b : UInt8} (hb : b ≠ 0x2E) (s : Bytes) : fractionFrom (b :: s) = some ([], b :: s) := by
  unfold fractionFrom
  split
  · rename_i heq
    exact absurd (List.cons.inj heq).1 hb
  · rfl

/-- A fraction is read alike in front of anything that ends a numeral. -/
theorem fractionFrom_append (ht : Ends t) (s : Bytes) :
    fractionFrom (s ++ t) = (fractionFrom s).map fun found => (found.1, found.2 ++ t) := by
  cases s with
  | nil =>
    cases t with
    | nil => rfl
    | cons b t =>
      have hb : b ≠ 0x2E := by
        rintro rfl
        exact absurd (ht _ rfl) (by decide)
      exact fractionFrom_of_ne hb t
  | cons b s =>
    by_cases hb : b = 0x2E
    · obtain ⟨htake, hdrop⟩ := takeWhile_append_stops (ht.stops isBareByte_of_isDigit) s
      subst hb
      rw [List.cons_append, fractionFrom, fractionFrom, htake, hdrop]
      split <;> rfl
    · rw [List.cons_append, fractionFrom_of_ne hb, fractionFrom_of_ne hb]
      rfl

/-- The sign of an exponent, and what is behind it. -/
def expSign : Bytes → Bytes × Bytes
  | c :: u => if c == 0x2B || c == 0x2D then ([c], u) else ([], c :: u)
  | [] => ([], [])

theorem expSign_append (ht : Ends t) (s : Bytes) : expSign (s ++ t) = ((expSign s).1, (expSign s).2 ++ t) := by
  cases s with
  | nil =>
    cases t with
    | nil => rfl
    | cons b t =>
      have hb : (b == 0x2B || b == 0x2D) = false := by
        have hne (d : UInt8) (hd : isBareByte d = true) : (b == d) = false :=
          beq_eq_false_iff_ne.2 (Text.ne_of_kind hd (ht b rfl)).symm
        rw [hne 0x2B (by decide), hne 0x2D (by decide)]
        rfl
      rw [List.nil_append, expSign, hb]
      rfl
  | cons b s =>
    rw [List.cons_append, expSign, expSign]
    split <;> rfl

theorem exponentFrom_cons (e : UInt8) (s : Bytes) : exponentFrom (e :: s) =
    if e == 0x65 || e == 0x45 then
      if ((expSign s).2.takeWhile isDigit).isEmpty then none
      else some (e :: (expSign s).1 ++ (expSign s).2.takeWhile isDigit, (expSign s).2.dropWhile isDigit)
    else some ([], e :: s) := by
  cases s <;> rfl

/-- An exponent is read alike in front of anything that ends a numeral. -/
theorem exponentFrom_append (ht : Ends t) (s : Bytes) :
    exponentFrom (s ++ t) = (exponentFrom s).map fun found => (found.1, found.2 ++ t) := by
  cases s with
  | nil =>
    cases t with
    | nil => rfl
    | cons b t =>
      have hb : (b == 0x65 || b == 0x45) = false := by
        have hne (d : UInt8) (hd : isBareByte d = true) : (b == d) = false :=
          beq_eq_false_iff_ne.2 (Text.ne_of_kind hd (ht b rfl)).symm
        rw [hne 0x65 (by decide), hne 0x45 (by decide)]
        rfl
      rw [List.nil_append, exponentFrom_cons, hb]
      rfl
  | cons b s =>
    obtain ⟨htake, hdrop⟩ := takeWhile_append_stops (ht.stops isBareByte_of_isDigit) (expSign s).2
    rw [List.cons_append, exponentFrom_cons, exponentFrom_cons, expSign_append ht, htake, hdrop]
    split
    · split <;> rfl
    · rfl

/-- The sign of a numeral, and what is behind it. -/
def signed : Bytes → Bytes × Bytes
  | 0x2D :: s => ([0x2D], s)
  | s => ([], s)

/-- A numeral is its sign, its whole part, its fraction and its exponent, one after the other. -/
theorem number?_eq (s : Bytes) : number? s =
    (integerFrom (signed s).2).bind fun whole => (fractionFrom whole.2).bind fun fraction =>
      (exponentFrom fraction.2).map fun exponent =>
        ((signed s).1 ++ whole.1 ++ fraction.1 ++ exponent.1, exponent.2) := by
  unfold number?
  split
  rename_i sign behind hsign
  have hsigned : signed s = (sign, behind) := by
    split at hsign
    · exact hsign
    · rename_i hne
      unfold signed
      split
      · exact absurd rfl (hne _)
      · exact hsign
  rw [hsigned]
  simp only [Option.bind_eq_bind, Option.map_eq_bind]
  rfl

theorem signed_of_ne {b : UInt8} (hb : b ≠ 0x2D) (s : Bytes) : signed (b :: s) = ([], b :: s) := by
  unfold signed
  split
  · rename_i heq
    exact absurd (List.cons.inj heq).1 hb
  · rfl

theorem signed_append (hs : s ≠ []) (t : Bytes) : signed (s ++ t) = ((signed s).1, (signed s).2 ++ t) := by
  obtain ⟨b, s, rfl⟩ := List.exists_cons_of_ne_nil hs
  by_cases hb : b = 0x2D
  · subst hb
    rfl
  · rw [List.cons_append, signed_of_ne hb, signed_of_ne hb]
    rfl

theorem number?_append (ht : Ends t) (hs : s ≠ []) :
    number? (s ++ t) = (number? s).map fun found => (found.1, found.2 ++ t) := by
  rw [number?_eq, number?_eq, signed_append hs, integerFrom_append ht]
  cases integerFrom (signed s).2 with
  | none => rfl
  | some whole =>
    rw [Option.map_some, Option.bind_some, Option.bind_some, fractionFrom_append ht]
    cases fractionFrom whole.2 with
    | none => rfl
    | some fraction =>
      rw [Option.map_some, Option.bind_some, Option.bind_some, exponentFrom_append ht]
      cases exponentFrom fraction.2 <;> rfl

theorem number?_of_not_bare {b : UInt8} (hb : isBareByte b = false) (s : Bytes) : number? (b :: s) = none := by
  have hminus : b ≠ 0x2D := by
    rintro rfl
    exact absurd hb (by decide)
  have hdigit : isDigit b = false := by
    cases hd : isDigit b with
    | false => rfl
    | true =>
      rw [isBareByte_of_isDigit b hd] at hb
      exact nomatch hb
  rw [number?_eq, signed_of_ne hminus, integerFrom]
  simp [hdigit]

/-- Whether a literal is in front does not hang on what ends it. -/
theorem isPrefixOf_append {name : Bytes} (hname : ∀ b ∈ name, isBareByte b = true) (ht : Ends t) (s : Bytes) :
    name.isPrefixOf (s ++ t) = name.isPrefixOf s := by
  induction name generalizing s with
  | nil => rw [List.isPrefixOf_nil_left, List.isPrefixOf_nil_left]
  | cons b name ih =>
    cases s with
    | nil =>
      cases t with
      | nil => rfl
      | cons d t =>
        have hne : (b == d) = false := beq_eq_false_iff_ne.2 fun heq => by
          have hbare := hname b List.mem_cons_self
          rw [heq, ht d rfl] at hbare
          exact nomatch hbare
        rw [List.nil_append, List.isPrefixOf_cons_cons, hne]
        rfl
    | cons d s =>
      rw [List.cons_append, List.isPrefixOf_cons_cons, List.isPrefixOf_cons_cons,
        ih fun e he => hname e (List.mem_cons_of_mem b he)]

theorem literal?_append {name : String} (hname : ∀ b ∈ Bytes.ofAscii name, isBareByte b = true) (ht : Ends t) (v : Json)
    (s : Bytes) : literal? name v (s ++ t) = (literal? name v s).map fun found => (found.1, found.2 ++ t) := by
  have hsame := isPrefixOf_append hname ht s
  unfold literal?
  dsimp only
  rw [hsame]
  split
  · rename_i hlead
    have hle := (List.isPrefixOf_iff_prefix.1 hlead).length_le
    rw [List.drop_append_of_le_length hle]
    rfl
  · rfl

/-- What starts like a numeral is taken as one. -/
theorem scalar?_eq_number? {b : UInt8} (hquote : b ≠ 0x22) (ht : b ≠ 0x74) (hf : b ≠ 0x66) (hn : b ≠ 0x6E) (s : Bytes) :
    scalar? (b :: s) = (number? (b :: s)).map fun found => (.number found.1, found.2) := by
  unfold scalar?
  split
  · rename_i heq
    exact absurd (List.cons.inj heq).1 hquote
  · rename_i heq
    exact absurd (List.cons.inj heq).1 ht
  · rename_i heq
    exact absurd (List.cons.inj heq).1 hf
  · rename_i heq
    exact absurd (List.cons.inj heq).1 hn
  · rfl

/-- What starts with no quote is taken as a literal or as a numeral, as its first byte says. -/
theorem scalar?_cases {b : UInt8} (hb : b ≠ 0x22) :
    (∃ name v, (∀ s, scalar? (b :: s) = literal? name v (b :: s)) ∧
      (∀ d ∈ Bytes.ofAscii name, isBareByte d = true) ∧ (Bytes.ofAscii name).count 0x2E = 0) ∨
    ∀ s, scalar? (b :: s) = (number? (b :: s)).map fun found => (.number found.1, found.2) := by
  by_cases htrue : b = 0x74
  · subst htrue
    exact .inl ⟨"true", .bool true, fun _ => rfl, List.all_eq_true.1 (by decide), by decide⟩
  by_cases hfalse : b = 0x66
  · subst hfalse
    exact .inl ⟨"false", .bool false, fun _ => rfl, List.all_eq_true.1 (by decide), by decide⟩
  by_cases hnull : b = 0x6E
  · subst hnull
    exact .inl ⟨"null", .null, fun _ => rfl, List.all_eq_true.1 (by decide), by decide⟩
  · exact .inr (scalar?_eq_number? hb htrue hfalse hnull)

theorem scalar?_append {b : UInt8} (hb : b ≠ 0x22) (ht : Ends t) (s : Bytes) :
    scalar? (b :: s ++ t) = (scalar? (b :: s)).map fun found => (found.1, found.2 ++ t) := by
  rcases scalar?_cases hb with ⟨name, v, hliteral, hname, -⟩ | hnumber
  · rw [List.cons_append, hliteral, hliteral, ← List.cons_append]
    exact literal?_append hname ht v (b :: s)
  · rw [List.cons_append, hnumber, hnumber, ← List.cons_append, number?_append ht (List.cons_ne_nil b s)]
    cases number? (b :: s) <;> rfl

/-! ## What is left -/

theorem suffix_of_integerFrom (h : integerFrom s = some (w, r)) : r <:+ s := by
  unfold integerFrom at h
  dsimp only at h
  split at h
  · exact nomatch h
  · exact nomatch h
  · obtain ⟨-, rfl⟩ := Prod.mk.inj (Option.some.inj h)
    exact List.dropWhile_suffix isDigit

theorem suffix_of_fractionFrom (h : fractionFrom s = some (w, r)) : r <:+ s := by
  unfold fractionFrom at h
  split at h
  · dsimp only at h
    split at h
    · exact nomatch h
    · obtain ⟨-, rfl⟩ := Prod.mk.inj (Option.some.inj h)
      exact (List.dropWhile_suffix isDigit).trans (List.suffix_cons _ _)
  · obtain ⟨-, rfl⟩ := Prod.mk.inj (Option.some.inj h)
    exact List.suffix_rfl

theorem expSign_suffix (s : Bytes) : (expSign s).2 <:+ s := by
  unfold expSign
  split
  · split
    · exact List.suffix_cons _ _
    · exact List.suffix_rfl
  · exact List.suffix_rfl

/-- Reading an exponent leaves an end of what was there. -/
theorem suffix_of_exponentFrom (h : exponentFrom s = some (w, r)) : r <:+ s := by
  cases s with
  | nil =>
    obtain ⟨-, rfl⟩ := Prod.mk.inj (Option.some.inj h)
    exact List.suffix_rfl
  | cons e s =>
    rw [exponentFrom_cons] at h
    split at h
    · split at h
      · exact nomatch h
      · obtain ⟨-, rfl⟩ := Prod.mk.inj (Option.some.inj h)
        exact ((List.dropWhile_suffix isDigit).trans (expSign_suffix s)).trans (List.suffix_cons e s)
    · obtain ⟨-, rfl⟩ := Prod.mk.inj (Option.some.inj h)
      exact List.suffix_rfl

theorem signed_suffix (s : Bytes) : (signed s).2 <:+ s := by
  unfold signed
  split
  · exact List.suffix_cons _ _
  · exact List.suffix_rfl

theorem suffix_of_number? (h : number? s = some (w, r)) : r <:+ s := by
  rw [number?_eq] at h
  obtain ⟨whole, hwhole, h⟩ := Option.bind_eq_some_iff.1 h
  obtain ⟨fraction, hfraction, h⟩ := Option.bind_eq_some_iff.1 h
  obtain ⟨exponent, hexponent, h⟩ := Option.map_eq_some_iff.1 h
  obtain ⟨-, rfl⟩ := Prod.mk.inj h
  have hexp : exponent.2 <:+ fraction.2 := suffix_of_exponentFrom hexponent
  have hfrac : fraction.2 <:+ whole.2 := suffix_of_fractionFrom hfraction
  have hint : whole.2 <:+ (signed s).2 := suffix_of_integerFrom hwhole
  exact ((hexp.trans hfrac).trans hint).trans (signed_suffix s)

theorem suffix_of_literal? {name : String} {v v' : Json} (h : literal? name v s = some (v', r)) : r <:+ s := by
  unfold literal? at h
  dsimp only at h
  split at h
  · obtain ⟨-, rfl⟩ := Prod.mk.inj (Option.some.inj h)
    exact List.drop_suffix _ s
  · exact nomatch h

/-- What a numeral or a literal leaves stood behind it. -/
theorem suffix_of_scalar? {b : UInt8} (hb : b ≠ 0x22) {v : Json} (h : scalar? (b :: s) = some (v, r)) :
    r <:+ b :: s := by
  rcases scalar?_cases hb with ⟨name, v', hliteral, -, -⟩ | hnumber
  · rw [hliteral] at h
    exact suffix_of_literal? h
  · rw [hnumber] at h
    obtain ⟨found, hfound, h⟩ := Option.map_eq_some_iff.1 h
    obtain ⟨-, rfl⟩ := Prod.mk.inj h
    exact suffix_of_number? hfound

/-! ## Points -/

theorem points_dropWhile (s : Bytes) : (s.dropWhile isDigit).count 0x2E = s.count 0x2E := by
  have hsplit := List.takeWhile_append_dropWhile (p := isDigit) (l := s)
  have hdigits := List.all_eq_true.1 (List.all_takeWhile (p := isDigit) (l := s))
  have hnone : (s.takeWhile isDigit).count 0x2E = 0 :=
    List.count_eq_zero.2 fun hmem => absurd (hdigits 0x2E hmem) (by decide)
  have hcount := congrArg (List.count 0x2E) hsplit
  rw [List.count_append, hnone, Nat.zero_add] at hcount
  exact hcount

theorem points_of_integerFrom (h : integerFrom s = some (w, r)) : s.count 0x2E = r.count 0x2E := by
  unfold integerFrom at h
  dsimp only at h
  split at h
  · exact nomatch h
  · exact nomatch h
  · obtain ⟨-, rfl⟩ := Prod.mk.inj (Option.some.inj h)
    exact (points_dropWhile s).symm

theorem points_of_fractionFrom (h : fractionFrom s = some (w, r)) : s.count 0x2E ≤ r.count 0x2E + 1 := by
  unfold fractionFrom at h
  split at h
  · dsimp only at h
    split at h
    · exact nomatch h
    · obtain ⟨-, rfl⟩ := Prod.mk.inj (Option.some.inj h)
      exact Nat.le_of_eq (by rw [List.count_cons_self, points_dropWhile])
  · obtain ⟨-, rfl⟩ := Prod.mk.inj (Option.some.inj h)
    exact Nat.le_succ _

theorem points_expSign (s : Bytes) : (expSign s).2.count 0x2E = s.count 0x2E := by
  unfold expSign
  split
  · rename_i c u
    split
    · rename_i hsign
      have hc : c ≠ 0x2E := by
        rintro rfl
        exact absurd hsign (by decide)
      rw [List.count_cons_of_ne hc]
    · rfl
  · rfl

/-- There is no point in an exponent. -/
theorem points_of_exponentFrom (h : exponentFrom s = some (w, r)) : s.count 0x2E = r.count 0x2E := by
  cases s with
  | nil =>
    obtain ⟨-, rfl⟩ := Prod.mk.inj (Option.some.inj h)
    rfl
  | cons e s =>
    rw [exponentFrom_cons] at h
    split at h
    · rename_i he
      have hne : e ≠ 0x2E := by
        rintro rfl
        exact absurd he (by decide)
      split at h
      · exact nomatch h
      · obtain ⟨-, rfl⟩ := Prod.mk.inj (Option.some.inj h)
        rw [List.count_cons_of_ne hne, points_dropWhile, points_expSign]
    · obtain ⟨-, rfl⟩ := Prod.mk.inj (Option.some.inj h)
      rfl

theorem points_signed (s : Bytes) : (signed s).2.count 0x2E = s.count 0x2E := by
  unfold signed
  split
  · rw [List.count_cons_of_ne (by decide)]
  · rfl

theorem points_of_number? (h : number? s = some (w, r)) : s.count 0x2E ≤ r.count 0x2E + 1 := by
  rw [number?_eq] at h
  obtain ⟨whole, hwhole, h⟩ := Option.bind_eq_some_iff.1 h
  obtain ⟨fraction, hfraction, h⟩ := Option.bind_eq_some_iff.1 h
  obtain ⟨exponent, hexponent, h⟩ := Option.map_eq_some_iff.1 h
  obtain ⟨-, rfl⟩ := Prod.mk.inj h
  have hsigned := points_signed s
  have hint := points_of_integerFrom hwhole
  have hfrac := points_of_fractionFrom hfraction
  have hexp := points_of_exponentFrom hexponent
  omega

theorem points_of_literal? {name : String} (hname : (Bytes.ofAscii name).count 0x2E = 0) {v v' : Json}
    (h : literal? name v s = some (v', r)) : s.count 0x2E = r.count 0x2E := by
  unfold literal? at h
  dsimp only at h
  split at h
  · rename_i hlead
    obtain ⟨-, rfl⟩ := Prod.mk.inj (Option.some.inj h)
    obtain ⟨rest, rfl⟩ := List.isPrefixOf_iff_prefix.1 hlead
    rw [List.drop_left, List.count_append, hname, Nat.zero_add]
  · exact nomatch h

/-- A numeral or a literal has one point at most. -/
theorem points_of_scalar? {b : UInt8} (hb : b ≠ 0x22) {v : Json} (h : scalar? (b :: s) = some (v, r)) :
    (b :: s).count 0x2E ≤ r.count 0x2E + 1 := by
  rcases scalar?_cases hb with ⟨name, v', hliteral, -, hname⟩ | hnumber
  · rw [hliteral] at h
    exact Nat.le_succ_of_le (Nat.le_of_eq (points_of_literal? hname h))
  · rw [hnumber] at h
    obtain ⟨found, hfound, h⟩ := Option.map_eq_some_iff.1 h
    obtain ⟨-, rfl⟩ := Prod.mk.inj h
    exact points_of_number? hfound

end Ends

/-! ## Strings -/

section Strings

theorem isHex_ofNat {c : Char} (hc : c.toNat < 0x80) : isHex (UInt8.ofNat c.toNat) = Text.isHexDigit c := by
  rw [← isHexDigit_asChar, asChar_ofNat hc]

theorem isSome_simpleEscape? {c : Char} (hc : c.toNat < 0x80) :
    (simpleEscape? (UInt8.ofNat c.toNat)).isSome = isEscape c := by
  rw [← isEscape_asChar, asChar_ofNat hc]

theorem ascii_of_isHexDigit {c : Char} (h : Text.isHexDigit c = true) : c.toNat < 0x80 :=
  Nat.lt_succ_of_lt (Text.isGraphic_of_isHexDigit h).2

theorem ascii_of_isEscape {c : Char} (h : isEscape c = true) : c.toNat < 0x80 := by
  have hall : ∀ c ∈ "\"\\/bfnrt".toList, c.toNat < 0x80 := Text.forall_of_all (by decide)
  exact hall c (List.contains_iff_mem.1 h)

/-- A byte that a string takes as it is. -/
def IsPlain (b : UInt8) : Prop := b ≠ 0x22 ∧ b ≠ 0x5C ∧ ¬ b < 0x20

theorem isPlain_iff (b : UInt8) : IsPlain b ↔ asChar b ≠ '"' ∧ asChar b ≠ '\\' ∧ ¬ asChar b < ' ' := by
  have hlt : asChar b < ' ' ↔ b < 0x20 := by
    rw [← Char.not_le, le_asChar, UInt8.lt_iff_toNat_lt, Nat.not_le]
    rfl
  rw [IsPlain, Ne, Ne, Ne, Ne, asChar_eq_iff, asChar_eq_iff, hlt, ← UInt8.toNat_inj, ← UInt8.toNat_inj]
  rfl

theorem stringFrom_plain {b : UInt8} (h : IsPlain b) (done s : Bytes) :
    stringFrom done (b :: s) = stringFrom (b :: done) s := by
  obtain ⟨hquote, hslash, hcontrol⟩ := h
  rw [stringFrom.eq_5 done b s hquote (fun _ _ _ _ _ h _ => hslash h) fun _ _ h _ => hslash h]
  simp [hslash, hcontrol]

theorem stringFrom_run {run : Bytes} (h : ∀ b ∈ run, IsPlain b) (done s : Bytes) :
    stringFrom done (run ++ s) = stringFrom (run.reverse ++ done) s := by
  induction run generalizing done with
  | nil => rfl
  | cons b run ih =>
    rw [List.cons_append, stringFrom_plain (h b List.mem_cons_self), ih fun d hd => h d (List.mem_cons_of_mem b hd),
      List.reverse_cons, List.append_assoc]
    rfl

/-- A string takes every byte of a character as it is where it takes the character so. -/
theorem isPlain_of_mem {c : Char} (hquote : c ≠ '"') (hslash : c ≠ '\\') (hcontrol : ¬ c < ' ') {b : UInt8}
    (hb : b ∈ String.utf8EncodeChar c) : IsPlain b := by
  rcases Nat.lt_or_ge c.toNat 0x80 with hc | hc
  · rw [Text.Utf8.utf8EncodeChar_of_ascii hc] at hb
    obtain rfl := List.mem_singleton.1 hb
    rw [isPlain_iff, asChar_ofNat hc]
    exact ⟨hquote, hslash, hcontrol⟩
  · have hhigh := Text.Utf8.high_of_mem hc hb
    refine ⟨?_, ?_, ?_⟩
    · rintro rfl
      exact absurd hhigh (by decide)
    · rintro rfl
      exact absurd hhigh (by decide)
    · rw [UInt8.lt_iff_toNat_lt]
      exact Nat.not_lt.2 (Nat.le_trans (by decide) hhigh)

theorem stringFrom_char {c : Char} (hquote : c ≠ '"') (hslash : c ≠ '\\') (hcontrol : ¬ c < ' ') (done : Bytes)
    (s : List Char) :
    stringFrom done (encode (c :: s)) = stringFrom ((String.utf8EncodeChar c).reverse ++ done) (encode s) := by
  rw [Text.Utf8.encode_cons]
  exact stringFrom_run (fun b hb => isPlain_of_mem hquote hslash hcontrol hb) done _

theorem stringFrom_escape {e : UInt8} (h : (simpleEscape? e).isSome = true) (done s : Bytes) :
    stringFrom done (0x5C :: e :: s) = stringFrom (e :: 0x5C :: done) s := by
  have hu : e ≠ 0x75 := by
    rintro rfl
    exact absurd h (by decide)
  rw [stringFrom.eq_4 done e s fun _ _ _ _ _ h _ => hu h, if_pos h]

theorem stringFrom_code {a b c d : UInt8} (ha : isHex a = true) (hb : isHex b = true) (hc : isHex c = true)
    (hd : isHex d = true) (done s : Bytes) :
    stringFrom done (0x5C :: 0x75 :: a :: b :: c :: d :: s) =
      stringFrom (d :: c :: b :: a :: 0x75 :: 0x5C :: done) s := by
  rw [stringFrom, ha, hb, hc, hd]
  rfl

/-- A string is taken off as its contents, which end in front of the next quote. -/
theorem stringFrom_content {w : List Char} (h : Content w) (done : Bytes) (t : List Char) :
    stringFrom done (encode (w ++ '"' :: t)) = some (done.reverse ++ encode w, encode t) := by
  induction h generalizing done with
  | nil =>
    rw [show encode [] = [] from rfl, List.append_nil]
    rfl
  | @plain c w hquote hslash hcontrol _ ih =>
    rw [List.cons_append, stringFrom_char hquote hslash hcontrol, ih, Text.Utf8.encode_cons]
    simp
  | @escaped c w hc _ ih =>
    have hascii := ascii_of_isEscape hc
    have hbytes (s : List Char) : encode ('\\' :: c :: s) = 0x5C :: UInt8.ofNat c.toNat :: encode s := by
      rw [Text.Utf8.encode_cons_of_ascii (by decide), Text.Utf8.encode_cons_of_ascii hascii]
      rfl
    have hsimple := (isSome_simpleEscape? hascii).trans hc
    rw [List.cons_append, List.cons_append, hbytes, hbytes, stringFrom_escape hsimple, ih]
    simp
  | @code a b c d w ha hb hc hd _ ih =>
    have hbytes (s : List Char) : encode ('\\' :: 'u' :: a :: b :: c :: d :: s) =
        0x5C :: 0x75 :: UInt8.ofNat a.toNat :: UInt8.ofNat b.toNat :: UInt8.ofNat c.toNat :: UInt8.ofNat d.toNat ::
          encode s := by
      rw [Text.Utf8.encode_cons_of_ascii (by decide), Text.Utf8.encode_cons_of_ascii (by decide),
        Text.Utf8.encode_cons_of_ascii (ascii_of_isHexDigit ha),
        Text.Utf8.encode_cons_of_ascii (ascii_of_isHexDigit hb),
        Text.Utf8.encode_cons_of_ascii (ascii_of_isHexDigit hc),
        Text.Utf8.encode_cons_of_ascii (ascii_of_isHexDigit hd)]
      rfl
    have hhex {x : Char} (hx : Text.isHexDigit x = true) : isHex (UInt8.ofNat x.toNat) = true :=
      (isHex_ofNat (ascii_of_isHexDigit hx)).trans hx
    simp only [List.cons_append]
    rw [hbytes, hbytes, stringFrom_code (hhex ha) (hhex hb) (hhex hc) (hhex hd), ih]
    simp

/-- What a string takes off at least: its end, an escape, or a byte as it is. -/
theorem stringFrom_cases {done s : Bytes} {found : Bytes × Bytes} (h : stringFrom done s = some found) :
    (∃ t, s = 0x22 :: t) ∨
    (∃ a b c d t, s = 0x5C :: 0x75 :: a :: b :: c :: d :: t ∧ isHex a = true ∧ isHex b = true ∧ isHex c = true ∧
      isHex d = true ∧ stringFrom (d :: c :: b :: a :: 0x75 :: 0x5C :: done) t = some found) ∨
    (∃ e t, s = 0x5C :: e :: t ∧ (simpleEscape? e).isSome = true ∧ stringFrom (e :: 0x5C :: done) t = some found) ∨
    ∃ b t, s = b :: t ∧ IsPlain b := by
  rw [stringFrom.eq_def] at h
  split at h
  · exact nomatch h
  · exact .inl ⟨_, rfl⟩
  · split at h
    · rename_i hhex
      simp only [Bool.and_eq_true] at hhex
      obtain ⟨⟨⟨ha, hb⟩, hc⟩, hd⟩ := hhex
      exact .inr (.inl ⟨_, _, _, _, _, rfl, ha, hb, hc, hd, h⟩)
    · exact nomatch h
  · split at h
    · exact .inr (.inr (.inl ⟨_, _, rfl, ‹_›, h⟩))
    · exact nomatch h
  · rename_i b t hquote _ _
    split at h
    · exact nomatch h
    · rename_i hplain
      simp only [Bool.or_eq_true, decide_eq_true_eq, beq_iff_eq, not_or] at hplain
      exact .inr (.inr (.inr ⟨b, t, rfl, hquote, hplain.2, hplain.1⟩))

theorem char_of_encode {s : List Char} {b : UInt8} {rest : Bytes} (h : encode s = b :: rest) (hb : b.toNat < 0x80) :
    ∃ t, s = asChar b :: t ∧ encode t = rest := by
  obtain ⟨c, t, rfl, hc, rfl⟩ := Text.Utf8.encode_eq_cons h hb
  exact ⟨t, by rw [asChar, ← hc, Char.ofNat_toNat], rfl⟩

theorem digit_of_encode {s : List Char} {b : UInt8} {rest : Bytes} (h : encode s = b :: rest) (hb : isHex b = true) :
    ∃ c t, s = c :: t ∧ Text.isHexDigit c = true ∧ encode t = rest := by
  rw [← isHexDigit_asChar] at hb
  obtain ⟨t, rfl, rfl⟩ := char_of_encode h (by rw [← toNat_asChar]; exact ascii_of_isHexDigit hb)
  exact ⟨_, t, rfl, hb, rfl⟩

theorem escape_of_encode {s : List Char} {b : UInt8} {rest : Bytes} (h : encode s = b :: rest)
    (hb : (simpleEscape? b).isSome = true) : ∃ c t, s = c :: t ∧ isEscape c = true ∧ encode t = rest := by
  rw [← isEscape_asChar] at hb
  obtain ⟨t, rfl, rfl⟩ := char_of_encode h (by rw [← toNat_asChar]; exact ascii_of_isEscape hb)
  exact ⟨_, t, rfl, hb, rfl⟩

/-- A byte that a string takes as it is begins a character that it takes as it is. -/
theorem plain_of_encode {s : List Char} {b : UInt8} {rest : Bytes} (h : encode s = b :: rest) (hb : IsPlain b) :
    ∃ c t, s = c :: t ∧ c ≠ '"' ∧ c ≠ '\\' ∧ ¬ c < ' ' := by
  rcases Nat.lt_or_ge b.toNat 0x80 with hascii | hhigh
  · obtain ⟨t, rfl, -⟩ := char_of_encode h hascii
    exact ⟨_, t, rfl, (isPlain_iff b).1 hb⟩
  · cases s with
    | nil => exact nomatch h
    | cons c t =>
      -- An ASCII character would be its only byte.
      have hc : 0x80 ≤ c.toNat := by
        refine Nat.not_lt.1 fun hlt => ?_
        rw [Text.Utf8.encode_cons_of_ascii hlt] at h
        obtain ⟨rfl, -⟩ := List.cons.inj h
        rw [UInt8.toNat_ofNat'] at hhigh
        omega
      refine ⟨c, t, rfl, ?_, ?_, ?_⟩
      · rintro rfl
        exact absurd hc (by decide)
      · rintro rfl
        exact absurd hc (by decide)
      · exact fun hlt => absurd (Nat.lt_of_le_of_lt hc hlt) (by decide)

/-- A string that is read has a content and a quote behind it. -/
theorem content_of_stringFrom {done : Bytes} {s : List Char} {found : Bytes × Bytes}
    (h : stringFrom done (encode s) = some found) : ∃ w t, Content w ∧ s = w ++ '"' :: t := by
  induction hn : s.length using Nat.strongRecOn generalizing done s with
  | ind n ih =>
    rcases stringFrom_cases h with ⟨t, hs⟩ | ⟨a, b, c, d, t, hs, ha, hb, hc, hd, hrest⟩ | ⟨e, t, hs, he, hrest⟩ |
      ⟨b, t, hs, hplain⟩
    · obtain ⟨s, rfl, -⟩ := char_of_encode hs (by decide)
      exact ⟨[], s, .nil, rfl⟩
    · obtain ⟨_, rfl, hu⟩ := char_of_encode hs (by decide)
      obtain ⟨_, rfl, hfirst⟩ := char_of_encode hu (by decide)
      obtain ⟨a, _, rfl, ha, hsecond⟩ := digit_of_encode hfirst ha
      obtain ⟨b, _, rfl, hb, hthird⟩ := digit_of_encode hsecond hb
      obtain ⟨c, _, rfl, hc, hfourth⟩ := digit_of_encode hthird hc
      obtain ⟨d, s, rfl, hd, rfl⟩ := digit_of_encode hfourth hd
      obtain ⟨w, t, hw, rfl⟩ := ih s.length (by simp at hn; omega) hrest rfl
      exact ⟨_, t, .code ha hb hc hd hw, rfl⟩
    · obtain ⟨_, rfl, hletter⟩ := char_of_encode hs (by decide)
      obtain ⟨c, s, rfl, hc, rfl⟩ := escape_of_encode hletter he
      obtain ⟨w, t, hw, rfl⟩ := ih s.length (by simp at hn; omega) hrest rfl
      exact ⟨_, t, .escaped hc hw, rfl⟩
    · obtain ⟨c, s, rfl, hquote, hslash, hcontrol⟩ := plain_of_encode hs hplain
      rw [stringFrom_char hquote hslash hcontrol] at h
      obtain ⟨w, t, hw, rfl⟩ := ih s.length (by simp at hn; omega) h rfl
      exact ⟨_, t, .plain hquote hslash hcontrol hw, rfl⟩

end Strings

end Speedtest.Json
