import Mathlib.Data.List.Nodup
import Speedtest.Json.Record
import Speedtest.Proofs.Json.Reading

/-!
# What is written is read back

A text that is written as a string is read as the same text, whatever its characters are. A document whose strings end
where they should and whose numerals and literals are ones is read back from its shortest form as it was, behind
whatever ends its last part.
-/
namespace Speedtest.Json

open Lexeme Reader

/-! ## Strings -/

/-- The bytes between the quotes of a string: a string that starts with them ends at the next quote. -/
def IsQuotable (w : Bytes) : Prop :=
  ∀ done rest, stringFrom done (w ++ 0x22 :: rest) = some (done.reverse ++ w, rest)

/-- How a byte of a text is written: with an escape of one letter, with its number, or as it is. -/
inductive Escapes (b : UInt8) : Bytes → Prop where
  | simple {e : UInt8} : simpleEscape? e = some b → Escapes b [0x5C, e]
  | code {c d : UInt8} : isHex c = true → isHex d = true → hex4 0x30 0x30 c d = b.toNat → b < 0x20 →
      Escapes b [0x5C, 0x75, 0x30, 0x30, c, d]
  | plain : IsPlain b → Escapes b [b]

/-- A hexadecimal digit of the number of a control character. -/
def codeDigit (d : Nat) : UInt8 := UInt8.ofNat (if d < 10 then 0x30 + d else 0x57 + d)

theorem control_eq (n : Nat) : control n = [0x5C, 0x75, 0x30, 0x30, codeDigit (n / 16), codeDigit (n % 16)] := rfl

theorem codeDigit_of_lt : ∀ n < 32, isHex (codeDigit (n / 16)) = true ∧ isHex (codeDigit (n % 16)) = true ∧
    hex4 0x30 0x30 (codeDigit (n / 16)) (codeDigit (n % 16)) = n := by
  decide

/-- Each byte is escaped in one of the ways that are read back. -/
theorem escapes_escapeByte (b : UInt8) : Escapes b (escapeByte b) := by
  by_cases hquote : b = 0x22
  · exact hquote ▸ .simple rfl
  by_cases hslash : b = 0x5C
  · exact hslash ▸ .simple rfl
  by_cases hcontrol : b < 0x20
  · by_cases hletter : b ∈ [0x08, 0x0C, 0x0A, 0x0D, 0x09]
    · simp only [List.mem_cons, List.not_mem_nil, or_false] at hletter
      rcases hletter with rfl | rfl | rfl | rfl | rfl <;> exact .simple rfl
    · simp only [List.mem_cons, List.not_mem_nil, or_false, not_or] at hletter
      obtain ⟨hc, hd, hcode⟩ := codeDigit_of_lt b.toNat (UInt8.lt_iff_toNat_lt.1 hcontrol)
      simp only [escapeByte, beq_iff_eq, hquote, hslash, hletter, hcontrol, if_false, if_true]
      exact control_eq b.toNat ▸ .code hc hd hcode hcontrol
  · have hletter (e : UInt8) (he : e < 0x20) : b ≠ e := fun h => hcontrol (h ▸ he)
    simp only [escapeByte, beq_iff_eq, hquote, hslash, hletter _ (show 0x08 < 0x20 by decide),
      hletter _ (show 0x0C < 0x20 by decide), hletter _ (show 0x0A < 0x20 by decide),
      hletter _ (show 0x0D < 0x20 by decide), hletter _ (show 0x09 < 0x20 by decide), hcontrol, if_false]
    exact .plain ⟨hquote, hslash, hcontrol⟩

theorem stringFrom_escapes {b : UInt8} {w : Bytes} (h : Escapes b w) (done s : Bytes) :
    stringFrom done (w ++ s) = stringFrom (w.reverse ++ done) s := by
  cases h with
  | simple he => exact stringFrom_escape (by rw [he]; rfl) done s
  | code hc hd => exact stringFrom_code (by decide) (by decide) hc hd done s
  | plain hplain => exact stringFrom_plain hplain done s

theorem isQuotable_escaped (b : Bytes) : IsQuotable (b.flatMap escapeByte) := by
  intro done rest
  induction b generalizing done with
  | nil =>
    rw [List.flatMap_nil, List.append_nil]
    rfl
  | cons b bytes ih =>
    rw [List.flatMap_cons, List.append_assoc, stringFrom_escapes (escapes_escapeByte b), ih]
    simp

/-- Every text can stand between quotes as it is written. -/
theorem isQuotable_encode (s : String) : IsQuotable (encode s) := isQuotable_escaped _

theorem unescapeFrom_plain {b : UInt8} (h : IsPlain b) (done s : Bytes) :
    unescapeFrom done (b :: s) = unescapeFrom (b :: done) s :=
  unescapeFrom.eq_5 done b s (fun _ _ _ _ _ hb _ => h.2.1 hb) fun _ _ hb _ => h.2.1 hb

theorem unescapeFrom_escape {e b : UInt8} (h : simpleEscape? e = some b) (done s : Bytes) :
    unescapeFrom done (0x5C :: e :: s) = unescapeFrom (b :: done) s := by
  have hnone : simpleEscape? 0x75 = none := by decide
  have hu : e ≠ 0x75 := by
    rintro rfl
    rw [hnone] at h
    exact nomatch h
  rw [unescapeFrom.eq_4 done e s fun _ _ _ _ _ he _ => hu he, h, Option.bind_some]

/-- A number that is no half of a pair stands for its own character. -/
theorem unescapeFrom_code {a b c d : UInt8} (h : hex4 a b c d < 0xD800) (done s : Bytes) :
    unescapeFrom done (0x5C :: 0x75 :: a :: b :: c :: d :: s) =
      unescapeFrom ((String.utf8EncodeChar (Char.ofNat (hex4 a b c d))).reverse ++ done) s := by
  have hnotHigh : ¬ 0xD800 ≤ hex4 a b c d := by omega
  have hnotLow : ¬ 0xDC00 ≤ hex4 a b c d := by omega
  have hhigh : isHighSurrogate (hex4 a b c d) = false := by simp [isHighSurrogate, hnotHigh]
  have hlow : isLowSurrogate (hex4 a b c d) = false := by simp [isLowSurrogate, hnotLow]
  rw [unescapeFrom.eq_def]
  simp only [hhigh, hlow, Bool.false_eq_true, if_false]

theorem unescapeFrom_escapes {b : UInt8} {w : Bytes} (h : Escapes b w) (done s : Bytes) :
    unescapeFrom done (w ++ s) = unescapeFrom (b :: done) s := by
  cases h with
  | simple he => exact unescapeFrom_escape he done s
  | code hc hd hcode hlt =>
    have hbyte : b.toNat < 0x20 := UInt8.lt_iff_toNat_lt.1 hlt
    have hchar := Text.Utf8.utf8EncodeChar_one (v := b.toNat) (by omega)
    rw [UInt8.ofNat_toNat] at hchar
    simp only [List.cons_append, List.nil_append]
    rw [unescapeFrom_code (by omega), hcode, hchar]
    rfl
  | plain hplain => exact unescapeFrom_plain hplain done s

theorem unescapeFrom_escaped (done b : Bytes) :
    unescapeFrom done (b.flatMap escapeByte) = some (done.reverse ++ b) := by
  induction b generalizing done with
  | nil =>
    rw [List.flatMap_nil, List.append_nil]
    rfl
  | cons b bytes ih =>
    rw [List.flatMap_cons, unescapeFrom_escapes (escapes_escapeByte b), ih]
    simp

/-- A text is read from its written form as it was. -/
theorem decode?_encode (s : String) : decode? (encode s) = some s := by
  rw [decode?, encode, unescapeFrom_escaped, List.reverse_nil, List.nil_append, Option.bind_some,
    Text.Utf8.decode?_encode, Option.map_some, String.ofList_toList]

/-! ## Documents -/

/-- A value that is well written: strings and keys end where they should, and what is no container is read alone. -/
inductive WellWritten : Json → Prop where
  | bare {v : Json} {b : UInt8} {w : Bytes} : write v = b :: w → isBareByte b = true →
      scalar? (b :: w) = some (v, []) → WellWritten v
  | string {w : Bytes} : IsQuotable w → WellWritten (.string w)
  | array {items : List Json} : (∀ v ∈ items, WellWritten v) → WellWritten (.array items)
  | object {members : List (Bytes × Json)} : (∀ m ∈ members, IsQuotable m.1) → (∀ m ∈ members, WellWritten m.2) →
      WellWritten (.object members)

/-- The reader gets from one place to another, with as much fuel as there are bytes. -/
def Reaches (p q : Progress) : Prop :=
  ∀ fuel, p.rest.length ≤ fuel → ∃ fuel', q.rest.length ≤ fuel' ∧
    Reader.run fuel p.place p.stack p.rest = Reader.run fuel' q.place q.stack q.rest

section Reaches

variable {p q r : Progress} {place : Place} {stack : List Open}

theorem Reaches.trans (hpq : Reaches p q) (hqr : Reaches q r) : Reaches p r := by
  intro fuel hfuel
  obtain ⟨fuel', hfuel', hrun⟩ := hpq fuel hfuel
  obtain ⟨fuel'', hfuel'', hrun'⟩ := hqr fuel' hfuel'
  exact ⟨fuel'', hfuel'', hrun.trans hrun'⟩

/-- One step of the reader is a way from one place to the next. -/
theorem reaches_step {b : UInt8} {s : Bytes} (h : Unfinished place stack) (hspace : isSpace b = false)
    (hstep : step place stack (b :: s) = some q) (hlength : q.rest.length ≤ s.length) :
    Reaches ⟨place, stack, b :: s⟩ q := by
  intro fuel hfuel
  cases fuel with
  | zero => exact absurd hfuel (Nat.not_succ_le_zero _)
  | succ fuel =>
    have hdrop : dropSpace (b :: s) = b :: s := by
      rw [dropSpace, List.dropWhile_cons, hspace]
      rfl
    refine ⟨fuel, Nat.le_trans hlength (Nat.le_of_succ_le_succ hfuel), ?_⟩
    rw [run_step h, hdrop, hstep, Option.bind_some]

theorem read?_of_reaches {v : Json} {s : Bytes} (h : Reaches ⟨.value, [], s⟩ ⟨.after v, [], []⟩) :
    read? s = some v := by
  obtain ⟨fuel, -, hrun⟩ := h s.length (Nat.le_refl _)
  rw [read?, hrun, run_alone]
  rfl

/-- The reader stands where a value has to come. -/
def Awaits (place : Place) : Prop := place = .value ∨ place = .firstItem

theorem Awaits.unfinished (h : Awaits place) (stack : List Open) : Unfinished place stack := by
  rintro v rfl
  rcases h with h | h <;> exact nomatch h

theorem reaches_bare {v : Json} {b : UInt8} {w rest : Bytes} (hplace : Awaits place) (hb : isBareByte b = true)
    (hscalar : scalar? (b :: w) = some (v, [])) (hrest : Ends rest) (stack : List Open) :
    Reaches ⟨place, stack, b :: w ++ rest⟩ ⟨.after v, stack, rest⟩ := by
  have hne (d : UInt8) (hd : isBareByte d = false) : b ≠ d := Text.ne_of_kind hb hd
  have hspace : isSpace b = false := (isGap_asChar b).symm.trans (not_gap_of_isBare hb)
  refine reaches_step (hplace.unfinished stack) hspace ?_ (by simp)
  show step place stack (b :: (w ++ rest)) = _
  rw [step_value hplace, if_neg (hne _ (by decide)), if_neg (hne _ (by decide)), if_neg (hne _ (by decide)),
    ← List.cons_append, scalar?_append (hne _ (by decide)) hrest, hscalar]
  rfl

theorem reaches_string {w : Bytes} (hplace : Awaits place) (hw : IsQuotable w) (rest : Bytes) (stack : List Open) :
    Reaches ⟨place, stack, 0x22 :: (w ++ 0x22 :: rest)⟩ ⟨.after (.string w), stack, rest⟩ := by
  refine reaches_step (hplace.unfinished stack) rfl ?_ (by simp; omega)
  have hscalar : scalar? (0x22 :: (w ++ 0x22 :: rest)) = some (.string w, rest) := by
    rw [scalar?, hw]
    rfl
  rw [step_value hplace, hscalar]
  rfl

/-- A key and its colon. -/
theorem reaches_key {k : Bytes} (hk : IsQuotable k) (members : List (Bytes × Json)) (first : Bool)
    (rest : Bytes) (stack : List Open) :
    Reaches ⟨.key members first, stack, 0x22 :: (k ++ 0x22 :: 0x3A :: rest)⟩
      ⟨.value, .object members k :: stack, rest⟩ := by
  refine reaches_step nofun rfl ?_ (by simp; omega)
  have hkey : key? (0x22 :: (k ++ 0x22 :: 0x3A :: rest)) = some (k, rest) := by
    rw [key?, hk]
    rfl
  rw [step_key, hkey]
  rfl

end Reaches

/-- A well written value is read from its shortest form, behind which something else may come. -/
def ReadsBack (v : Json) : Prop :=
  ∀ place stack rest, Awaits place → Ends rest → Reaches ⟨place, stack, write v ++ rest⟩ ⟨.after v, stack, rest⟩

theorem ends_cons {b : UInt8} (hb : isBareByte b = false) (s : Bytes) : Ends (b :: s) := by
  intro c hc
  obtain rfl := Option.some.inj hc
  exact hb

/-- Items that are each read back are read back in a row. -/
theorem reaches_items {v : Json} {items : List Json} (hv : ReadsBack v) (hitems : ∀ v ∈ items, ReadsBack v)
    {place : Place} (hplace : Awaits place) (done : List Json) (stack : List Open) (rest : Bytes) :
    Reaches ⟨place, .array done :: stack, writeItems (v :: items) ++ 0x5D :: rest⟩
      ⟨.after (.array (done.reverse ++ v :: items)), stack, rest⟩ := by
  induction items generalizing v done place with
  | nil =>
    refine (hv place _ (0x5D :: rest) hplace (ends_cons (by decide) _)).trans ?_
    refine reaches_step (fun _ _ => List.cons_ne_nil _ _) (by decide) ?_ (Nat.le_refl _)
    rw [step_after_array, List.reverse_cons]
    rfl
  | cons w items ih =>
    have hwrite : writeItems (v :: w :: items) ++ 0x5D :: rest =
        write v ++ 0x2C :: (writeItems (w :: items) ++ 0x5D :: rest) := by
      simp [writeItems]
    rw [hwrite]
    refine (hv place _ _ hplace (ends_cons (by decide) _)).trans ?_
    have hcomma : Reaches ⟨.after v, .array done :: stack, 0x2C :: (writeItems (w :: items) ++ 0x5D :: rest)⟩
        ⟨.value, .array (v :: done) :: stack, writeItems (w :: items) ++ 0x5D :: rest⟩ :=
      reaches_step (fun _ _ => List.cons_ne_nil _ _) (by decide) (step_after_array _ _ _ _ _) (Nat.le_refl _)
    refine hcomma.trans ?_
    have hrest := ih (hitems w List.mem_cons_self) (fun u hu => hitems u (List.mem_cons_of_mem w hu)) (.inl rfl)
      (v :: done)
    rwa [List.reverse_cons, List.append_assoc] at hrest

/-- Members that are each read back are read back in a row. -/
theorem reaches_members {k : Bytes} {v : Json} {members : List (Bytes × Json)} (hk : IsQuotable k) (hv : ReadsBack v)
    (hkeys : ∀ m ∈ members, IsQuotable m.1) (hmembers : ∀ m ∈ members, ReadsBack m.2) (done : List (Bytes × Json))
    (first : Bool) (stack : List Open) (rest : Bytes) :
    Reaches ⟨.key done first, stack, writeMembers ((k, v) :: members) ++ 0x7D :: rest⟩
      ⟨.after (.object (done.reverse ++ (k, v) :: members)), stack, rest⟩ := by
  induction members generalizing k v done first with
  | nil =>
    have hwrite : writeMembers [(k, v)] ++ 0x7D :: rest = 0x22 :: (k ++ 0x22 :: 0x3A :: (write v ++ 0x7D :: rest)) := by
      simp [writeMembers]
    rw [hwrite]
    refine (reaches_key hk done first _ stack).trans ((hv .value _ (0x7D :: rest) (.inl rfl)
      (ends_cons (by decide) _)).trans ?_)
    refine reaches_step (fun _ _ => List.cons_ne_nil _ _) (by decide) ?_ (Nat.le_refl _)
    rw [step_after_object, List.reverse_cons]
    rfl
  | cons m members ih =>
    obtain ⟨k', v'⟩ := m
    have hwrite : writeMembers ((k, v) :: (k', v') :: members) ++ 0x7D :: rest =
        0x22 :: (k ++ 0x22 :: 0x3A :: (write v ++ 0x2C :: (writeMembers ((k', v') :: members) ++ 0x7D :: rest))) := by
      simp [writeMembers]
    rw [hwrite]
    refine (reaches_key hk done first _ stack).trans ((hv .value _ _ (.inl rfl)
      (ends_cons (by decide) _)).trans ?_)
    have hcomma : Reaches ⟨.after v, .object done k :: stack,
          0x2C :: (writeMembers ((k', v') :: members) ++ 0x7D :: rest)⟩
        ⟨.key ((k, v) :: done) false, stack, writeMembers ((k', v') :: members) ++ 0x7D :: rest⟩ :=
      reaches_step (fun _ _ => List.cons_ne_nil _ _) (by decide) (step_after_object _ _ _ _ _ _) (Nat.le_refl _)
    refine hcomma.trans ?_
    have hrest := ih (hkeys _ List.mem_cons_self) (hmembers _ List.mem_cons_self)
      (fun u hu => hkeys u (List.mem_cons_of_mem _ hu)) (fun u hu => hmembers u (List.mem_cons_of_mem _ hu))
      ((k, v) :: done) false
    rwa [List.reverse_cons, List.append_assoc] at hrest

/-- A document of well-formed scalars is read back, by induction over its values. -/
theorem readsBack_of_wellWritten {v : Json} (h : WellWritten v) : ReadsBack v := by
  induction h with
  | bare hwrite hb hscalar =>
    intro place stack rest hplace hrest
    rw [hwrite]
    exact reaches_bare hplace hb hscalar hrest stack
  | @string w hw =>
    intro place stack rest hplace _
    have hwrite : write (.string w) ++ rest = 0x22 :: (w ++ 0x22 :: rest) := by simp [write]
    rw [hwrite]
    exact reaches_string hplace hw rest stack
  | @array items _ ih =>
    intro place stack rest hplace _
    have hwrite : write (.array items) ++ rest = 0x5B :: (writeItems items ++ 0x5D :: rest) := by simp [write]
    rw [hwrite]
    have hopen : Reaches ⟨place, stack, 0x5B :: (writeItems items ++ 0x5D :: rest)⟩
        ⟨.firstItem, .array [] :: stack, writeItems items ++ 0x5D :: rest⟩ :=
      reaches_step (hplace.unfinished stack) (by decide) (step_value hplace _ _ _) (Nat.le_refl _)
    refine hopen.trans ?_
    cases items with
    | nil => exact reaches_step nofun (by decide) (step_value (.inr rfl) _ _ _) (Nat.le_refl _)
    | cons v items =>
      exact reaches_items (ih v List.mem_cons_self) (fun u hu => ih u (List.mem_cons_of_mem v hu)) (.inr rfl) []
        stack rest
  | @object members hkeys _ ih =>
    intro place stack rest hplace _
    have hwrite : write (.object members) ++ rest = 0x7B :: (writeMembers members ++ 0x7D :: rest) := by simp [write]
    rw [hwrite]
    have hopen : Reaches ⟨place, stack, 0x7B :: (writeMembers members ++ 0x7D :: rest)⟩
        ⟨.key [] true, stack, writeMembers members ++ 0x7D :: rest⟩ :=
      reaches_step (hplace.unfinished stack) (by decide) (step_value hplace _ _ _) (Nat.le_refl _)
    refine hopen.trans ?_
    cases members with
    | nil => exact reaches_step nofun (by decide) (step_key _ _ _ _ _) (Nat.le_refl _)
    | cons m members =>
      exact reaches_members (hkeys _ List.mem_cons_self) (ih _ List.mem_cons_self)
        (fun u hu => hkeys u (List.mem_cons_of_mem _ hu)) (fun u hu => ih u (List.mem_cons_of_mem _ hu)) []
        true stack rest

/-- A well written document is read back from its shortest form. -/
theorem read?_write {v : Json} (h : WellWritten v) : read? (write v) = some v := by
  have hreaches := readsBack_of_wellWritten h .value [] [] (.inl rfl) nofun
  rw [List.append_nil] at hreaches
  exact read?_of_reaches hreaches

/-! ## Records -/

theorem wellWritten_ofText (s : String) : WellWritten (ofText s) := .string (isQuotable_encode s)

theorem text?_ofText (s : String) : (ofText s).text? = some s := decode?_encode s

def ofMembers (members : List (String × Json)) : Json := .object (members.map fun m => (encode m.1, m.2))

theorem wellWritten_ofMembers {members : List (String × Json)} (h : ∀ m ∈ members, m.2.WellWritten) :
    (ofMembers members).WellWritten := by
  refine .object (fun m hm => ?_) (fun m hm => ?_)
  · obtain ⟨⟨name, v⟩, -, rfl⟩ := List.mem_map.1 hm
    exact isQuotable_encode name
  · obtain ⟨m, hmem, rfl⟩ := List.mem_map.1 hm
    exact h m hmem

theorem ofFields_eq (fields : List (String × String)) :
    ofFields fields = ofMembers (fields.map fun f => (f.1, ofText f.2)) := by
  rw [ofMembers, List.map_map]
  rfl

theorem wellWritten_ofFields (fields : List (String × String)) : WellWritten (ofFields fields) := by
  rw [ofFields_eq]
  refine wellWritten_ofMembers fun m hm => ?_
  obtain ⟨f, -, rfl⟩ := List.mem_map.1 hm
  exact wellWritten_ofText f.2

section Members

variable {α : Type} {read : Json → Option α} {names : List String}

theorem lookup_eq_none {name : String} {found : List (String × α)} (h : name ∉ found.map Prod.fst) :
    found.lookup name = none := by
  rw [List.lookup_eq_none_iff]
  intro m hm
  refine bne_iff_ne.2 ?_
  rintro rfl
  exact h (List.mem_map_of_mem hm)

/-- Members under known names that differ are read as what their values are read as. -/
theorem readMembers?_ofMembers {members : List (String × Json)} {found : List (String × α)}
    (hread : List.Forall₂ (fun m f => m.1 = f.1 ∧ read m.2 = some f.2) members found)
    (hknown : ∀ f ∈ found, f.1 ∈ names) (hnames : (found.map Prod.fst).Nodup) :
    (ofMembers members).readMembers? read names = some found := by
  show knownMembers? read names (members.map fun m => (encode m.1, m.2)) = some found
  induction hread with
  | nil => rfl
  | @cons m f members found hfirst _ ih =>
    obtain ⟨name, v⟩ := m
    obtain ⟨other, value⟩ := f
    obtain ⟨rfl, hvalue⟩ := hfirst
    obtain ⟨hnew, hrest⟩ := List.nodup_cons.1 hnames
    have hfound := ih (fun f hf => hknown f (List.mem_cons_of_mem _ hf)) hrest
    have hname : name ∈ names := hknown _ List.mem_cons_self
    simp only [List.map_cons, knownMembers?, decode?_encode, hfound, Option.bind_eq_bind, Option.bind_some, hname,
      if_true, hvalue, lookup_eq_none hnew]
    rfl

theorem readMembers?_some {members : List (String × Json)} (hknown : ∀ m ∈ members, m.1 ∈ names)
    (hnames : (members.map Prod.fst).Nodup) : (ofMembers members).readMembers? some names = some members :=
  readMembers?_ofMembers (List.forall₂_same.2 fun _ _ => ⟨rfl, rfl⟩) hknown hnames

/-- Fields under known names that differ are read as they were written. -/
theorem readFields?_ofFields {fields : List (String × String)} (hknown : ∀ f ∈ fields, f.1 ∈ names)
    (hnames : (fields.map Prod.fst).Nodup) : (ofFields fields).readFields? names = some fields := by
  rw [readFields?, ofFields_eq]
  refine readMembers?_ofMembers ?_ hknown hnames
  rw [List.forall₂_map_left_iff]
  exact List.forall₂_same.2 fun f _ => ⟨rfl, text?_ofText f.2⟩

theorem lookup_of_mem {found : List (String × α)} (hnames : (found.map Prod.fst).Nodup) {f : String × α}
    (hf : f ∈ found) : found.lookup f.1 = some f.2 := by
  obtain ⟨front, back, rfl⟩ := List.append_of_mem hf
  rw [List.map_append, List.map_cons, List.nodup_append] at hnames
  have hfront : front.lookup f.1 = none :=
    lookup_eq_none fun hmem => hnames.2.2 f.1 hmem f.1 List.mem_cons_self rfl
  rw [List.lookup_append, hfront, List.lookup_cons_self]
  rfl

theorem mapM_eq_some {β γ : Type} {f : β → Option γ} {items : List β} {found : List γ}
    (h : List.Forall₂ (fun a b => f a = some b) items found) : items.mapM f = some found := by
  induction h with
  | nil => rfl
  | cons hfirst _ ih =>
    rw [List.mapM_cons, hfirst, ih]
    rfl

/-- What is looked up under each name in turn is what stands there. -/
theorem mapM_lookup {found : List (String × α)} (hnames : (found.map Prod.fst).Nodup) :
    (found.map Prod.fst).mapM (fun name => found.lookup name) = some (found.map Prod.snd) := by
  refine mapM_eq_some ?_
  rw [List.forall₂_map_left_iff, List.forall₂_map_right_iff]
  exact List.forall₂_same.2 fun f hf => lookup_of_mem hnames hf

end Members

end Speedtest.Json
