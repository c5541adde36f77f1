import Speedtest.Proofs.Form

/-!
# What a written form says

A form is read piece by piece. `Decodes` tells byte by byte what the bytes of a name or a value stand for, broken
escapes included, `Says` what a piece is read as, and `FirstSays` which piece gives a name its value. The reader of
forms follows them, so a name has the value of the first piece that says it, in whatever bytes the name is written
there; and it makes no difference whether a form is searched for the name or collected first, or whether forms are
collected one by one or joined.
-/
namespace Speedtest.Form

open Text.Percent (digit? decodeFrom)

/-! ## Bytes -/

/-- Two digits lead a byte string, so a percent sign in front of it is the start of an escape. -/
def TwoDigits (s : Bytes) : Prop :=
  ∃ x y rest, s = x :: y :: rest ∧ (digit? x).isSome = true ∧ (digit? y).isSome = true

/-- What the bytes of a name or a value stand for. A percent sign without two digits behind it stands for itself. -/
inductive Decodes : Bytes → Bytes → Prop where
  | nil : Decodes [] []
  | plus {s t : Bytes} (rest : Decodes s t) : Decodes (0x2B :: s) (0x20 :: t)
  | escape {x y : UInt8} {high low : Nat} {s t : Bytes} (hx : digit? x = some high) (hy : digit? y = some low)
    (rest : Decodes s t) : Decodes (0x25 :: x :: y :: s) (UInt8.ofNat (high * 16 + low) :: t)
  | stray {s t : Bytes} (h : ¬ TwoDigits s) (rest : Decodes s t) : Decodes (0x25 :: s) (0x25 :: t)
  | plain {b : UInt8} {s t : Bytes} (h : b ≠ 0x2B ∧ b ≠ 0x25) (rest : Decodes s t) : Decodes (b :: s) (b :: t)

/-- A byte, or a space in the place of a plus sign. -/
def spaced (b : UInt8) : UInt8 := if b == 0x2B then 0x20 else b

theorem spaced_of_ne {b : UInt8} (h : b ≠ 0x2B) : spaced b = b := if_neg (by simpa using h)

theorem digit?_spaced (b : UInt8) : digit? (spaced b) = digit? b := by
  by_cases h : b = 0x2B
  · subst h
    rfl
  · rw [spaced_of_ne h]

theorem twoDigits_spaced {s : Bytes} (h : TwoDigits (s.map spaced)) : TwoDigits s := by
  obtain ⟨x, y, rest, hs, hx, hy⟩ := h
  obtain ⟨a, tail, rfl, rfl, htail⟩ := List.map_eq_cons_iff.1 hs
  obtain ⟨b, tail, rfl, rfl, rfl⟩ := List.map_eq_cons_iff.1 htail
  rw [digit?_spaced] at hx hy
  exact ⟨a, b, tail, rfl, hx, hy⟩

theorem decodeFrom_stray {s : Bytes} (h : ¬ TwoDigits s) (done : Bytes) :
    decodeFrom done (0x25 :: s) = decodeFrom (0x25 :: done) s := by
  match s with
  | [] => rfl
  | [x] => rfl
  | x :: y :: rest =>
    rw [decodeFrom]
    split
    · rename_i high low hx hy
      exact absurd ⟨x, y, rest, rfl, by rw [hx]; rfl, by rw [hy]; rfl⟩ h
    · rfl

/-- Whatever decodes a text is what the decoder makes of it. -/
theorem decodeFrom_of_decodes {s t : Bytes} (h : Decodes s t) (done : Bytes) :
    decodeFrom done (s.map spaced) = done.reverse ++ t := by
  induction h generalizing done with
  | nil => simp [decodeFrom]
  | @plus s t rest ih =>
    show decodeFrom done (0x20 :: s.map spaced) = _
    rw [Text.Percent.decodeFrom_of_ne (by decide), ih]
    simp
  | @escape x y high low s t hx hy rest ih =>
    show decodeFrom done (0x25 :: spaced x :: spaced y :: s.map spaced) = _
    rw [decodeFrom, digit?_spaced, digit?_spaced, hx, hy]
    dsimp only
    rw [ih]
    simp
  | @stray s t h rest ih =>
    show decodeFrom done (0x25 :: s.map spaced) = _
    rw [decodeFrom_stray fun htwo => h (twoDigits_spaced htwo), ih]
    simp
  | @plain b s t h rest ih =>
    rw [List.map_cons, spaced_of_ne h.1, Text.Percent.decodeFrom_of_ne h.2, ih]
    simp

/-- All bytes stand for something. -/
theorem exists_decodes (s : Bytes) : ∃ t, Decodes s t := by
  induction hlength : s.length using Nat.strongRecOn generalizing s with
  | ind n ih =>
    subst hlength
    cases s with
    | nil => exact ⟨[], .nil⟩
    | cons b s =>
      have hs : s.length < (b :: s).length := Nat.lt_succ_self _
      by_cases hplus : b = 0x2B
      · subst hplus
        obtain ⟨t, ht⟩ := ih _ hs s rfl
        exact ⟨_, .plus ht⟩
      by_cases hpercent : b = 0x25
      · subst hpercent
        by_cases htwo : TwoDigits s
        · obtain ⟨x, y, rest, rfl, hx, hy⟩ := htwo
          obtain ⟨high, hx⟩ := Option.isSome_iff_exists.1 hx
          obtain ⟨low, hy⟩ := Option.isSome_iff_exists.1 hy
          have hrest : rest.length < (0x25 :: x :: y :: rest).length := by
            simp only [List.length_cons]
            omega
          obtain ⟨t, ht⟩ := ih _ hrest rest rfl
          exact ⟨_, .escape hx hy ht⟩
        · obtain ⟨t, ht⟩ := ih _ hs s rfl
          exact ⟨_, .stray htwo ht⟩
      · obtain ⟨t, ht⟩ := ih _ hs s rfl
        exact ⟨_, .plain ⟨hplus, hpercent⟩ ht⟩

theorem decodes_iff {s t : Bytes} : Decodes s t ↔ Text.Percent.decode (s.map spaced) = t := by
  constructor
  · exact fun h => decodeFrom_of_decodes h []
  · rintro rfl
    obtain ⟨t, ht⟩ := exists_decodes s
    have hdecode : Text.Percent.decode (s.map spaced) = t := decodeFrom_of_decodes ht []
    rwa [hdecode]

/-! ## Pieces -/

/-- What a name or a value is read as. Bytes that are no text become replacement characters. -/
def ReadsAs (raw : Bytes) (text : String) : Prop :=
  ∃ s, Decodes raw s ∧ text = String.ofList (Text.Utf8.decodeLenient s)

/-- The name and the value that a piece is read as. The first equals sign parts them. -/
inductive Says : Bytes → String × String → Prop where
  | pair {rawName rawValue : Bytes} {name value : String} (h : 0x3D ∉ rawName) (hname : ReadsAs rawName name)
    (hvalue : ReadsAs rawValue value) : Says (rawName ++ 0x3D :: rawValue) (name, value)
  | nameAlone {raw : Bytes} {name : String} (h : 0x3D ∉ raw) (hname : ReadsAs raw name) : Says raw (name, "")

theorem readsAs_iff {raw : Bytes} {text : String} : ReadsAs raw text ↔ decodePart raw = text := by
  constructor
  · rintro ⟨s, hs, rfl⟩
    rw [← decodes_iff.1 hs]
    rfl
  · rintro rfl
    exact ⟨_, decodes_iff.2 rfl, rfl⟩

/-- A piece says the pair that is read from it. -/
theorem says_iff {piece : Bytes} {p : String × String} : Says piece p ↔ readPair piece = p := by
  constructor
  · rintro (⟨h, hname, hvalue⟩ | ⟨h, hname⟩)
    · rw [readPair, Text.cutAt?_append (Text.not_mem_iff_beq.1 h) rfl, ← readsAs_iff.1 hname, ← readsAs_iff.1 hvalue]
    · rw [readPair, Text.cutAt?_eq_none_iff.2 (Text.not_mem_iff_beq.1 h), ← readsAs_iff.1 hname]
  · rintro rfl
    unfold readPair
    split
    · rename_i name value hcut
      obtain ⟨b, hb, rfl, hfree⟩ := Text.cutAt?_eq_some hcut
      obtain rfl : b = 0x3D := by simpa using hb
      exact .pair (Text.not_mem_iff_beq.2 hfree) (readsAs_iff.2 rfl) (readsAs_iff.2 rfl)
    · rename_i hcut
      exact .nameAlone (Text.not_mem_iff_beq.2 (Text.cutAt?_eq_none_iff.1 hcut)) (readsAs_iff.2 rfl)

/-! ## Forms -/

/-- The value that a written form gives to a name: that of the first piece that says it. Empty pieces say nothing. -/
def FirstSays (written : Bytes) (name value : String) : Prop :=
  ∃ before piece after, written.splitOn 0x26 = before ++ piece :: after ∧ piece ≠ [] ∧ Says piece (name, value) ∧
    ∀ earlier ∈ before, earlier ≠ [] → ∀ p, Says earlier p → p.1 ≠ name

def valueIn (name : String) (piece : Bytes) : Option String :=
  if piece ≠ [] ∧ (readPair piece).1 = name then some (readPair piece).2 else none

theorem valueIn_eq_some_iff {name value : String} {piece : Bytes} :
    valueIn name piece = some value ↔ piece ≠ [] ∧ Says piece (name, value) := by
  rw [valueIn, Option.ite_none_right_eq_some, says_iff, Option.some.injEq, and_assoc, Prod.ext_iff]

theorem valueIn_eq_none_iff {name : String} {piece : Bytes} :
    valueIn name piece = none ↔ (piece ≠ [] → ∀ p, Says piece p → p.1 ≠ name) := by
  simp only [valueIn, says_iff, forall_eq', ne_eq, ite_eq_right_iff, reduceCtorEq, imp_false, not_and]

/-- The first value of a name is that of the first piece that has the name. -/
theorem lookup_read (written : Bytes) (name : String) :
    (read written).lookup name = (written.splitOn 0x26).findSome? (valueIn name) := by
  unfold read
  induction written.splitOn 0x26 with
  | nil => rfl
  | cons piece pieces ih =>
    by_cases hempty : piece = []
    · subst hempty
      exact ih
    have hkept : (piece :: pieces).filter (!·.isEmpty) = piece :: pieces.filter (!·.isEmpty) := by simp [hempty]
    rw [hkept, List.map_cons, List.findSome?_cons, valueIn]
    obtain ⟨key, value⟩ := readPair piece
    rw [List.lookup_cons]
    by_cases hkey : key = name
    · subst hkey
      simp [hempty]
    · have hother : (name == key) = false := beq_eq_false_iff_ne.2 (Ne.symm hkey)
      simpa [hkey, hother] using ih

/-- Whoever looks a name up gets the value of the first piece that says it. -/
theorem first?_eq_some_iff {written : Bytes} {name value : String} :
    first? (some written) name = some value ↔ FirstSays written name value := by
  rw [first?, Option.bind_some, lookup_read, List.findSome?_eq_some_iff]
  simp only [valueIn_eq_some_iff, valueIn_eq_none_iff, and_assoc]
  rfl

/-- What a query gives to a name: its value, or nothing where it does not say the name, or is not there. -/
inductive Gives (query : Option Bytes) (name : String) : Option String → Prop where
  | value {written : Bytes} {value : String} (h : query = some written) (hgiven : FirstSays written name value) :
    Gives query name (some value)
  | nothing (h : ∀ written value, query = some written → ¬ FirstSays written name value) : Gives query name none

/-- What a query gives for a name is what is found first. -/
theorem gives_iff {query : Option Bytes} {name : String} {found : Option String} :
    Gives query name found ↔ first? query name = found := by
  constructor
  · rintro (⟨rfl, hgiven⟩ | h)
    case value => exact first?_eq_some_iff.2 hgiven
    case nothing =>
      apply Option.eq_none_iff_forall_ne_some.2
      intro value hvalue
      obtain ⟨written, rfl, -⟩ := Option.bind_eq_some_iff.1 hvalue
      exact h written value rfl (first?_eq_some_iff.1 hvalue)
  · rintro rfl
    cases hfirst : first? query name with
    | some value =>
      obtain ⟨written, rfl, -⟩ := Option.bind_eq_some_iff.1 hfirst
      exact .value rfl (first?_eq_some_iff.1 hfirst)
    | none =>
      refine .nothing fun written value hwritten hgiven => ?_
      subst hwritten
      exact nomatch hfirst.symm.trans (first?_eq_some_iff.2 hgiven)

/-! ## Collecting -/

theorem read_append (a b : Bytes) : read (a ++ 0x26 :: b) = read a ++ read b := by
  rw [read, List.splitOn_append_cons_self, List.filter_append, List.map_append]
  rfl

/-- Two forms one after the other are one form with an ampersand between them. -/
theorem collect_collect (known : Pairs) (a b : Bytes) :
    collect (collect known a) b = collect known (a ++ 0x26 :: b) := by
  rw [collect, collect, collect, read_append, List.foldl_append]

theorem first?_eq_lookup_collect (written : Bytes) (name : String) :
    first? (some written) name = (collect [] written).lookup name := by
  rw [lookup_collect, List.lookup_nil, Option.none_or]

/-- No name is told twice. -/
theorem nodup_keepFirst {known : Pairs} (h : (known.map Prod.fst).Nodup) (p : String × String) :
    ((keepFirst known p).map Prod.fst).Nodup := by
  unfold keepFirst
  split
  · exact h
  · rename_i hnew
    rw [Bool.not_eq_true, Option.isSome_eq_false_iff, Option.isNone_iff_eq_none, List.lookup_eq_none_iff] at hnew
    have hfree : ∀ name ∈ known.map Prod.fst, name ≠ p.1 := by
      intro name hname
      obtain ⟨q, hq, rfl⟩ := List.mem_map.1 hname
      exact fun he => bne_iff_ne.1 (hnew q hq) he.symm
    rw [List.map_append, List.nodup_append]
    refine ⟨h, by simp, fun name hname other hother => ?_⟩
    obtain rfl : other = p.1 := by simpa using hother
    exact hfree name hname

theorem nodup_collect {known : Pairs} (h : (known.map Prod.fst).Nodup) (written : Bytes) :
    ((collect known written).map Prod.fst).Nodup := by
  unfold collect
  induction read written generalizing known with
  | nil => exact h
  | cons p pairs ih => exact ih (nodup_keepFirst h p)

/-- What a written form adds to named texts. A name that is there keeps its text, any other gets the value of the first
piece that says it, and no name comes twice. -/
structure Merged (known : Pairs) (written : Bytes) (merged : Pairs) : Prop where
  kept : ∀ name value, known.lookup name = some value → merged.lookup name = some value
  added : ∀ name value, known.lookup name = none → (merged.lookup name = some value ↔ FirstSays written name value)
  distinct : (known.map Prod.fst).Nodup → (merged.map Prod.fst).Nodup

theorem merged_collect (known : Pairs) (written : Bytes) : Merged known written (collect known written) := by
  constructor
  case kept =>
    intro name value h
    rw [lookup_collect, h]
    rfl
  case added =>
    intro name value h
    rw [lookup_collect, h, Option.none_or]
    exact first?_eq_some_iff
  case distinct => exact fun h => nodup_collect h written

end Speedtest.Form
