import Speedtest.Proofs.Json.Lexing

/-!
# The reader and the walk

The reader takes a text as a document exactly when the walk accepts it. Each of its steps agrees with a stretch of the
walk: it leads where the stretch leads, or the walk does not accept what the step does not take. A numeral or a literal
that is taken only in part is the one case in which the reader notices a step later.
-/
namespace Speedtest.Json

open Reader
open Text.Utf8 (encode)

/-- What the walk has come to where the reader has come to. -/
def Reader.Place.spot : Place → Spot
  | .value => .value false
  | .firstItem => .value true
  | .key _ first => .key first
  | .after _ => .after

def Reader.Open.frame : Open → Frame
  | .array _ => .array
  | .object _ _ => .object

def standOf (place : Place) (stack : List Open) : Stand := ⟨place.spot, stack.map Open.frame⟩

/-! ## The first byte -/

/-- What the first byte of a text tells about its first character. -/
structure Leads (c : Char) (b : UInt8) : Prop where
  bare : isBareByte b = isBare c
  space : isSpace b = isGap c
  eq_iff : ∀ d : Char, d.toNat < 0x80 → (b = UInt8.ofNat d.toNat ↔ c = d)

theorem ascii_of_isBare {c : Char} (h : isBare c = true) : c.toNat < 0x80 := by
  have hle {d : Char} (hd : c ≤ d) (hlt : d.toNat < 0x80) : c.toNat < 0x80 := Nat.lt_of_le_of_lt hd hlt
  simp only [isBare, Text.isAsciiLetter, Text.isAsciiDigit, Bool.or_eq_true, Bool.and_eq_true, decide_eq_true_eq,
    beq_iff_eq] at h
  rcases h with ((((⟨-, h⟩ | ⟨-, h⟩) | ⟨-, h⟩) | rfl) | rfl) | rfl
  · exact hle h (by decide)
  · exact hle h (by decide)
  · exact hle h (by decide)
  all_goals decide

theorem ascii_of_isGap {c : Char} (h : isGap c = true) : c.toNat < 0x80 :=
  of_isGap (P := fun c => c.toNat < 0x80) (Text.forall_of_all (by decide)) h

theorem ofNat_inj {c d : Char} (hc : c.toNat < 0x80) (hd : d.toNat < 0x80) :
    UInt8.ofNat c.toNat = UInt8.ofNat d.toNat ↔ c = d := by
  refine ⟨fun h => ?_, fun h => h ▸ rfl⟩
  have hnat := congrArg UInt8.toNat h
  rw [UInt8.toNat_ofNat', UInt8.toNat_ofNat'] at hnat
  exact Char.toNat_inj.1 (by omega)

/-- A character is told from its first byte as far as the reader needs it, and in ASCII that byte is all of it. -/
theorem encode_leads (c : Char) (s : List Char) :
    ∃ b rest, encode (c :: s) = b :: rest ∧ Leads c b ∧ (c.toNat < 0x80 → rest = encode s) := by
  rcases Text.Utf8.encode_cons_cases c s with ⟨hc, hbytes⟩ | ⟨hc, b, rest, hbytes, hb⟩
  · refine ⟨_, _, hbytes, ⟨?_, ?_, ?_⟩, fun _ => rfl⟩
    · exact congrArg isBare (asChar_ofNat hc)
    · rw [← isGap_asChar, asChar_ofNat hc]
    · exact fun d hd => ofNat_inj hc hd
  · refine ⟨b, rest, hbytes, ⟨?_, ?_, ?_⟩, fun hlt => absurd hlt (Nat.not_lt.2 hc)⟩
    · rw [Bool.eq_false_iff.2 fun hbare => absurd (ascii_of_isBare hbare) (Nat.not_lt.2 hc)]
      refine Bool.eq_false_iff.2 fun hbare => ?_
      have hlt := ascii_of_isBare hbare
      rw [toNat_asChar] at hlt
      exact absurd hlt (Nat.not_lt.2 hb)
    · rw [Bool.eq_false_iff.2 fun hgap => absurd (ascii_of_isGap hgap) (Nat.not_lt.2 hc)]
      refine Bool.eq_false_iff.2 fun hspace => ?_
      rw [← isGap_asChar] at hspace
      have hlt := ascii_of_isGap hspace
      rw [toNat_asChar] at hlt
      exact absurd hlt (Nat.not_lt.2 hb)
    · intro d hd
      constructor
      · rintro rfl
        rw [UInt8.toNat_ofNat'] at hb
        omega
      · rintro rfl
        exact absurd hd (Nat.not_lt.2 hc)

theorem dropSpace_encode (s : List Char) : dropSpace (encode s) = encode (s.dropWhile isGap) := by
  induction s with
  | nil => rfl
  | cons c s ih =>
    obtain ⟨b, rest, hbytes, hleads, hrest⟩ := encode_leads c s
    rw [hbytes, dropSpace, List.dropWhile_cons, List.dropWhile_cons, hleads.space]
    cases hgap : isGap c with
    | false => exact hbytes.symm
    | true =>
      rw [hrest (ascii_of_isGap hgap)]
      exact ih

/-! ## Steps -/

/-- The walk goes on with `t` as the step of the reader does, if it is at a place and sees a text. -/
inductive Agrees (place : Place) (stack : List Open) (t : List Char) : Option Progress → Prop where
  | fails : ¬ Accepts (standOf place stack) t → Agrees place stack t none
  | goes {place' : Place} {stack' : List Open} {front back : List Char} : front ≠ [] → t = front ++ back →
      (Accepts (standOf place stack) t ↔ Accepts (standOf place' stack') back) →
      Agrees place stack t (some ⟨place', stack', encode back⟩)
  | stuck {v : Json} {b : UInt8} {rest : Bytes} : isBareByte b = true → ¬ Accepts (standOf place stack) t →
      Agrees place stack t (some ⟨.after v, stack, b :: rest⟩)

theorem Agrees.one {place place' : Place} {stack stack' : List Open} {c : Char} {s : List Char}
    (h : next (standOf place stack) c = some (standOf place' stack')) :
    Agrees place stack (c :: s) (some ⟨place', stack', encode s⟩) :=
  .goes (List.cons_ne_nil c []) rfl (accepts_cons h)

/-- Behind an item comes a comma or the end of the array. -/
theorem step_after_array (v : Json) (items : List Json) (stack : List Open) (b : UInt8) (rest : Bytes) :
    step (.after v) (.array items :: stack) (b :: rest) =
      if b = 0x2C then some ⟨.value, .array (v :: items) :: stack, rest⟩
      else if b = 0x5D then some ⟨.after (.array (v :: items).reverse), stack, rest⟩ else none := by
  by_cases hcomma : b = 0x2C
  · subst hcomma
    rfl
  by_cases hend : b = 0x5D
  · subst hend
    rfl
  rw [if_neg hcomma, if_neg hend]
  unfold step
  dsimp only
  split <;> simp_all

/-- Behind a member comes a comma or the end of the object. -/
theorem step_after_object (v : Json) (members : List (Bytes × Json)) (k : Bytes) (stack : List Open) (b : UInt8)
    (rest : Bytes) : step (.after v) (.object members k :: stack) (b :: rest) =
      if b = 0x2C then some ⟨.key ((k, v) :: members) false, stack, rest⟩
      else if b = 0x7D then some ⟨.after (.object ((k, v) :: members).reverse), stack, rest⟩ else none := by
  by_cases hcomma : b = 0x2C
  · subst hcomma
    rfl
  by_cases hend : b = 0x7D
  · subst hend
    rfl
  rw [if_neg hcomma, if_neg hend]
  unfold step
  dsimp only
  split <;> simp_all

/-- Behind a value the reader goes where the automaton goes. -/
theorem agrees_after (v : Json) (stack : List Open) {c : Char} (hgap : isGap c = false) (s : List Char) :
    Agrees (.after v) stack (c :: s) (step (.after v) stack (encode (c :: s))) := by
  obtain ⟨b, rest, hbytes, hleads, hrest⟩ := encode_leads c s
  have hnext (stack : List Open) : next (standOf (.after v) stack) c = ending (stack.map Open.frame) c := by
    show nextAfter _ c = _
    rw [nextAfter, hgap]
    rfl
  have hcomma : b = 0x2C ↔ c = ',' := hleads.eq_iff ',' (by decide)
  have hbracket : b = 0x5D ↔ c = ']' := hleads.eq_iff ']' (by decide)
  have hbrace : b = 0x7D ↔ c = '\x7d' := hleads.eq_iff '\x7d' (by decide)
  rw [hbytes]
  cases stack with
  | nil => exact .fails (not_accepts_of_next (hnext []))
  | cons top stack =>
    cases top with
    | array items =>
      rw [step_after_array]
      simp only [hcomma, hbracket]
      split
      · subst c
        rw [hrest (by decide)]
        exact .one (hnext _)
      split
      · subst c
        rw [hrest (by decide)]
        exact .one (hnext _)
      · refine .fails (not_accepts_of_next ?_)
        rw [hnext]
        simp [Open.frame, ending, *]
    | object members k =>
      rw [step_after_object]
      simp only [hcomma, hbrace]
      split
      · subst c
        rw [hrest (by decide)]
        exact .one (hnext _)
      split
      · subst c
        rw [hrest (by decide)]
        exact .one (hnext _)
      · refine .fails (not_accepts_of_next ?_)
        rw [hnext]
        simp [Open.frame, ending, *]

/-- Where a key may stand, an object without members may end instead. -/
theorem step_key (members : List (Bytes × Json)) (first : Bool) (stack : List Open) (b : UInt8) (rest : Bytes) :
    step (.key members first) stack (b :: rest) =
      if b = 0x7D then if first then some ⟨.after (.object members.reverse), stack, rest⟩ else none
      else (key? (b :: rest)).map fun found => ⟨.value, .object members found.1 :: stack, found.2⟩ := by
  by_cases hend : b = 0x7D
  · subst hend
    rfl
  rw [if_neg hend]
  unfold step
  dsimp only
  split
  · simp_all
  · rfl

theorem key?_of_ne {b : UInt8} (hb : b ≠ 0x22) (rest : Bytes) : key? (b :: rest) = none := by
  unfold key?
  split
  · rename_i heq
    exact absurd (List.cons.inj heq).1 hb
  · rfl

/-- The bytes behind a colon. -/
def colon? : Bytes → Option Bytes
  | 0x3A :: rest => some rest
  | _ => none

theorem colon?_of_ne {b : UInt8} (hb : b ≠ 0x3A) (rest : Bytes) : colon? (b :: rest) = none := by
  unfold colon?
  split
  · rename_i heq
    exact absurd (List.cons.inj heq).1 hb
  · rfl

/-- A key is read when it comes to its end and a colon follows. -/
theorem key?_content {w : List Char} (h : Content w) (t : List Char) :
    key? (0x22 :: encode (w ++ '"' :: t)) =
      (colon? (encode (t.dropWhile isGap))).map fun rest => (encode w, rest) := by
  rw [key?, stringFrom_content h]
  dsimp only
  rw [dropSpace_encode]
  generalize encode (t.dropWhile isGap) = bytes
  split
  · rfl
  · rename_i hne
    rw [colon?.eq_2 bytes hne]
    rfl

theorem stringFrom_eq_none {s : List Char} (h : ¬ ∃ w t, Content w ∧ s = w ++ '"' :: t) (done : Bytes) :
    Lexeme.stringFrom done (encode s) = none :=
  Option.eq_none_iff_forall_ne_some.2 fun _ hfound => h (content_of_stringFrom hfound)

theorem not_accepts_inside {s : List Char} (h : ¬ ∃ w t, Content w ∧ s = w ++ '"' :: t) (key : Bool)
    (frames : List Frame) : ¬ Accepts ⟨.inside key, frames⟩ s := fun haccepts => by
  obtain ⟨w, t, hw, hs, -⟩ := content_of_accepts haccepts
  exact h ⟨w, t, hw, hs⟩

/-- Behind a key the reader and the walk look for the same colon. -/
theorem colon_cases (t : List Char) (frames : List Frame) :
    (∃ gaps u, t = gaps ++ ':' :: u ∧ colon? (encode (t.dropWhile isGap)) = some (encode u) ∧
      (Accepts ⟨.colon, frames⟩ t ↔ Accepts ⟨.value false, .object :: frames⟩ u)) ∨
    colon? (encode (t.dropWhile isGap)) = none ∧ ¬ Accepts ⟨.colon, frames⟩ t := by
  have hgaps : Accepts ⟨.colon, frames⟩ t ↔ Accepts ⟨.colon, frames⟩ (t.dropWhile isGap) := accepts_dropWhile rfl t
  have hsplit := List.takeWhile_append_dropWhile (p := isGap) (l := t)
  cases ht : t.dropWhile isGap with
  | nil =>
    refine .inr ⟨rfl, fun h => ?_⟩
    rw [hgaps, ht] at h
    exact nomatch h
  | cons d u =>
    have hgap : isGap d = false := Text.stops_dropWhile t d (by rw [ht]; rfl)
    have hnext : next ⟨.colon, frames⟩ d = if d = ':' then some ⟨.value false, .object :: frames⟩ else none := by
      rw [next, hgap]
      rfl
    obtain ⟨e, rest, hbytes, hleads, hrest⟩ := encode_leads d u
    have hcolon : e = 0x3A ↔ d = ':' := hleads.eq_iff ':' (by decide)
    rw [hgaps, ht, hbytes]
    rw [ht] at hsplit
    by_cases hd : d = ':'
    · subst hd
      rw [hcolon.2 rfl, hrest (by decide)]
      exact .inl ⟨_, u, hsplit.symm, rfl, accepts_cons hnext⟩
    · exact .inr ⟨colon?_of_ne (mt hcolon.1 hd) rest, not_accepts_of_next (hnext.trans (if_neg hd))⟩

/-- At a key the reader goes where the automaton goes. -/
theorem agrees_key (members : List (Bytes × Json)) (first : Bool) (stack : List Open) {c : Char}
    (hgap : isGap c = false) (s : List Char) :
    Agrees (.key members first) stack (c :: s) (step (.key members first) stack (encode (c :: s))) := by
  obtain ⟨b, rest, hbytes, hleads, hrest⟩ := encode_leads c s
  have hquote : b = 0x22 ↔ c = '"' := hleads.eq_iff '"' (by decide)
  have hbrace : b = 0x7D ↔ c = '\x7d' := hleads.eq_iff '\x7d' (by decide)
  have hnext : next (standOf (.key members first) stack) c = if c = '"' then some ⟨.inside true, stack.map Open.frame⟩
      else if c = '\x7d' then if first then some ⟨.after, stack.map Open.frame⟩ else none else none := by
    show next ⟨.key first, _⟩ c = _
    rw [next, hgap]
    rfl
  rw [hbytes, step_key]
  simp only [hbrace]
  split
  · subst c
    rw [hrest (by decide)]
    cases first with
    | true => exact .one hnext
    | false => exact .fails (not_accepts_of_next hnext)
  by_cases hstring : c = '"'
  · subst hstring
    rw [hrest (by decide), hquote.2 rfl]
    by_cases hcontent : ∃ w t, Content w ∧ s = w ++ '"' :: t
    · obtain ⟨w, t, hw, rfl⟩ := hcontent
      have haccepts : Accepts (standOf (.key members first) stack) ('"' :: (w ++ '"' :: t)) ↔
          Accepts ⟨.colon, stack.map Open.frame⟩ t := by
        rw [accepts_cons hnext, accepts_string hw]
        rfl
      rw [key?_content hw]
      rcases colon_cases t (stack.map Open.frame) with ⟨gaps, u, rfl, hcolon, hvalue⟩ | ⟨hcolon, hvalue⟩
      · rw [hcolon]
        refine .goes (List.cons_ne_nil '"' (w ++ '"' :: (gaps ++ [':']))) (by simp) ?_
        exact haccepts.trans hvalue
      · rw [hcolon]
        exact .fails (mt haccepts.1 hvalue)
    · have hkey : key? (0x22 :: encode s) = none := by
        rw [key?, stringFrom_eq_none hcontent]
      rw [hkey]
      exact .fails fun h => not_accepts_inside hcontent _ _ ((accepts_cons hnext).1 h)
  · rw [key?_of_ne (mt hquote.1 hstring)]
    refine .fails (not_accepts_of_next ?_)
    rw [hnext, if_neg hstring, if_neg ‹_›]

/-- What is neither bare nor quoted starts no value. -/
theorem scalar?_eq_none {b : UInt8} (hquote : b ≠ 0x22) (hbare : isBareByte b = false) (rest : Bytes) :
    scalar? (b :: rest) = none := by
  have hne (d : UInt8) (hd : isBareByte d = true) : b ≠ d := (Text.ne_of_kind hd hbare).symm
  rw [scalar?_eq_number? hquote (hne 0x74 (by decide)) (hne 0x66 (by decide)) (hne 0x6E (by decide)),
    number?_of_not_bare hbare]
  rfl

def ended? : Place → List Open → Bytes → Option Progress
  | .firstItem, .array items :: stack, rest => some ⟨.after (.array items.reverse), stack, rest⟩
  | _, _, _ => none

/-- Where a value may stand, a bracket or a brace opens one and everything else is a scalar. -/
theorem step_value {place : Place} (hplace : place = .value ∨ place = .firstItem) (stack : List Open) (b : UInt8)
    (rest : Bytes) : step place stack (b :: rest) =
      if b = 0x5B then some ⟨.firstItem, .array [] :: stack, rest⟩
      else if b = 0x7B then some ⟨.key [] true, stack, rest⟩
      else if b = 0x5D then ended? place stack rest
      else (scalar? (b :: rest)).map fun found => ⟨.after found.1, stack, found.2⟩ := by
  by_cases harray : b = 0x5B
  · subst harray
    rcases hplace with rfl | rfl <;> rfl
  by_cases hobject : b = 0x7B
  · subst hobject
    rcases hplace with rfl | rfl <;> rfl
  rw [if_neg harray, if_neg hobject]
  by_cases hend : b = 0x5D
  · subst hend
    have hnone := scalar?_eq_none (b := 0x5D) (by decide) (by decide) rest
    have hlone (found : Json × Bytes → Progress) : (scalar? (0x5D :: rest)).map found = none := by
      rw [hnone]
      rfl
    rcases hplace with rfl | rfl
    · exact hlone fun found => ⟨.after found.1, stack, found.2⟩
    · rcases stack with _ | ⟨⟨items⟩ | ⟨members, k⟩, stack⟩
      · exact hlone fun found => ⟨.after found.1, [], found.2⟩
      · rfl
      · exact hlone fun found => ⟨.after found.1, .object members k :: stack, found.2⟩
  · rw [if_neg hend]
    unfold step
    rcases hplace with rfl | rfl
    all_goals simp_all

theorem ends_dropWhile (s : List Char) : Ends (encode (s.dropWhile isBare)) := by
  intro b hb
  cases ht : s.dropWhile isBare with
  | nil =>
    rw [ht] at hb
    exact nomatch hb
  | cons c t =>
    obtain ⟨first, rest, hbytes, hleads, -⟩ := encode_leads c t
    rw [ht, hbytes] at hb
    obtain rfl := Option.some.inj hb
    rw [hleads.bare]
    exact Text.stops_dropWhile s c (by rw [ht]; rfl)

theorem isBareByte_of_mem {w : List Char} (h : ∀ c ∈ w, isBare c = true) {b : UInt8} (hb : b ∈ encode w) :
    isBareByte b = true := by
  rw [Text.Utf8.encode_of_ascii fun c hc => ascii_of_isBare (h c hc)] at hb
  obtain ⟨c, hc, rfl⟩ := List.mem_map.1 hb
  have hsame : isBareByte (UInt8.ofNat c.toNat) = isBare c := congrArg isBare (asChar_ofNat (ascii_of_isBare (h c hc)))
  rw [hsame, h c hc]

/-- A numeral or a literal is read as a whole, or the reader does not get past it. -/
theorem agrees_bare {place : Place} {opened : Bool} (hplace : place.spot = .value opened) (stack : List Open) {c : Char}
    (hc : isBare c = true) (s : List Char) : Agrees place stack (c :: s)
      ((scalar? (encode (c :: s))).map fun found => ⟨.after found.1, stack, found.2⟩) := by
  have hsplit := List.takeWhile_append_dropWhile (p := isBare) (l := c :: s)
  have hall := List.all_eq_true.1 (List.all_takeWhile (p := isBare) (l := c :: s))
  have hends := ends_dropWhile (c :: s)
  have hfirst : (c :: s).takeWhile isBare = c :: s.takeWhile isBare := by rw [List.takeWhile_cons, hc]; rfl
  have hstop : Text.Stops isBare ((c :: s).dropWhile isBare) := Text.stops_dropWhile (c :: s)
  rw [hfirst] at hsplit hall
  generalize s.takeWhile isBare = run at hsplit hall
  generalize (c :: s).dropWhile isBare = t at hsplit hends hstop
  obtain ⟨b, rest, hbytes, hleads, -⟩ := encode_leads c run
  have hquote : b ≠ 0x22 := fun hb => by
    obtain rfl := (hleads.eq_iff '"' (by decide)).1 hb
    exact absurd hc (by decide)
  have hscalar : scalar? (encode (c :: s)) =
      (scalar? (encode (c :: run))).map fun found => (found.1, found.2 ++ encode t) := by
    rw [← hsplit, Text.Utf8.encode_append, hbytes]
    exact scalar?_append hquote hends rest
  have haccepts : Accepts (standOf place stack) (c :: s) ↔
      isScalar (c :: run) = true ∧ Accepts ⟨.after, stack.map Open.frame⟩ t := by
    have hwalk : walk (standOf place stack) (c :: run) = some ⟨.bare (c :: run), stack.map Open.frame⟩ := by
      rw [standOf, hplace, walk_step (next_value_bare hc opened _)]
      exact walk_bare (fun d hd => hall d (List.mem_cons_of_mem c hd)) [c] _
    rw [← hsplit, accepts_append hwalk, accepts_bare hstop]
  rw [hscalar]
  have hwhole : isScalar (c :: run) = (scalar? (encode (c :: run))).any fun found => found.2.isEmpty := by
    rw [isScalar, List.all_eq_true.2 hall, Bool.true_and]
  cases hfound : scalar? (encode (c :: run)) with
  | none =>
    refine .fails fun h => ?_
    rw [haccepts, hwhole, hfound] at h
    exact nomatch h.1
  | some found =>
    obtain ⟨v, r⟩ := found
    cases r with
    | nil =>
      refine .goes (List.cons_ne_nil c run) hsplit.symm ?_
      rw [haccepts, hwhole, hfound]
      exact ⟨fun h => h.2, fun h => ⟨rfl, h⟩⟩
    | cons d r =>
      -- The walk looks at the run as a whole, while the reader has taken a part of it for a value.
      have hmem : d ∈ encode (c :: run) := by
        rw [hbytes] at hfound ⊢
        exact (suffix_of_scalar? hquote hfound).mem List.mem_cons_self
      refine .stuck (isBareByte_of_mem hall hmem) fun h => ?_
      rw [haccepts, hwhole, hfound] at h
      exact nomatch h.1

/-- A string is read where the automaton walks through it. -/
theorem agrees_string {place : Place} {stack : List Open}
    (hnext : next (standOf place stack) '"' = some ⟨.inside false, stack.map Open.frame⟩) (s : List Char) :
    Agrees place stack ('"' :: s)
      ((scalar? (0x22 :: encode s)).map fun found => ⟨.after found.1, stack, found.2⟩) := by
  have hscalar : scalar? (0x22 :: encode s) =
      (Lexeme.stringFrom [] (encode s)).map fun found => (.string found.1, found.2) :=
    rfl
  rw [hscalar]
  by_cases hcontent : ∃ w t, Content w ∧ s = w ++ '"' :: t
  · obtain ⟨w, t, hw, rfl⟩ := hcontent
    rw [stringFrom_content hw]
    refine .goes (List.cons_ne_nil '"' (w ++ ['"'])) (by simp) ?_
    rw [accepts_cons hnext]
    exact accepts_string hw t
  · rw [stringFrom_eq_none hcontent]
    exact .fails fun h => not_accepts_inside hcontent _ _ ((accepts_cons hnext).1 h)

/-- The bracket behind an array that was just opened. -/
theorem agrees_ended {place : Place} (hplace : place = .value ∨ place = .firstItem) {stack : List Open} {opened : Bool}
    (hopened : place.spot = .value opened)
    (hnext : next (standOf place stack) ']' = emptied opened (stack.map Open.frame)) (s : List Char) :
    Agrees place stack (']' :: s) (ended? place stack (encode s)) := by
  rcases hplace with rfl | rfl
  · obtain rfl : false = opened := Spot.value.inj hopened
    exact .fails (not_accepts_of_next hnext)
  · obtain rfl : true = opened := Spot.value.inj hopened
    rcases stack with _ | ⟨⟨items⟩ | ⟨members, k⟩, stack⟩
    · exact .fails (not_accepts_of_next hnext)
    · exact .one hnext
    · exact .fails (not_accepts_of_next hnext)

/-- At a value the reader goes where the automaton goes. -/
theorem agrees_value {place : Place} (hplace : place = .value ∨ place = .firstItem) (stack : List Open) {c : Char}
    (hgap : isGap c = false) (s : List Char) : Agrees place stack (c :: s) (step place stack (encode (c :: s))) := by
  obtain ⟨b, rest, hbytes, hleads, hrest⟩ := encode_leads c s
  have hquote : b = 0x22 ↔ c = '"' := hleads.eq_iff '"' (by decide)
  have hbracket : b = 0x5B ↔ c = '[' := hleads.eq_iff '[' (by decide)
  have hbrace : b = 0x7B ↔ c = '\x7b' := hleads.eq_iff '\x7b' (by decide)
  have hend : b = 0x5D ↔ c = ']' := hleads.eq_iff ']' (by decide)
  obtain ⟨opened, hopened⟩ : ∃ opened, place.spot = .value opened := by
    rcases hplace with rfl | rfl
    · exact ⟨false, rfl⟩
    · exact ⟨true, rfl⟩
  have hnext : next (standOf place stack) c =
      if c = '"' then some ⟨.inside false, stack.map Open.frame⟩
      else if c = '[' then some ⟨.value true, .array :: stack.map Open.frame⟩
      else if c = '\x7b' then some ⟨.key true, stack.map Open.frame⟩
      else if c = ']' then emptied opened (stack.map Open.frame)
      else if isBare c then some ⟨.bare [c], stack.map Open.frame⟩ else none := by
    rw [standOf, hopened, next, hgap]
    rfl
  rw [hbytes, step_value hplace]
  simp only [hbracket, hbrace, hend]
  split
  · subst c
    rw [hrest (by decide)]
    exact .one hnext
  split
  · subst c
    rw [hrest (by decide)]
    exact .one hnext
  split
  · subst c
    rw [hrest (by decide)]
    exact agrees_ended hplace hopened hnext s
  by_cases hstring : c = '"'
  · subst hstring
    rw [hrest (by decide), hquote.2 rfl]
    exact agrees_string hnext s
  · cases hbare : isBare c with
    | true =>
      rw [← hbytes]
      exact agrees_bare hopened stack hbare s
    | false =>
      rw [scalar?_eq_none (mt hquote.1 hstring) (hleads.bare.trans hbare)]
      refine .fails (not_accepts_of_next ?_)
      rw [hnext]
      simp [*]

/-! ## Runs -/

/-- A value that stands alone is the document when only blanks are left. -/
theorem run_alone (fuel : Nat) (v : Json) (s : Bytes) :
    Reader.run fuel (.after v) [] s = if (dropSpace s).isEmpty then some v else none := by
  cases fuel with
  | zero => rfl
  | succ fuel =>
    unfold Reader.run
    cases dropSpace s <;> rfl

/-- Behind such a value the walk accepts nothing but blanks either. -/
theorem isEmpty_iff_accepts {v : Json} {t : List Char} (hstops : Text.Stops isGap t) :
    (if (encode t).isEmpty then some v else none).isSome = true ↔ Accepts (standOf (.after v) []) t := by
  cases t with
  | nil => exact ⟨fun _ => rfl, fun _ => rfl⟩
  | cons c t =>
    have hnext : next (standOf (.after v) []) c = none := by
      show nextAfter [] c = none
      rw [nextAfter, hstops c rfl]
      rfl
    obtain ⟨b, rest, hbytes, -, -⟩ := encode_leads c t
    rw [hbytes]
    exact ⟨fun h => absurd h Bool.false_ne_true, fun h => absurd h (not_accepts_of_next hnext)⟩

/-- The reader has more to read than blanks. -/
def Unfinished (place : Place) (stack : List Open) : Prop := ∀ v, place = .after v → stack ≠ []

section Unfinished

variable {place : Place} {stack : List Open} (h : Unfinished place stack)
include h

theorem run_step (fuel : Nat) (s : Bytes) : Reader.run (fuel + 1) place stack s =
    (step place stack (dropSpace s)).bind fun p => Reader.run fuel p.place p.stack p.rest := by
  rw [Reader.run]
  · exact fun v hplace hstack => h v hplace hstack
  · exact fun v hplace hstack _ => h v hplace hstack

theorem run_no_fuel (s : Bytes) : Reader.run 0 place stack s = none := by
  rw [Reader.run]
  exact fun v hplace hstack => h v hplace hstack

theorem step_nil : step place stack [] = none := by
  cases place with
  | value => rfl
  | firstItem => rfl
  | key => rfl
  | after v =>
    rcases stack with _ | ⟨⟨items⟩ | ⟨members, k⟩, stack⟩
    · exact absurd rfl (h v rfl)
    · rfl
    · rfl

theorem not_accepts_nil : ¬ Accepts (standOf place stack) [] := by
  cases place with
  | value => exact nofun
  | firstItem => exact nofun
  | key => exact nofun
  | after v =>
    cases stack with
    | nil => exact absurd rfl (h v rfl)
    | cons top stack => exact nofun

theorem agrees_step {c : Char} (hgap : isGap c = false) (s : List Char) :
    Agrees place stack (c :: s) (step place stack (encode (c :: s))) := by
  cases place with
  | value => exact agrees_value (.inl rfl) stack hgap s
  | firstItem => exact agrees_value (.inr rfl) stack hgap s
  | key members first => exact agrees_key members first stack hgap s
  | after v => exact agrees_after v stack hgap s

end Unfinished

theorem run_bare {b : UInt8} (hb : isBareByte b = true) (fuel : Nat) (v : Json) (stack : List Open) (rest : Bytes) :
    Reader.run fuel (.after v) stack (b :: rest) = none := by
  have hne (d : UInt8) (hd : isBareByte d = false) : b ≠ d := Text.ne_of_kind hb hd
  have hspace : dropSpace (b :: rest) = b :: rest := by
    have hblank : isSpace b = false := (isGap_asChar b).symm.trans (not_gap_of_isBare hb)
    rw [dropSpace, List.dropWhile_cons, hblank]
    rfl
  cases stack with
  | nil =>
    rw [run_alone, hspace]
    rfl
  | cons top stack =>
    have hunfinished : Unfinished (.after v) (top :: stack) := fun _ _ => List.cons_ne_nil top stack
    cases fuel with
    | zero => exact run_no_fuel hunfinished _
    | succ fuel =>
      rw [run_step hunfinished, hspace]
      cases top with
      | array items =>
        rw [step_after_array, if_neg (hne _ (by decide)), if_neg (hne _ (by decide))]
        rfl
      | object members k =>
        rw [step_after_object, if_neg (hne _ (by decide)), if_neg (hne _ (by decide))]
        rfl

/-- From where the reader has come to, it takes what the walk accepts. -/
theorem isSome_run_iff {fuel : Nat} {place : Place} {stack : List Open} {s : List Char}
    (hfuel : (encode s).length ≤ fuel) :
    (Reader.run fuel place stack (encode s)).isSome = true ↔ Accepts (standOf place stack) s := by
  induction hn : s.length using Nat.strongRecOn generalizing fuel place stack s with
  | ind n ih =>
    have hbetween : (standOf place stack).spot.between = true := by cases place <;> rfl
    rw [accepts_dropWhile hbetween]
    have hsuffix := List.dropWhile_suffix isGap (l := s)
    have hstops : Text.Stops isGap (s.dropWhile isGap) := Text.stops_dropWhile s
    have hspace := dropSpace_encode s
    generalize s.dropWhile isGap = t at hsuffix hstops hspace ⊢
    by_cases hunfinished : Unfinished place stack
    · cases fuel with
      | zero =>
        have hnil : s = [] := by
          cases s with
          | nil => rfl
          | cons c s =>
            have hlt := Text.Utf8.length_encode_append_lt (List.cons_ne_nil c s) []
            rw [List.append_nil] at hlt
            omega
        subst hnil
        rw [run_no_fuel hunfinished, List.suffix_nil.1 hsuffix]
        exact ⟨nofun, fun h => absurd h (not_accepts_nil hunfinished)⟩
      | succ fuel =>
        rw [run_step hunfinished, hspace]
        cases t with
        | nil =>
          rw [show encode [] = [] from rfl, step_nil hunfinished]
          exact ⟨nofun, fun h => absurd h (not_accepts_nil hunfinished)⟩
        | cons c t =>
          have hagrees := agrees_step hunfinished (hstops c rfl) t
          generalize hcut : c :: t = cut at hagrees hsuffix ⊢
          generalize step place stack (encode cut) = p at hagrees ⊢
          cases hagrees with
          | fails hnot => exact ⟨nofun, fun h => absurd h hnot⟩
          | @goes place' stack' front back hne hsplit haccepts =>
            subst hsplit
            have hbytes : (encode (front ++ back)).length ≤ (encode s).length := by
              obtain ⟨gaps, rfl⟩ := hsuffix
              rw [Text.Utf8.encode_append gaps, List.length_append]
              omega
            have hlt := Text.Utf8.length_encode_append_lt hne back
            have hchars := hsuffix.length_le
            have hpos := List.length_pos_iff.2 hne
            rw [List.length_append] at hchars
            rw [haccepts]
            exact ih back.length (by omega) (by omega) rfl
          | stuck hbare hnot =>
            -- What is left of the numeral or literal is neither blank nor the end of a container.
            rw [Option.bind_some, run_bare hbare]
            exact ⟨nofun, fun h => absurd h hnot⟩
    · obtain ⟨v, rfl, rfl⟩ : ∃ v, place = .after v ∧ stack = [] := by
        simpa [Unfinished] using hunfinished
      rw [run_alone, hspace]
      exact isEmpty_iff_accepts hstops

/-- A text that is JSON as a whole. -/
def IsDocument (t : List Char) : Prop := (read? (encode t)).isSome = true

instance : DecidablePred IsDocument := fun t => inferInstanceAs (Decidable ((read? (encode t)).isSome = true))

/-- A text is a document exactly when the walk accepts it. -/
theorem isDocument_iff {t : List Char} : IsDocument t ↔ Accepts start t :=
  isSome_run_iff (Nat.le_refl (encode t).length)

/-! ## Points -/

theorem count_point_encode {w : List Char} (h : ∀ c ∈ w, isBare c = true) : (encode w).count 0x2E = w.count '.' := by
  induction w with
  | nil => rfl
  | cons c w ih =>
    have hc := ascii_of_isBare (h c List.mem_cons_self)
    have hpoint : (c == '.') = (UInt8.ofNat c.toNat == 0x2E) := by
      rw [← asChar_ofNat hc, asChar_beq _ '.' (by decide), asChar_ofNat hc]
      rfl
    rw [Text.Utf8.encode_cons_of_ascii hc, List.count_cons, List.count_cons, hpoint,
      ih fun d hd => h d (List.mem_cons_of_mem c hd)]

/-- A scalar has one point at most. -/
theorem count_point_of_isScalar {w : List Char} (h : isScalar w = true) : w.count '.' ≤ 1 := by
  rw [isScalar, Bool.and_eq_true, List.all_eq_true] at h
  obtain ⟨hbare, hscalar⟩ := h
  cases w with
  | nil => exact Nat.zero_le 1
  | cons c w =>
    rw [← count_point_encode hbare]
    obtain ⟨b, rest, hbytes, hleads, -⟩ := encode_leads c w
    have hquote : b ≠ 0x22 := fun hb => by
      obtain rfl := (hleads.eq_iff '"' (by decide)).1 hb
      exact absurd (hbare '"' List.mem_cons_self) (by decide)
    rw [hbytes] at hscalar
    cases hfound : scalar? (b :: rest) with
    | none =>
      rw [hfound] at hscalar
      exact nomatch hscalar
    | some found =>
      rw [hfound] at hscalar
      have hpoints := points_of_scalar? hquote hfound
      rw [List.isEmpty_iff.1 hscalar] at hpoints
      rw [hbytes]
      exact hpoints

/-- What is accepted from inside a numeral or a literal has one point at most. -/
theorem count_point_of_accepts {written : List Char} {frames : List Frame} {s : List Char}
    (h : Accepts ⟨.bare written, frames⟩ s) : written.count '.' ≤ 1 := by
  have hsplit := List.takeWhile_append_dropWhile (p := isBare) (l := s)
  have hrun := List.all_eq_true.1 (List.all_takeWhile (p := isBare) (l := s))
  rw [← hsplit, accepts_append (walk_bare hrun written frames), accepts_bare (Text.stops_dropWhile s)] at h
  have hpoints := count_point_of_isScalar h.1
  rw [List.count_append] at hpoints
  omega

end Speedtest.Json
