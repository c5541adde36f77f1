import Speedtest.Proofs.Json.Reading
import Speedtest.Proofs.Redaction.Hostnames

/-!
# Matches in documents

What the three patterns match in a document: a member as the grammar has it, with its key at the end of a key, and
addresses inside strings and nowhere else. An address whose first character ends an escape leads the walk to where the
placeholder leads it; one that starts earlier in an escape leaves it torn.
-/
namespace Speedtest.Redaction

open Json (Stand Spot Frame Accepts next walk walk_step isGap isBare closed coded)

/-! ## Addresses outside strings -/

/-- The colons that may still come before the next value. -/
def slack : Spot → Nat
  | .colon => 1
  | _ => 0

def points : Spot → Nat
  | .bare written => written.count '.'
  | _ => 0

variable {q r : Stand} {c : Char}

theorem not_gap_of_isAddressed (hc : isAddressed c = true) : isGap c = false :=
  Json.not_gap_of_kind (Text.forall_of_all (by decide)) hc

theorem nextAfter_of_isAddressed (hc : isAddressed c = true) (frames : List Frame) :
    Json.nextAfter frames c = none := by
  rw [Json.nextAfter, not_gap_of_isAddressed hc, if_neg Bool.false_ne_true]
  have hcomma : c ≠ ',' := Text.ne_of_kind hc (by decide)
  have hbracket : c ≠ ']' := Text.ne_of_kind hc (by decide)
  have hbrace : c ≠ '\x7d' := Text.ne_of_kind hc (by decide)
  rcases frames with _ | ⟨_ | _, frames⟩ <;> simp [Json.ending, hcomma, hbracket, hbrace]

/-- A character of an address outside a string is a colon that is due, or goes on with a numeral or a literal. -/
theorem next_outside (hq : q.spot.quoted = false) (hc : isAddressed c = true) (h : next q c = some r) :
    c = ':' ∧ q.spot = .colon ∧ r.spot = .value false ∨
    ∃ written, r.spot = .bare (written ++ [c]) ∧ c ≠ ':' ∧ slack q.spot = 0 ∧ points q.spot = written.count '.' := by
  have hgap := not_gap_of_isAddressed hc
  have hquote : c ≠ '"' := Text.ne_of_kind hc (by decide)
  have hcolon (hbare : isBare c = true) : c ≠ ':' := by
    rintro rfl
    exact absurd hbare (by decide)
  obtain ⟨spot, frames⟩ := q
  cases spot with
  | value opened =>
    have hbracket : c ≠ '[' := Text.ne_of_kind hc (by decide)
    have hbrace : c ≠ '\x7b' := Text.ne_of_kind hc (by decide)
    have hend : c ≠ ']' := Text.ne_of_kind hc (by decide)
    simp only [next, hgap, hquote, hbracket, hbrace, hend, if_false, Bool.false_eq_true] at h
    split at h
    · obtain rfl := Option.some.inj h
      exact .inr ⟨[], rfl, hcolon ‹_›, rfl, rfl⟩
    · cases h
  | key opened =>
    have hbrace : c ≠ '\x7d' := Text.ne_of_kind hc (by decide)
    simp [next, hgap, hquote, hbrace] at h
  | colon =>
    simp only [next, hgap, if_false, Bool.false_eq_true] at h
    split at h
    · obtain rfl := Option.some.inj h
      exact .inl ⟨‹_›, rfl, rfl⟩
    · cases h
  | after =>
    rw [next, nextAfter_of_isAddressed hc] at h
    cases h
  | bare written =>
    rw [next, nextAfter_of_isAddressed hc] at h
    split at h
    · obtain rfl := Option.some.inj h
      exact .inr ⟨written, rfl, hcolon ‹_›, rfl, rfl⟩
    · split at h <;> cases h
  | inside | escape | code => cases hq

/-- Outside strings there is one colon to a value, and the points are those of one numeral. -/
theorem walk_outside {run : List Char} (hq : q.spot.quoted = false) (hrun : ∀ c ∈ run, isAddressed c = true)
    (h : walk q run = some r) : run.count ':' ≤ slack q.spot ∧ points q.spot + run.count '.' ≤ points r.spot := by
  induction run generalizing q with
  | nil =>
    obtain rfl := Option.some.inj h
    exact ⟨Nat.zero_le _, Nat.le_refl _⟩
  | cons c run ih =>
    obtain ⟨q', hnext, hrest⟩ := Json.walk_cons_eq_some.1 h
    have hlater : ∀ d ∈ run, isAddressed d = true := fun d hd => hrun d (List.mem_cons_of_mem c hd)
    rcases next_outside hq (hrun c List.mem_cons_self) hnext with
      ⟨rfl, hspot, hspot'⟩ | ⟨written, hspot', hc, -, hpoints⟩
    · obtain ⟨hcolons, hdots⟩ := ih (by rw [hspot']; rfl) hlater hrest
      rw [hspot'] at hcolons hdots
      rw [hspot, List.count_cons_self, List.count_cons_of_ne (by decide)]
      exact ⟨Nat.succ_le_succ hcolons, hdots⟩
    · obtain ⟨hcolons, hdots⟩ := ih (by rw [hspot']; rfl) hlater hrest
      rw [hspot'] at hcolons hdots
      rw [List.count_cons_of_ne hc, hpoints, List.count_cons]
      rw [points, List.count_append, List.count_singleton] at hdots
      exact ⟨Nat.le_trans hcolons (Nat.zero_le _), by omega⟩

theorem points_le_of_accepts {s : List Char} (h : Accepts q s) : points q.spot ≤ 1 := by
  obtain ⟨spot, frames⟩ := q
  cases spot with
  | bare written => exact Json.count_point_of_accepts h
  | value | key | colon | after | inside | escape | code => exact Nat.zero_le 1

/-- What a pass for addresses finds in a document stands inside a string. -/
theorem SeeksAddresses.quoted {p : Text.Pattern} (hp : SeeksAddresses p) {before : Option Char} {found rest : List Char}
    (hmatch : p before (found ++ rest) = some found.length) (h : Accepts q (found ++ rest)) : q.spot.quoted = true := by
  obtain ⟨found', rest', hsplit, hlength, hmade, hmarks⟩ := hp.made before _ _ hmatch
  obtain ⟨rfl, rfl⟩ := List.append_inj hsplit hlength.symm
  obtain ⟨r, hwalk, hrest⟩ := Json.walk_of_accepts h
  cases hq : q.spot.quoted with
  | true => rfl
  | false =>
    obtain ⟨hcolons, hdots⟩ := walk_outside hq hmade hwalk
    have hone := points_le_of_accepts hrest
    have hslack : slack q.spot ≤ 1 := by
      unfold slack
      split <;> decide
    omega

/-! ## Addresses inside strings -/

/-- An escape that a digit does not complete. -/
def torn : Spot → Bool
  | .escape _ | .code _ (_ + 1) => true
  | _ => false

/-- Only a backslash starts an escape. -/
theorem slash_of_escape {c : Char} {key : Bool} (h : next q c = some r) (hr : r.spot = .escape key) : c = '\\' := by
  obtain ⟨spot, frames⟩ := q
  cases spot with
  | inside =>
    rw [next] at h
    split at h
    · obtain rfl := Option.some.inj h
      rename_i key' _
      cases key' <;> cases hr
    · split at h
      · assumption
      · split at h
        · cases h
        · obtain rfl := Option.some.inj h
          cases hr
  | code key left =>
    rw [next] at h
    split at h
    · obtain rfl := Option.some.inj h
      cases left <;> cases hr
    · cases h
  | value | key | colon | after | bare | escape =>
    simp only [next, Json.nextAfter, Json.emptied.eq_def, Json.ending.eq_def] at h
    repeat' split at h
    all_goals cases h
    all_goals cases hr

/-- The digits of an escape come behind its letter. -/
theorem code_of_next {key : Bool} {left : Nat} (h : next q c = some r) (hr : r.spot = .code key left) :
    q.spot = .escape key ∧ c = 'u' ∨ q.spot = .code key (left + 1) ∧ Text.isHexDigit c = true := by
  obtain ⟨spot, frames⟩ := q
  cases spot with
  | escape key' =>
    rw [next] at h
    split at h
    · obtain rfl := Option.some.inj h
      obtain ⟨rfl, -⟩ := Spot.code.inj hr
      exact .inl ⟨rfl, ‹_›⟩
    · split at h
      · obtain rfl := Option.some.inj h
        cases hr
      · cases h
  | code key' left' =>
    rw [next] at h
    split at h
    · obtain rfl := Option.some.inj h
      cases left' with
      | zero => cases hr
      | succ left' =>
        obtain ⟨rfl, rfl⟩ := Spot.code.inj hr
        exact .inr ⟨rfl, ‹_›⟩
    · cases h
  | value | key | colon | after | bare | inside =>
    simp only [next, Json.nextAfter, Json.emptied.eq_def, Json.ending.eq_def, closed] at h
    repeat' split at h
    all_goals cases h
    all_goals cases hr

theorem torn_next (h : next q c = some r) (hr : torn r.spot = true) : c = '\\' ∨ torn q.spot = true := by
  obtain ⟨spot, frames⟩ := r
  cases spot with
  | escape key => exact .inl (slash_of_escape h rfl)
  | code key left =>
    rcases code_of_next h rfl with ⟨hq, -⟩ | ⟨hq, -⟩
    all_goals
      rw [hq]
      exact .inr rfl
  | value | key | colon | after | bare | inside => exact nomatch hr

/-- Where a text leads into an escape, it has a backslash. -/
theorem slash_of_torn {run : List Char} (huntorn : torn q.spot = false) (h : walk q run = some r)
    (hr : torn r.spot = true) : '\\' ∈ run := by
  induction run generalizing q with
  | nil =>
    obtain rfl := Option.some.inj h
    rw [huntorn] at hr
    exact nomatch hr
  | cons c run ih =>
    obtain ⟨q', hnext, hrest⟩ := Json.walk_cons_eq_some.1 h
    cases htorn : torn q'.spot with
    | true =>
      rcases torn_next hnext htorn with rfl | hq
      · exact List.mem_cons_self
      · rw [huntorn] at hq
        exact nomatch hq
    | false => exact List.mem_cons_of_mem c (ih htorn hrest)

theorem not_control_of_isAddressed (hc : isAddressed c = true) : ¬ c < ' ' := by
  intro hlt
  have hall : ∀ n < 32, isAddressed (Char.ofNat n) = false := by decide +kernel
  have hchar := hall c.toNat hlt
  rw [Char.ofNat_toNat, hc] at hchar
  exact nomatch hchar

theorem walk_inside {run : List Char} (hrun : ∀ c ∈ run, isAddressed c = true) (key : Bool) (frames : List Frame) :
    walk ⟨.inside key, frames⟩ run = some ⟨.inside key, frames⟩ := by
  induction run with
  | nil => rfl
  | cons c run ih =>
    have hc := hrun c List.mem_cons_self
    have hquote : c ≠ '"' := Text.ne_of_kind hc (by decide)
    have hslash : c ≠ '\\' := Text.ne_of_kind hc (by decide)
    rw [walk_step (Json.next_plain hquote hslash (not_control_of_isAddressed hc))]
    exact ih fun d hd => hrun d (List.mem_cons_of_mem c hd)

theorem isAddressed_of_mem_placeholder : ∀ c ∈ placeholder.toList, isAddressed c = true :=
  List.all_eq_true.1 (by decide)

/-- A torn escape does not go on with the placeholder. -/
theorem walk_placeholder_of_torn (hq : torn q.spot = true) : walk q placeholder.toList = none := by
  obtain ⟨spot, frames⟩ := q
  cases spot with
  | escape key => rfl
  | code key left =>
    cases left with
    | zero => exact nomatch hq
    | succ left => cases left <;> rfl
  | value | key | colon | after | bare | inside => exact nomatch hq

/-- Inside a string an address and the placeholder lead to the same, unless an escape is torn. -/
theorem walk_placeholder {run : List Char} (hq : q.spot.quoted = true) (huntorn : torn q.spot = false) (hne : run ≠ [])
    (hrun : ∀ c ∈ run, isAddressed c = true) (h : walk q run = some r) : walk q placeholder.toList = some r := by
  obtain ⟨spot, frames⟩ := q
  cases spot with
  | inside key =>
    rw [walk_inside hrun] at h
    rw [walk_inside isAddressed_of_mem_placeholder, h]
  | code key left =>
    cases left with
    | zero =>
      -- The last digit of an escape may be any, so the first zero of the placeholder completes it too.
      obtain ⟨c, run, rfl⟩ := List.exists_cons_of_ne_nil hne
      obtain ⟨q', hnext, hrest⟩ := Json.walk_cons_eq_some.1 h
      rw [next] at hnext
      split at hnext
      · obtain rfl := Option.some.inj hnext
        rw [coded, walk_inside fun d hd => hrun d (List.mem_cons_of_mem c hd)] at hrest
        obtain rfl := Option.some.inj hrest
        rfl
      · cases hnext
    | succ left => cases huntorn
  | escape key => cases huntorn
  | value | key | colon | after | bare => cases hq

/-- A digit of an escape stands behind a character of a word. -/
def Led (before : Option Char) (q : Stand) : Prop :=
  ∀ key left, q.spot = .code key left → before.any Text.isWord = true

theorem led_start : Led none Json.start := fun _ _ h => nomatch h

theorem led_next (h : next q c = some r) : Led (some c) r := by
  intro key left hspot
  rcases code_of_next h hspot with ⟨-, rfl⟩ | ⟨-, hdigit⟩
  · decide
  · exact isWord_of_isHexDigit hdigit

theorem led_walk {run : List Char} (hne : run ≠ []) (h : walk q run = some r) : Led run.getLast? r := by
  rcases List.eq_nil_or_concat run with rfl | ⟨init, c, rfl⟩
  · exact absurd rfl hne
  · rw [List.concat_eq_append] at h
    obtain ⟨q', -, hlast⟩ := Json.walk_append_eq_some.1 h
    obtain ⟨r', hnext, hnil⟩ := Json.walk_cons_eq_some.1 hlast
    obtain rfl := Option.some.inj hnil
    rw [List.concat_eq_append, List.getLast?_concat]
    exact led_next hnext

/-- The edge of a word keeps an address of numbers off escapes. -/
theorem not_torn_of_v4 {before : Option Char} {found rest : List Char} (hled : Led before q)
    (hmatch : v4 before (found ++ rest) = some found.length) (h : Accepts q (found ++ rest)) : torn q.spot = false := by
  obtain ⟨found', rest', hsplit, hlength, hdotted, hdots, hword⟩ := v4_eq_some hmatch
  obtain ⟨rfl, rfl⟩ := List.append_inj hsplit hlength.symm
  obtain ⟨spot, frames⟩ := q
  cases spot with
  | code key left =>
    rw [hled key left rfl] at hword
    cases hword
  | escape key =>
    cases found with
    | nil => cases hdots
    | cons c found =>
      have hc := hdotted c List.mem_cons_self
      obtain ⟨r, hnext, -⟩ := Json.next_of_accepts h
      have hnone : next ⟨.escape key, frames⟩ c = none := by
        have hu : c ≠ 'u' := by
          rintro rfl
          exact absurd hc (by decide)
        have hescape : ¬ Json.isEscape c = true := fun hescape => by
          have hall : ∀ c ∈ "\"\\/bfnrt".toList, isDotted c = false := Text.forall_of_all (by decide)
          rw [hall c (List.contains_iff_mem.1 hescape)] at hc
          cases hc
        rw [next, if_neg hu, if_neg hescape]
      rw [hnone] at hnext
      cases hnext
  | value | key | colon | after | bare | inside => rfl

/-! ## Members -/

/-- A walk over a text that comes to no key on its way. -/
inductive Passes : Stand → List Char → Stand → Prop where
  | nil (q : Stand) : Passes q [] q
  | cons {q q' r : Stand} {c : Char} {s : List Char} : next q c = some q' → (∀ opened, q'.spot ≠ .key opened) →
      Passes q' s r → Passes q (c :: s) r

theorem Passes.append {s t : List Char} {q' : Stand} (h : Passes q s q') (h' : Passes q' t r) :
    Passes q (s ++ t) r := by
  induction h with
  | nil => exact h'
  | cons hnext hspot _ ih => exact .cons hnext hspot (ih h')

theorem Passes.walk_eq {s : List Char} (h : Passes q s r) : walk q s = some r := by
  induction h with
  | nil => rfl
  | cons hnext _ _ ih => rw [walk_step hnext, ih]

/-- Wherever the walk is stopped on its way, no key comes next. -/
theorem Passes.no_key {s t : List Char} {q' : Stand} (h : Passes q (s ++ t) r) (hne : s ≠ [])
    (hwalk : walk q s = some q') (opened : Bool) : q'.spot ≠ .key opened := by
  induction s generalizing q with
  | nil => exact absurd rfl hne
  | cons c s ih =>
    cases h with
    | cons hnext hspot hrest =>
      rw [walk_step hnext] at hwalk
      cases s with
      | nil =>
        obtain rfl := Option.some.inj hwalk
        exact hspot opened
      | cons d s => exact ih hrest (List.cons_ne_nil d s) hwalk

theorem not_bare_of_isBlank (hc : Text.isBlank c = true) : isBare c = false := by
  rw [Bool.eq_false_iff]
  intro hbare
  have hall := Json.of_ascii (P := fun c => isBare c = true → Text.isBlank c = false) (by decide +kernel)
    (Json.ascii_of_isBare hbare) hbare
  rw [hc] at hall
  exact nomatch hall

/-- Between lexemes a blank leads nowhere else. -/
theorem next_blank (hq : q.spot.between = true) (hc : Text.isBlank c = true) (h : next q c = some r) : r = q := by
  cases hgap : isGap c with
  | true =>
    rw [Json.next_gap hq hgap] at h
    exact (Option.some.inj h).symm
  | false =>
    have hne (d : Char) (hd : Text.isBlank d = false) : c ≠ d := Text.ne_of_kind hc hd
    obtain ⟨spot, frames⟩ := q
    cases spot with
    | value opened =>
      simp [next, hgap, hne '"' (by decide), hne '[' (by decide), hne '\x7b' (by decide), hne ']' (by decide),
        not_bare_of_isBlank hc] at h
    | key opened => simp [next, hgap, hne '"' (by decide), hne '\x7d' (by decide)] at h
    | colon => simp [next, hgap, hne ':' (by decide)] at h
    | after =>
      rcases frames with _ | ⟨_ | _, frames⟩ <;>
        simp [next, Json.nextAfter, Json.ending, hgap, hne ',' (by decide), hne ']' (by decide),
          hne '\x7d' (by decide)] at h
    | bare | inside | escape | code => cases hq

theorem passes_blanks {run : List Char} (hq : q.spot.between = true) (hkey : ∀ opened, q.spot ≠ .key opened)
    (hrun : ∀ c ∈ run, Text.isBlank c = true) (h : walk q run = some r) : r = q ∧ Passes q run q := by
  induction run with
  | nil => exact ⟨(Option.some.inj h).symm, .nil q⟩
  | cons c run ih =>
    obtain ⟨q', hnext, hrest⟩ := Json.walk_cons_eq_some.1 h
    obtain rfl := next_blank hq (hrun c List.mem_cons_self) hnext
    obtain ⟨hr, hpasses⟩ := ih (fun d hd => hrun d (List.mem_cons_of_mem c hd)) hrest
    exact ⟨hr, .cons hnext hkey hpasses⟩

/-- Inside the value of a member, where no quote has ended it. -/
def InValue (frames : List Frame) (q : Stand) : Prop :=
  q = ⟨.inside false, frames⟩ ∨ ∃ left, q = ⟨.code false left, frames⟩

/-- Neither quote nor backslash leads out of a value that is being read. -/
theorem next_inValue {frames : List Frame} (hq : InValue frames q) (hquote : c ≠ '"') (hslash : c ≠ '\\')
    (h : next q c = some r) : InValue frames r := by
  rcases hq with rfl | ⟨left, rfl⟩
  · rw [next, if_neg hquote, if_neg hslash] at h
    split at h
    · cases h
    · exact .inl (Option.some.inj h).symm
  · rw [next] at h
    split at h
    · obtain rfl := Option.some.inj h
      cases left with
      | zero => exact .inl rfl
      | succ left => exact .inr ⟨left, rfl⟩
    · cases h

/-- The body of a string is walked through without leaving the value. -/
theorem passes_body {frames : List Frame} {value : List Char} (hq : InValue frames q) (hvalue : Body value)
    (h : walk q value = some r) : InValue frames r ∧ Passes q value r := by
  have hkey {q : Stand} (hq : InValue frames q) (opened : Bool) : q.spot ≠ .key opened := by
    rcases hq with rfl | ⟨left, rfl⟩
    all_goals
      intro h
      cases h
  induction hvalue generalizing q with
  | nil =>
    obtain rfl := Option.some.inj h
    exact ⟨hq, .nil q⟩
  | plain hquote hslash _ ih =>
    obtain ⟨q', hnext, hrest⟩ := Json.walk_cons_eq_some.1 h
    have hq' := next_inValue hq hquote hslash hnext
    obtain ⟨hr, hpasses⟩ := ih hq' hrest
    exact ⟨hr, .cons hnext (hkey hq') hpasses⟩
  | @pair c value _ _ ih =>
    obtain ⟨q1, hslash, hpair⟩ := Json.walk_cons_eq_some.1 h
    obtain ⟨q2, hescape, hrest⟩ := Json.walk_cons_eq_some.1 hpair
    obtain rfl : q1 = ⟨.escape false, frames⟩ := by
      rcases hq with rfl | ⟨left, rfl⟩
      · exact (Option.some.inj hslash).symm
      · cases hslash
    have hq2 : InValue frames q2 := by
      rw [next] at hescape
      split at hescape
      · exact .inr ⟨3, (Option.some.inj hescape).symm⟩
      · split at hescape
        · exact .inl (Option.some.inj hescape).symm
        · cases hescape
    obtain ⟨hr, hpasses⟩ := ih hq2 hrest
    have hescapeKey (opened : Bool) : (⟨.escape false, frames⟩ : Stand).spot ≠ .key opened := by
      intro h
      cases h
    exact ⟨hr, .cons hslash hescapeKey (.cons hescape (hkey hq2) hpasses)⟩

/-- Behind a quote that letters follow, the walk is inside a string. -/
theorem inside_of_quote {q' : Stand} (hquote : next q '"' = some q') (hletter : next q' 'h' = some r) :
    ∃ key frames, q' = ⟨.inside key, frames⟩ := by
  obtain ⟨spot, frames⟩ := q
  have hafter : Json.nextAfter frames '"' = none := by rcases frames with _ | ⟨_ | _, frames⟩ <;> rfl
  cases spot with
  | value => exact ⟨false, frames, (Option.some.inj hquote).symm⟩
  | key => exact ⟨true, frames, (Option.some.inj hquote).symm⟩
  | escape key => exact ⟨key, frames, (Option.some.inj hquote).symm⟩
  | inside key =>
    obtain rfl := Option.some.inj hquote
    cases key with
    | true => exact nomatch hletter
    | false => rcases frames with _ | ⟨_ | _, frames⟩ <;> exact nomatch hletter
  | colon => exact nomatch hquote
  | code => exact nomatch hquote
  | after => exact nomatch hafter.symm.trans hquote
  | bare written =>
    rw [next, hafter, if_neg (by decide)] at hquote
    split at hquote <;> exact nomatch hquote

theorem colon_of_closed {key : Bool} {frames : List Frame} (h : next ⟨closed key, frames⟩ ':' = some r) :
    key = true ∧ r = ⟨.value false, .object :: frames⟩ := by
  cases key with
  | true => exact ⟨rfl, (Option.some.inj h).symm⟩
  | false => rcases frames with _ | ⟨_ | _, frames⟩ <;> exact nomatch h

theorem passes_plain {run : List Char} (hrun : ∀ c ∈ run, c ≠ '"' ∧ c ≠ '\\' ∧ ¬ c < ' ') (key : Bool)
    (frames : List Frame) : Passes ⟨.inside key, frames⟩ run ⟨.inside key, frames⟩ := by
  induction run with
  | nil => exact .nil _
  | cons c run ih =>
    obtain ⟨hquote, hslash, hcontrol⟩ := hrun c List.mem_cons_self
    exact .cons (Json.next_plain hquote hslash hcontrol) nofun (ih fun d hd => hrun d (List.mem_cons_of_mem c hd))

/-- In a document a member that names a host has its key at the end of a key, and no other key stands in it. -/
theorem passes_member {found : List Char} (hfound : Member found) (h : walk q found = some r) :
    ∃ frames, next q '"' = some ⟨.inside true, frames⟩ ∧ r = ⟨.after, .object :: frames⟩ ∧ Passes q found r := by
  obtain @⟨lead, gap, value, hlead, hgap, hvalue⟩ := hfound
  rw [hostnameKey_eq, List.cons_append, List.append_assoc, List.singleton_append] at h ⊢
  obtain ⟨q1, hopen, h⟩ := Json.walk_cons_eq_some.1 h
  -- The quote opens a string or stands in one, and the colon behind the next quote tells that it is a key.
  obtain ⟨key, frames, rfl⟩ : ∃ key frames, q1 = ⟨.inside key, frames⟩ := by
    obtain ⟨q2, hletter, -⟩ := Option.bind_eq_some_iff.1 h
    exact inside_of_quote hopen hletter
  have hname : Passes ⟨.inside key, frames⟩ "hostname".toList ⟨.inside key, frames⟩ :=
    passes_plain (Text.forall_of_all (by decide)) key frames
  rw [Json.walk_append, hname.walk_eq, Option.bind_some, walk_step rfl] at h
  have hbetween : (⟨closed key, frames⟩ : Stand).spot.between = true := by cases key <;> rfl
  have hclosed : ∀ opened, closed key ≠ .key opened := by cases key <;> simp [closed]
  obtain ⟨q2, hblanks, h⟩ := Json.walk_append_eq_some.1 h
  obtain ⟨rfl, hpassLead⟩ := passes_blanks hbetween hclosed hlead hblanks
  obtain ⟨q3, hcolon, h⟩ := Json.walk_cons_eq_some.1 h
  obtain ⟨rfl, rfl⟩ := colon_of_closed hcolon
  obtain ⟨q4, hgaps, h⟩ := Json.walk_append_eq_some.1 h
  obtain ⟨rfl, hpassGap⟩ := passes_blanks (q := ⟨.value false, .object :: frames⟩) rfl nofun hgap hgaps
  rw [walk_step rfl] at h
  obtain ⟨q5, hbody, h⟩ := Json.walk_append_eq_some.1 h
  obtain ⟨hq5, hpassBody⟩ := passes_body (.inl rfl) hvalue hbody
  have hend : next q5 '"' = some ⟨.after, .object :: frames⟩ ∧ r = ⟨.after, .object :: frames⟩ := by
    rcases hq5 with rfl | ⟨left, rfl⟩
    · exact ⟨rfl, (Option.some.inj h).symm⟩
    · exact nomatch h
  obtain ⟨hend, rfl⟩ := hend
  refine ⟨frames, hopen, rfl, ?_⟩
  exact .cons hopen nofun (hname.append (.cons rfl hclosed (hpassLead.append (.cons hcolon nofun
    (hpassGap.append (.cons rfl nofun (hpassBody.append (.cons hend nofun (.nil _)))))))))

end Speedtest.Redaction
