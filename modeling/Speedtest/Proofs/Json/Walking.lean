import Speedtest.Json.Reader
import Speedtest.Proofs.Text.Scan
import Speedtest.Text.Ascii

/-!
# Walking through a document

A document can be told from other texts one character at a time: it is enough to know what may come next and which
containers are open. What a numeral or a literal says is looked at when it ends. A text is accepted when a value
stands alone at its end, and what stands between the quotes of a string neither moves the walk nor depends on where it
has come to.
-/
namespace Speedtest.Json

/-- A container that is open. -/
inductive Frame where
  | array
  | object
  deriving DecidableEq

/-- What a text has come to. -/
inductive Spot where
  /-- A value has to come, or the array that was just opened ends. -/
  | value (opened : Bool)
  /-- A key has to come, or the object that was just opened ends. -/
  | key (opened : Bool)
  | colon
  /-- A value is complete. -/
  | after
  /-- A numeral or a literal goes on. -/
  | bare (written : List Char)
  | inside (key : Bool)
  | escape (key : Bool)
  /-- This many digits more than one are missing. -/
  | code (key : Bool) (left : Nat)
  deriving DecidableEq

structure Stand where
  spot : Spot
  frames : List Frame
  deriving DecidableEq

def isGap (c : Char) : Bool := c == ' ' || c == '\n' || c == '\t' || c == '\r'

/-- A character of a numeral or a literal. -/
def isBare (c : Char) : Bool :=
  Text.isAsciiLetter c || Text.isAsciiDigit c || c == '+' || c == '-' || c == '.'

def isEscape (c : Char) : Bool := "\"\\/bfnrt".toList.contains c

/-- What is a value as a whole, and neither a string nor a container. -/
def isScalar (written : List Char) : Bool :=
  written.all isBare && (Reader.scalar? (Text.Utf8.encode written)).any fun found => found.2.isEmpty

/-- What comes behind a string. -/
def closed (key : Bool) : Spot := if key then .colon else .after

/-- What a digit of an escape leads to. -/
def coded (key : Bool) : (left : Nat) → Spot
  | 0 => .inside key
  | left + 1 => .code key left

/-- What ends a value, or goes on with its container. -/
def ending : List Frame → Char → Option Stand
  | .array :: outer, c =>
    if c = ',' then some ⟨.value false, .array :: outer⟩ else if c = ']' then some ⟨.after, outer⟩ else none
  | .object :: outer, c =>
    if c = ',' then some ⟨.key false, outer⟩ else if c = '\x7d' then some ⟨.after, outer⟩ else none
  | [], _ => none

def nextAfter (frames : List Frame) (c : Char) : Option Stand :=
  if isGap c then some ⟨.after, frames⟩ else ending frames c

/-- The end of an array that was just opened. -/
def emptied : (opened : Bool) → List Frame → Option Stand
  | true, .array :: outer => some ⟨.after, outer⟩
  | _, _ => none

/-- One character further. An object whose key comes next is not among the open containers. -/
def next : Stand → Char → Option Stand
  | ⟨.value opened, frames⟩, c =>
    if isGap c then some ⟨.value opened, frames⟩
    else if c = '"' then some ⟨.inside false, frames⟩
    else if c = '[' then some ⟨.value true, .array :: frames⟩
    else if c = '\x7b' then some ⟨.key true, frames⟩
    else if c = ']' then emptied opened frames
    else if isBare c then some ⟨.bare [c], frames⟩
    else none
  | ⟨.key opened, frames⟩, c =>
    if isGap c then some ⟨.key opened, frames⟩
    else if c = '"' then some ⟨.inside true, frames⟩
    else if c = '\x7d' then if opened then some ⟨.after, frames⟩ else none
    else none
  | ⟨.colon, frames⟩, c =>
    if isGap c then some ⟨.colon, frames⟩
    else if c = ':' then some ⟨.value false, .object :: frames⟩
    else none
  | ⟨.after, frames⟩, c => nextAfter frames c
  | ⟨.bare written, frames⟩, c =>
    if isBare c then some ⟨.bare (written ++ [c]), frames⟩
    else if isScalar written then nextAfter frames c
    else none
  | ⟨.inside key, frames⟩, c =>
    if c = '"' then some ⟨closed key, frames⟩
    else if c = '\\' then some ⟨.escape key, frames⟩
    else if c < ' ' then none
    else some ⟨.inside key, frames⟩
  | ⟨.escape key, frames⟩, c =>
    if c = 'u' then some ⟨.code key 3, frames⟩ else if isEscape c then some ⟨.inside key, frames⟩ else none
  | ⟨.code key left, frames⟩, c => if Text.isHexDigit c then some ⟨coded key left, frames⟩ else none

def walk (q : Stand) (s : List Char) : Option Stand := s.foldlM next q

def Stand.complete : Stand → Bool
  | ⟨.after, []⟩ => true
  | ⟨.bare written, []⟩ => isScalar written
  | _ => false

/-- From here on a text makes a document complete. -/
def Accepts (q : Stand) (s : List Char) : Prop := (walk q s).any Stand.complete = true

/-- Before the first character. -/
def start : Stand := ⟨.value false, []⟩

variable {q r : Stand} {s t : List Char}

theorem walk_nil (q : Stand) : walk q [] = some q := rfl

theorem walk_cons (q : Stand) (c : Char) (s : List Char) : walk q (c :: s) = (next q c).bind (walk · s) :=
  List.foldlM_cons

theorem walk_step {c : Char} (h : next q c = some r) (s : List Char) : walk q (c :: s) = walk r s := by
  rw [walk_cons, h]
  rfl

theorem walk_append (q : Stand) (s t : List Char) : walk q (s ++ t) = (walk q s).bind (walk · t) :=
  List.foldlM_append

theorem walk_cons_eq_some {c : Char} :
    walk q (c :: s) = some r ↔ ∃ q', next q c = some q' ∧ walk q' s = some r := by
  rw [walk_cons, Option.bind_eq_some_iff]

theorem walk_append_eq_some : walk q (s ++ t) = some r ↔ ∃ q', walk q s = some q' ∧ walk q' t = some r := by
  rw [walk_append, Option.bind_eq_some_iff]

theorem accepts_append (h : walk q s = some r) : Accepts q (s ++ t) ↔ Accepts r t := by
  rw [Accepts, walk_append, h]
  rfl

theorem accepts_cons {c : Char} (h : next q c = some r) : Accepts q (c :: s) ↔ Accepts r s := by
  rw [Accepts, walk_step h]
  rfl

theorem walk_of_accepts (h : Accepts q (s ++ t)) : ∃ r, walk q s = some r ∧ Accepts r t := by
  cases hwalk : walk q s with
  | none =>
    rw [Accepts, walk_append, hwalk] at h
    exact nomatch h
  | some r => exact ⟨r, rfl, (accepts_append hwalk).1 h⟩

theorem next_of_accepts {c : Char} (h : Accepts q (c :: s)) : ∃ r, next q c = some r ∧ Accepts r s := by
  cases hnext : next q c with
  | none =>
    rw [Accepts, walk_cons, hnext] at h
    exact nomatch h
  | some r => exact ⟨r, rfl, (accepts_cons hnext).1 h⟩

theorem not_accepts_of_next {c : Char} (h : next q c = none) : ¬ Accepts q (c :: s) := fun haccepts => by
  obtain ⟨r, hr, -⟩ := next_of_accepts haccepts
  rw [h] at hr
  exact nomatch hr

/-! ## Gaps -/

def Spot.quoted : Spot → Bool
  | .inside _ | .escape _ | .code _ _ => true
  | _ => false

/-- Neither in a string nor in a numeral or literal. -/
def Spot.between : Spot → Bool
  | .value _ | .key _ | .colon | .after => true
  | _ => false

theorem of_isGap {P : Char → Prop} (h : ∀ c ∈ " \n\t\r".toList, P c) {c : Char} (hc : isGap c = true) : P c := by
  refine h c ?_
  simpa [isGap, or_assoc] using hc

theorem not_gap_of_kind {kind : Char → Bool} (hkind : ∀ c ∈ " \n\t\r".toList, kind c = false) {c : Char}
    (hc : kind c = true) : isGap c = false := by
  refine Bool.eq_false_iff.2 fun hgap => ?_
  have hnot : kind c = false := of_isGap (P := fun c => kind c = false) hkind hgap
  rw [hc] at hnot
  exact nomatch hnot

theorem next_gap (hq : q.spot.between = true) {c : Char} (hc : isGap c = true) : next q c = some q := by
  obtain ⟨spot, frames⟩ := q
  cases spot with
  | value | key | colon => rw [next, if_pos hc]
  | after => rw [next, nextAfter, if_pos hc]
  | bare | inside | escape | code => exact nomatch hq

theorem walk_gaps (hq : q.spot.between = true) {gaps : List Char} (h : ∀ c ∈ gaps, isGap c = true) :
    walk q gaps = some q := by
  induction gaps with
  | nil => rfl
  | cons c gaps ih =>
    rw [walk_step (next_gap hq (h c List.mem_cons_self))]
    exact ih fun d hd => h d (List.mem_cons_of_mem c hd)

theorem accepts_dropWhile (hq : q.spot.between = true) (s : List Char) :
    Accepts q s ↔ Accepts q (s.dropWhile isGap) := by
  have hsplit := List.takeWhile_append_dropWhile (p := isGap) (l := s)
  have hwalk := walk_gaps hq (List.all_eq_true.1 (List.all_takeWhile (p := isGap) (l := s)))
  rw [← accepts_append (t := s.dropWhile isGap) hwalk, hsplit]

/-! ## Numerals and literals -/

theorem not_gap_of_isBare {c : Char} (h : isBare c = true) : isGap c = false :=
  not_gap_of_kind (Text.forall_of_all (by decide)) h

theorem next_value_bare {c : Char} (h : isBare c = true) (opened : Bool) (frames : List Frame) :
    next ⟨.value opened, frames⟩ c = some ⟨.bare [c], frames⟩ := by
  have hne (d : Char) (hd : isBare d = false) : c ≠ d := Text.ne_of_kind h hd
  rw [next, not_gap_of_isBare h, if_neg Bool.false_ne_true, if_neg (hne '"' (by decide)), if_neg (hne '[' (by decide)),
    if_neg (hne '\x7b' (by decide)), if_neg (hne ']' (by decide)), if_pos h]

theorem walk_bare {run : List Char} (h : ∀ c ∈ run, isBare c = true) (written : List Char) (frames : List Frame) :
    walk ⟨.bare written, frames⟩ run = some ⟨.bare (written ++ run), frames⟩ := by
  induction run generalizing written with
  | nil => rw [List.append_nil]; rfl
  | cons c run ih =>
    have hnext : next ⟨.bare written, frames⟩ c = some ⟨.bare (written ++ [c]), frames⟩ := by
      rw [next, if_pos (h c List.mem_cons_self)]
    rw [walk_step hnext, ih (fun d hd => h d (List.mem_cons_of_mem c hd)), List.append_assoc]
    rfl

/-- A numeral or a literal that ends is looked at as a whole. -/
theorem accepts_bare (h : Text.Stops isBare t) (written : List Char) (frames : List Frame) :
    Accepts ⟨.bare written, frames⟩ t ↔ isScalar written = true ∧ Accepts ⟨.after, frames⟩ t := by
  cases t with
  | nil =>
    cases frames with
    | nil => simp [Accepts, walk_nil, Stand.complete]
    | cons => simp [Accepts, walk_nil, Stand.complete]
  | cons c t =>
    have hc : ¬ isBare c = true := Bool.eq_false_iff.1 (h c rfl)
    have hnext : next ⟨.bare written, frames⟩ c = if isScalar written then nextAfter frames c else none := by
      rw [next, if_neg hc]
    -- The character that ends it is taken as one behind a value.
    rw [Accepts, Accepts, walk_cons, walk_cons, hnext, next]
    cases isScalar written <;> simp

/-! ## Strings -/

/-- What stands between the quotes of a string. -/
inductive Content : List Char → Prop where
  | nil : Content []
  | plain {c : Char} {w : List Char} : c ≠ '"' → c ≠ '\\' → ¬ c < ' ' → Content w → Content (c :: w)
  | escaped {c : Char} {w : List Char} : isEscape c = true → Content w → Content ('\\' :: c :: w)
  | code {a b c d : Char} {w : List Char} : Text.isHexDigit a = true → Text.isHexDigit b = true →
      Text.isHexDigit c = true → Text.isHexDigit d = true → Content w → Content ('\\' :: 'u' :: a :: b :: c :: d :: w)

section Strings

variable {key : Bool} {frames : List Frame} {w : List Char}

theorem next_plain {c : Char} (hquote : c ≠ '"') (hslash : c ≠ '\\') (hcontrol : ¬ c < ' ') :
    next ⟨.inside key, frames⟩ c = some ⟨.inside key, frames⟩ := by
  rw [next, if_neg hquote, if_neg hslash, if_neg hcontrol]

theorem next_slash : next ⟨.inside key, frames⟩ '\\' = some ⟨.escape key, frames⟩ := rfl

theorem next_u : next ⟨.escape key, frames⟩ 'u' = some ⟨.code key 3, frames⟩ := rfl

theorem next_escape {c : Char} (h : isEscape c = true) :
    next ⟨.escape key, frames⟩ c = some ⟨.inside key, frames⟩ := by
  have hu : c ≠ 'u' := by
    rintro rfl
    exact absurd h (by decide)
  rw [next, if_neg hu, if_pos h]

theorem next_code {c : Char} (h : Text.isHexDigit c = true) (left : Nat) :
    next ⟨.code key left, frames⟩ c = some ⟨coded key left, frames⟩ := by
  rw [next, if_pos h]

/-- The contents of a string lead to where they started. -/
theorem walk_content (h : Content w) : walk ⟨.inside key, frames⟩ w = some ⟨.inside key, frames⟩ := by
  induction h with
  | nil => rfl
  | plain hquote hslash hcontrol _ ih => rw [walk_step (next_plain hquote hslash hcontrol), ih]
  | escaped hc _ ih => rw [walk_step next_slash, walk_step (next_escape hc), ih]
  | code ha hb hc hd _ ih =>
    rw [walk_step next_slash, walk_step next_u, walk_step (r := ⟨.code key 2, frames⟩) (next_code ha 3),
      walk_step (r := ⟨.code key 1, frames⟩) (next_code hb 2), walk_step (r := ⟨.code key 0, frames⟩) (next_code hc 1),
      walk_step (r := ⟨.inside key, frames⟩) (next_code hd 0), ih]

theorem walk_string (h : Content w) (t : List Char) :
    walk ⟨.inside key, frames⟩ (w ++ '"' :: t) = walk ⟨closed key, frames⟩ t := by
  rw [walk_append, walk_content h, Option.bind_some]
  exact walk_step rfl t

theorem digit_of_accepts {left : Nat} (h : Accepts ⟨.code key left, frames⟩ s) :
    ∃ c t, s = c :: t ∧ Text.isHexDigit c = true ∧ Accepts ⟨coded key left, frames⟩ t := by
  cases s with
  | nil => exact nomatch h
  | cons c s =>
    obtain ⟨r, hr, hs⟩ := next_of_accepts h
    rw [next] at hr
    split at hr
    · obtain rfl := Option.some.inj hr
      exact ⟨c, s, rfl, ‹_›, hs⟩
    · exact nomatch hr

/-- A string in a document comes to its end. -/
theorem content_of_accepts (h : Accepts ⟨.inside key, frames⟩ s) :
    ∃ w t, Content w ∧ s = w ++ '"' :: t ∧ Accepts ⟨closed key, frames⟩ t := by
  induction hn : s.length using Nat.strongRecOn generalizing s with
  | ind n ih =>
    cases s with
    | nil => exact nomatch h
    | cons c s =>
      obtain ⟨r, hr, hs⟩ := next_of_accepts h
      rw [next] at hr
      split at hr
      · obtain rfl := Option.some.inj hr
        subst c
        exact ⟨[], s, .nil, rfl, hs⟩
      · rename_i hquote
        split at hr
        · obtain rfl := Option.some.inj hr
          subst c
          cases s with
          | nil => exact nomatch hs
          | cons e s =>
            obtain ⟨r, hr, hs⟩ := next_of_accepts hs
            rw [next] at hr
            split at hr
            · obtain rfl := Option.some.inj hr
              subst e
              obtain ⟨a, s, rfl, ha, hs⟩ := digit_of_accepts hs
              obtain ⟨b, s, rfl, hb, hs⟩ := digit_of_accepts hs
              obtain ⟨c, s, rfl, hc, hs⟩ := digit_of_accepts hs
              obtain ⟨d, s, rfl, hd, hs⟩ := digit_of_accepts hs
              obtain ⟨w, t, hw, rfl, ht⟩ := ih s.length (by simp at hn; omega) hs rfl
              exact ⟨_, t, .code ha hb hc hd hw, rfl, ht⟩
            · split at hr
              · obtain rfl := Option.some.inj hr
                obtain ⟨w, t, hw, rfl, ht⟩ := ih s.length (by simp at hn; omega) hs rfl
                exact ⟨_, t, .escaped ‹_› hw, rfl, ht⟩
              · exact nomatch hr
        · rename_i hslash
          split at hr
          · exact nomatch hr
          · rename_i hcontrol
            obtain rfl := Option.some.inj hr
            obtain ⟨w, t, hw, rfl, ht⟩ := ih s.length (by rw [← hn]; exact Nat.lt_succ_self _) hs rfl
            exact ⟨c :: w, t, .plain hquote hslash hcontrol hw, rfl, ht⟩

theorem accepts_string (h : Content w) (t : List Char) :
    Accepts ⟨.inside key, frames⟩ (w ++ '"' :: t) ↔ Accepts ⟨closed key, frames⟩ t := by
  rw [Accepts, Accepts, walk_string h]

end Strings

end Speedtest.Json
