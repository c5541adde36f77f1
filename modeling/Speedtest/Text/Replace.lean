/-!
# Replacing what matches

A pattern looks at a place in a text: at the character before it, which may be missing, and at the
characters from it on. It tells how many of them it matches. Matches are taken from left to right and
do not overlap.
-/
namespace Speedtest.Text

/-- The number of characters that match at a place; a match has at least one. -/
abbrev Pattern := (before : Option Char) → (after : List Char) → Option Nat

/-- One to `most` characters of a kind at the front: their number, and the text behind them. -/
def run? (most : Nat) (kind : Char → Bool) (s : List Char) : Option (Nat × List Char) :=
  match ((s.take most).takeWhile kind).length with
  | 0 => none
  | n + 1 => some (n + 1, s.drop (n + 1))

/-- Replaces the matches in a text whose earlier part is finished and kept in reverse. -/
def replaceFrom (p : Pattern) (new done : List Char) (before : Option Char) (s : List Char) :
    List Char :=
  match s with
  | [] => done.reverse
  | c :: t =>
    match p before (c :: t) with
    | some n => replaceFrom p new (new.reverse ++ done) ((c :: t)[n - 1]?) (t.drop (n - 1))
    | none => replaceFrom p new (c :: done) (some c) t
termination_by s.length
decreasing_by all_goals simp; try omega

/-- A text with every match replaced by `new`. -/
def replaceAll (p : Pattern) (new s : List Char) : List Char := replaceFrom p new [] none s

/-- What is done already only stands in front of the outcome. -/
theorem replaceFrom_done (p : Pattern) (new done : List Char) (before : Option Char)
    (s : List Char) :
    replaceFrom p new done before s = done.reverse ++ replaceFrom p new [] before s := by
  induction hn : s.length using Nat.strongRecOn generalizing done before s with
  | ind n ih =>
    cases s with
    | nil => simp [replaceFrom]
    | cons c t =>
      rw [replaceFrom, replaceFrom]
      cases hp : p before (c :: t) with
      | none =>
        simp only
        rw [ih t.length (by simp at hn; omega) (c :: done) (some c) t rfl,
          ih t.length (by simp at hn; omega) [c] (some c) t rfl]
        simp
      | some k =>
        have hlt : (t.drop (k - 1)).length < n := by simp at hn ⊢; omega
        simp only
        rw [ih _ hlt (new.reverse ++ done) _ _ rfl, ih _ hlt (new.reverse ++ []) _ _ rfl]
        simp

/-- Where nothing matches, the first character stays. -/
theorem replaceFrom_cons_of_none {p : Pattern} {new : List Char} {before : Option Char} {c : Char}
    {t : List Char} (h : p before (c :: t) = none) :
    replaceFrom p new [] before (c :: t) = c :: replaceFrom p new [] (some c) t := by
  rw [replaceFrom, h]
  simp only
  rw [replaceFrom_done]
  rfl

/-- Where something matches, the new text takes its place. -/
theorem replaceFrom_cons_of_some {p : Pattern} {new : List Char} {before : Option Char} {c : Char}
    {t : List Char} {n : Nat} (h : p before (c :: t) = some n) :
    replaceFrom p new [] before (c :: t) =
      new ++ replaceFrom p new [] ((c :: t)[n - 1]?) (t.drop (n - 1)) := by
  rw [replaceFrom, h]
  simp only
  rw [replaceFrom_done]
  simp

end Speedtest.Text
