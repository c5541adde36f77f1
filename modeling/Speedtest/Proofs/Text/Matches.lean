import Speedtest.Proofs.Text.Replacing

/-!
# The matches that replacing meets

Replacing goes from match to match, and each of them stands in the text with something in front of it and something
behind. A text stays as it is when every match that is met is the new text already; where the new text is never longer
than what it stands for, only then. A match that is met in a part of a text, between characters that do not join, is met
in the whole.
-/
namespace Speedtest.Text

/-- Replacing meets a match in a text, with what stands in front of it and behind it. -/
inductive Meets (p : Pattern) : Option Char → List Char → (front found back : List Char) → Prop where
  | here {before : Option Char} {found back : List Char} : found ≠ [] → p before (found ++ back) = some found.length →
      Meets p before (found ++ back) [] found back
  | kept {before : Option Char} {c : Char} {s front found back : List Char} : p before (c :: s) = none →
      Meets p (some c) s front found back → Meets p before (c :: s) (c :: front) found back
  | behind {before : Option Char} {taken rest front found back : List Char} : taken ≠ [] →
      p before (taken ++ rest) = some taken.length → Meets p taken.getLast? rest front found back →
      Meets p before (taken ++ rest) (taken ++ front) found back

variable {p : Pattern} {new : List Char} {before : Option Char} {s out front found back : List Char}

theorem Meets.eq (h : Meets p before s front found back) : s = front ++ found ++ back := by
  induction h with
  | here => rfl
  | kept _ _ ih => rw [ih]; rfl
  | behind _ _ _ ih => rw [ih]; simp

theorem Meets.match (h : Meets p before s front found back) :
    found ≠ [] ∧ p (front.getLast?.or before) (found ++ back) = some found.length := by
  induction h with
  | here hne hp => exact ⟨hne, hp⟩
  | kept _ _ ih => rwa [getLast?_cons_or]
  | @behind before taken rest front found back hne _ _ ih =>
    have hlast : (taken ++ front).getLast?.or before = front.getLast?.or taken.getLast? := by
      obtain ⟨c, hc⟩ := Option.isSome_iff_exists.1 (List.getLast?_isSome.2 hne)
      rw [List.getLast?_append, hc]
      cases front.getLast? <;> rfl
    rwa [hlast]

/-! ## One step of replacing -/

theorem Meets.ne_nil (h : Meets p before s front found back) : s ≠ [] := by
  cases h with
  | here hne _ => exact fun hs => hne (List.append_eq_nil_iff.1 hs).1
  | kept => exact List.cons_ne_nil _ _
  | behind hne _ _ => exact fun hs => hne (List.append_eq_nil_iff.1 hs).1

/-- A match that is met in a text stands behind its first character where nothing matches. -/
theorem Meets.of_none_cons {c : Char} (hp : p before (c :: s) = none) (h : Meets p before (c :: s) front found back) :
    ∃ front', front = c :: front' ∧ Meets p (some c) s front' found back := by
  generalize hs : c :: s = whole at h
  cases h with
  | here _ hp' =>
    rw [← hs, hp] at hp'
    exact nomatch hp'
  | kept _ hrest =>
    obtain ⟨rfl, rfl⟩ := List.cons.inj hs
    exact ⟨_, rfl, hrest⟩
  | behind _ hp' _ =>
    rw [← hs, hp] at hp'
    exact nomatch hp'

/-- A match that is met in a text is the one at its front, or stands behind that. -/
theorem Meets.of_match {taken rest : List Char} (hp : p before (taken ++ rest) = some taken.length)
    (h : Meets p before (taken ++ rest) front found back) :
    front = [] ∧ found = taken ∧ back = rest ∨
    ∃ front', front = taken ++ front' ∧ Meets p taken.getLast? rest front' found back := by
  generalize hs : taken ++ rest = whole at h
  cases h with
  | here _ hp' =>
    rw [← hs, hp] at hp'
    obtain ⟨rfl, rfl⟩ := List.append_inj hs (Option.some.inj hp')
    exact .inl ⟨rfl, rfl, rfl⟩
  | kept hnone _ =>
    rw [← hs, hp] at hnone
    exact nomatch hnone
  | behind _ hp' hrest =>
    rw [← hs, hp] at hp'
    obtain ⟨rfl, rfl⟩ := List.append_inj hs (Option.some.inj hp')
    exact .inr ⟨_, rfl, hrest⟩

/-- Where nothing matches, the first character is kept. -/
theorem Replaced.of_none_cons {c : Char} (hp : p before (c :: s) = none) (h : Replaced p new before (c :: s) out) :
    ∃ out', out = c :: out' ∧ Replaced p new (some c) s out' := by
  generalize hs : c :: s = whole at h
  cases h with
  | nil => exact nomatch hs
  | keep _ hrest =>
    obtain ⟨rfl, rfl⟩ := List.cons.inj hs
    exact ⟨_, rfl, hrest⟩
  | swap _ hp' _ =>
    rw [← hs, hp] at hp'
    exact nomatch hp'

/-- Where something matches, the new text takes its place. -/
theorem Replaced.of_match {rest : List Char} (hne : found ≠ []) (hp : p before (found ++ rest) = some found.length)
    (h : Replaced p new before (found ++ rest) out) :
    ∃ out', out = new ++ out' ∧ Replaced p new found.getLast? rest out' := by
  generalize hs : found ++ rest = whole at h
  cases h with
  | nil => exact absurd (List.append_eq_nil_iff.1 hs).1 hne
  | keep hnone _ =>
    rw [← hs, hp] at hnone
    exact nomatch hnone
  | swap _ hp' hrest =>
    rw [← hs, hp] at hp'
    obtain ⟨rfl, rfl⟩ := List.append_inj hs (Option.some.inj hp')
    exact ⟨_, rfl, hrest⟩

/-- What the outcome has at its front before the new text may start was there. -/
theorem Replaced.run_kept {run : List Char} (hnew : new ≠ []) (hrun : ∀ c ∈ run, new.head? ≠ some c)
    (h : Replaced p new before s (run ++ out)) :
    ∃ s', s = run ++ s' ∧ Replaced p new (run.getLast?.or before) s' out := by
  induction run generalizing before s with
  | nil => exact ⟨s, rfl, h⟩
  | cons c run ih =>
    generalize hout : c :: run ++ out = whole at h
    cases h with
    | nil => exact nomatch hout
    | keep _ hrest =>
      obtain ⟨rfl, rfl⟩ := List.cons.inj hout
      obtain ⟨s', rfl, h'⟩ := ih (fun d hd => hrun d (List.mem_cons_of_mem c hd)) hrest
      exact ⟨s', rfl, getLast?_cons_or c run before ▸ h'⟩
    | swap =>
      obtain ⟨d, new, rfl⟩ := List.exists_cons_of_ne_nil hnew
      exact absurd (congrArg some (List.cons.inj hout).1.symm) (hrun c List.mem_cons_self)

/-! ## Texts that stay -/

theorem Replaced.eq_self (h : Replaced p new before s out)
    (hsame : ∀ front found back, Meets p before s front found back → found = new) : out = s := by
  induction h with
  | nil => rfl
  | keep hp _ ih => rw [ih fun front found back hmeets => hsame _ found back (.kept hp hmeets)]
  | @swap before found rest out hne hp _ ih =>
    rw [ih fun front found back hmeets => hsame _ found back (.behind hne hp hmeets),
      hsame [] found rest (.here hne hp)]

section Shrinking

variable (hle : ∀ before found rest, p before (found ++ rest) = some found.length → new.length ≤ found.length)
include hle

theorem Replaced.length_le (h : Replaced p new before s out) : out.length ≤ s.length := by
  induction h with
  | nil => exact Nat.le_refl 0
  | keep _ _ ih => exact Nat.succ_le_succ ih
  | swap _ hp _ ih =>
    rw [List.length_append, List.length_append]
    exact Nat.add_le_add (hle _ _ _ hp) ih

/-- Where the new text is never longer than what it stands for, a match in a text that stays is the new text, and what
is behind it stays as well. -/
theorem Replaced.match_of_stays {rest : List Char} (hne : found ≠ [])
    (hp : p before (found ++ rest) = some found.length) (h : Replaced p new before (found ++ rest) (found ++ rest)) :
    found = new ∧ Replaced p new found.getLast? rest rest := by
  obtain ⟨out, hout, hrest⟩ := h.of_match hne hp
  have hlength := congrArg List.length hout
  rw [List.length_append, List.length_append] at hlength
  have hshort := hrest.length_le hle
  have hnew := hle _ _ _ hp
  obtain ⟨rfl, rfl⟩ := List.append_inj hout (by omega)
  exact ⟨rfl, hrest⟩

theorem Meets.eq_new (h : Meets p before s front found back) (hstays : Replaced p new before s s) : found = new := by
  induction h with
  | here hne hp => exact (hstays.match_of_stays hle hne hp).1
  | kept hp _ ih =>
    obtain ⟨out, hout, hrest⟩ := hstays.of_none_cons hp
    rw [← (List.cons.inj hout).2] at hrest
    exact ih hrest
  | behind hne hp _ ih => exact ih (hstays.match_of_stays hle hne hp).2

/-- Replacing leaves a text as it is exactly when it meets nothing but the new text. -/
theorem replaceAll_eq_self_iff (hfits : Fits p) :
    replaceAll p new s = s ↔ ∀ front found back, Meets p none s front found back → found = new := by
  have hreplaced : Replaced p new none s (replaceAll p new s) := replaced_replaceAll hfits s
  refine ⟨fun hstays front found back h => ?_, hreplaced.eq_self⟩
  rw [hstays] at hreplaced
  exact h.eq_new hle hreplaced

end Shrinking

/-! ## Counting -/

section Counting

variable {c : Char}

theorem Replaced.count_le (hle : ∀ before found rest, p before (found ++ rest) = some found.length →
    new.count c ≤ found.count c) (h : Replaced p new before s out) : out.count c ≤ s.count c := by
  induction h with
  | nil => exact Nat.le_refl 0
  | keep _ _ ih =>
    rw [List.count_cons, List.count_cons]
    exact Nat.add_le_add_right ih _
  | swap _ hp _ ih =>
    rw [List.count_append, List.count_append]
    exact Nat.add_le_add (hle _ _ _ hp) ih

/-- A match that has a character more often than the new text takes some of them out of a text. -/
theorem Meets.count_lt (hlt : ∀ before found rest, p before (found ++ rest) = some found.length →
    new.count c < found.count c) (hmeets : Meets p before s front found back) (h : Replaced p new before s out) :
    out.count c < s.count c := by
  have hle (before : Option Char) (found rest : List Char) (hp : p before (found ++ rest) = some found.length) :
      new.count c ≤ found.count c := Nat.le_of_lt (hlt before found rest hp)
  induction hmeets generalizing out with
  | here hne hp =>
    obtain ⟨out', rfl, hrest⟩ := h.of_match hne hp
    rw [List.count_append, List.count_append]
    exact Nat.add_lt_add_of_lt_of_le (hlt _ _ _ hp) (hrest.count_le hle)
  | kept hp _ ih =>
    obtain ⟨out', rfl, hrest⟩ := h.of_none_cons hp
    rw [List.count_cons, List.count_cons]
    exact Nat.add_lt_add_right (ih hrest) _
  | behind hne hp _ ih =>
    obtain ⟨out', rfl, hrest⟩ := h.of_match hne hp
    rw [List.count_append, List.count_append]
    exact Nat.add_lt_add_of_le_of_lt (hle _ _ _ hp) (ih hrest)

end Counting

/-! ## Matches in parts of a text -/

section Local

variable {joins : Char → Bool} (hlocal : Local p joins)

theorem stops_of_append {x y : List Char} (h : Stops joins (x ++ y)) : Stops joins x := by
  cases x with
  | nil => exact stops_nil joins
  | cons c x => exact stops_cons (h c rfl) x

theorem stops_reverse_of_append {x y : List Char} (h : Stops joins (x ++ y).reverse) : Stops joins y.reverse := by
  rw [List.reverse_append] at h
  exact stops_of_append h

include hlocal

theorem Local.ahead_of_stops (hs : Stops joins s) (before : Option Char) (x : List Char) :
    p before (x ++ s) = p before x := by
  cases s with
  | nil => rw [List.append_nil]
  | cons c s => exact hlocal.ahead before x c s (hs c rfl)

theorem Local.eq_none_of_stops (hs : Stops joins s) (before : Option Char) : p before s = none := by
  refine Option.eq_none_iff_forall_ne_some.2 fun n hn => ?_
  have hnil : p before [] = some n := (hlocal.ahead_of_stops hs before []).symm.trans hn
  obtain ⟨hpos, hle⟩ := hlocal.fits before [] n hnil
  exact absurd (Nat.lt_of_lt_of_le hpos hle) (Nat.lt_irrefl 0)

/-- Whether something matches in a text that ends in a character that does not join, does not depend on what follows. -/
theorem Local.of_stops_reverse (hs : Stops joins s.reverse) (hne : s ≠ []) (before : Option Char) (t : List Char) :
    p before (s ++ t) = p before s := by
  rcases List.eq_nil_or_concat s with rfl | ⟨s, c, rfl⟩
  · exact absurd rfl hne
  · have hc : joins c = false := hs c (by simp)
    rw [List.concat_eq_append, List.append_assoc, List.singleton_append, hlocal.ahead before s c t hc,
      hlocal.ahead before s c [] hc]

/-- What is met in a text that ends in a character that does not join is met when the text goes on. -/
theorem Meets.append (hs : Stops joins s.reverse) (h : Meets p before s front found back) (t : List Char) :
    Meets p before (s ++ t) front found (back ++ t) := by
  induction h with
  | @here before found back hne hp =>
    have hwhole : found ++ back ≠ [] := fun hnil => hne (List.append_eq_nil_iff.1 hnil).1
    rw [List.append_assoc]
    refine .here hne ?_
    rw [← List.append_assoc, hlocal.of_stops_reverse hs hwhole, hp]
  | @kept before c s _ _ _ hp _ ih =>
    refine .kept ((hlocal.of_stops_reverse hs (List.cons_ne_nil c s) before t).trans hp) (ih ?_)
    exact stops_reverse_of_append (x := [c]) hs
  | @behind before taken rest _ _ _ hne hp _ ih =>
    have hwhole : taken ++ rest ≠ [] := fun hnil => hne (List.append_eq_nil_iff.1 hnil).1
    rw [List.append_assoc]
    refine .behind hne ?_ (ih (stops_reverse_of_append hs))
    rw [← List.append_assoc, hlocal.of_stops_reverse hs hwhole, hp]

/-- What is met in a text that starts with a character that does not join is met behind any other text. -/
theorem Meets.prepend (hs : Stops joins s) (h : Meets p none s front found back) (before : Option Char)
    (x : List Char) :
    Meets p before (x ++ s) (x ++ front) found back := by
  -- Replacing what stands in front comes to the character, whatever it puts in on its way.
  obtain ⟨out, hreplaced⟩ : ∃ out, Replaced p [] before x out := ⟨_, replaced_replaceFrom hlocal.fits before x⟩
  induction hreplaced with
  | nil before =>
    obtain ⟨c, s, rfl⟩ := List.exists_cons_of_ne_nil h.ne_nil
    obtain ⟨front', rfl, hrest⟩ := h.of_none_cons (hlocal.eq_none_of_stops hs none)
    exact .kept (hlocal.eq_none_of_stops hs before) hrest
  | @keep before c x _ hp _ ih => exact .kept ((hlocal.ahead_of_stops hs before (c :: x)).trans hp) ih
  | swap hne hp _ ih =>
    rw [List.append_assoc, List.append_assoc]
    refine .behind hne ?_ ih
    rw [← List.append_assoc, hlocal.ahead_of_stops hs, hp]

end Local
end Speedtest.Text
