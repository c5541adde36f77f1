import Speedtest.Proofs.Text.Scan
import Speedtest.Text.Replace

/-!
# What replacing does to a text

Replacing goes through a text once: a character is kept where nothing matches, and what matches gives way to the new
text. `Replaced` says this as a relation, over which the statements go by induction. A pattern that looks neither across
nor into certain characters is local: the text between two of them is replaced as if it stood alone. For every pattern,
what stands in the outcome between characters that the new text does not have either stood there before or holds the new
text.
-/
namespace Speedtest.Text

/-! ## Runs at the front -/

section Run

variable {most n : Nat} {kind : Char → Bool} {s rest : List Char}

/-- A run that is found is not empty, and all of one kind. -/
theorem run?_eq_some (h : run? most kind s = some (n, rest)) :
    ∃ run, s = run ++ rest ∧ run.length = n ∧ run ≠ [] ∧ ∀ c ∈ run, kind c = true := by
  have hfront : (s.take most).takeWhile kind <+: s := (List.takeWhile_prefix _).trans (List.take_prefix _ _)
  have hcut := List.prefix_iff_eq_append.1 hfront
  rw [run?] at h
  split at h
  · exact nomatch h
  · rename_i k hlength
    change _ = k + 1 at hlength
    obtain ⟨rfl, rfl⟩ := Prod.mk.inj (Option.some.inj h)
    refine ⟨_, ?_, hlength, ?_, List.all_eq_true.1 List.all_takeWhile⟩
    · rw [← hlength, hcut]
    · intro hnil
      rw [hnil] at hlength
      exact nomatch hlength

theorem run?_of_stops (h : Stops kind s) : run? most kind s = none := by
  have hnil : (s.take most).takeWhile kind = [] := by
    cases s with
    | nil => rw [List.take_nil, List.takeWhile_nil]
    | cons c s =>
      cases most with
      | zero => rfl
      | succ most => rw [List.take_succ_cons, List.takeWhile_cons, h c rfl]; rfl
  rw [run?, hnil]
  rfl

/-- A run that is not too long is taken as a whole. -/
theorem run?_run {run : List Char} (hne : run ≠ []) (hrun : ∀ c ∈ run, kind c = true) (hmost : run.length ≤ most)
    (hstop : Stops kind rest) : run? most kind (run ++ rest) = some (run.length, rest) := by
  have htake : ((run ++ rest).take most).takeWhile kind = run := by
    rw [List.take_append, List.take_of_length_le hmost]
    refine takeWhile_run hrun fun c hc => hstop c ?_
    cases rest with
    | nil => rw [List.take_nil] at hc; exact hc
    | cons d rest =>
      cases hleft : most - run.length with
      | zero => rw [hleft] at hc; exact nomatch hc
      | succ left => rw [hleft] at hc; exact hc
  rw [run?, htake]
  cases run with
  | nil => exact absurd rfl hne
  | cons c run => simp

/-- What stands behind a character of another kind does not count. -/
theorem run?_append_cons {c : Char} (hc : kind c = false) (s t : List Char) :
    run? most kind (s ++ c :: t) = (run? most kind s).map fun (n, rest) => (n, rest ++ c :: t) := by
  have hstop (k : Nat) : ((c :: t).take k).takeWhile kind = [] := by
    cases k with
    | zero => rfl
    | succ k => rw [List.take_succ_cons, List.takeWhile_cons, hc]; rfl
  have hsame : ((s ++ c :: t).take most).takeWhile kind = (s.take most).takeWhile kind := by
    rw [List.take_append, List.takeWhile_append, hstop, List.append_nil]
    split
    · rename_i hall
      exact ((List.takeWhile_prefix _).eq_of_length hall).symm
    · rfl
  rw [run?, run?, hsame]
  split
  · rfl
  · rename_i k hlength
    change _ = k + 1 at hlength
    have hle : k + 1 ≤ s.length := by
      rw [← hlength]
      exact ((List.takeWhile_prefix _).trans (List.take_prefix _ _)).length_le
    rw [List.drop_append_of_le_length hle]
    rfl

end Run

/-! ## Replacing as a relation -/

/-- A match has at least one character, and no more than there are. -/
def Fits (p : Pattern) : Prop := ∀ before s n, p before s = some n → 0 < n ∧ n ≤ s.length

/-- What a text comes to when the matches in it are replaced. The character in front of it may be missing. -/
inductive Replaced (p : Pattern) (new : List Char) : Option Char → List Char → List Char → Prop where
  | nil (before : Option Char) : Replaced p new before [] []
  | keep {before : Option Char} {c : Char} {s out : List Char} : p before (c :: s) = none →
      Replaced p new (some c) s out → Replaced p new before (c :: s) (c :: out)
  | swap {before : Option Char} {found rest out : List Char} : found ≠ [] →
      p before (found ++ rest) = some found.length → Replaced p new found.getLast? rest out →
      Replaced p new before (found ++ rest) (new ++ out)

variable {p : Pattern} {new : List Char}

/-- The replacer goes through the text as the relation says. -/
theorem replaced_replaceFrom (h : Fits p) (before : Option Char) (s : List Char) :
    Replaced p new before s (replaceFrom p new [] before s) := by
  induction hn : s.length using Nat.strongRecOn generalizing before s with
  | ind n ih =>
    cases s with
    | nil =>
      rw [replaceFrom]
      exact .nil before
    | cons c t =>
      cases hp : p before (c :: t) with
      | none =>
        rw [replaceFrom_cons_of_none hp]
        exact .keep hp (ih t.length (by simp at hn; omega) (some c) t rfl)
      | some k =>
        obtain ⟨hpos, hle⟩ := h before (c :: t) k hp
        have hlength : ((c :: t).take k).length = k := List.length_take_of_le hle
        have hcut : (c :: t).take k ++ t.drop (k - 1) = c :: t := by
          obtain ⟨j, rfl⟩ : ∃ j, k = j + 1 := ⟨k - 1, by omega⟩
          rw [List.take_succ_cons, Nat.add_sub_cancel, List.cons_append, List.take_append_drop]
        have hlast : ((c :: t).take k).getLast? = (c :: t)[k - 1]? := by
          rw [List.getLast?_eq_getElem?, hlength, List.getElem?_take_of_lt (by omega)]
        have hrest := ih (t.drop (k - 1)).length (by simp at hn ⊢; omega) ((c :: t)[k - 1]?) _ rfl
        rw [← hlast] at hrest
        rw [replaceFrom_cons_of_some hp, ← hlast]
        have hne : (c :: t).take k ≠ [] := List.ne_nil_of_length_pos (by omega)
        have hswap := Replaced.swap hne (by rw [hcut, hp, hlength]) hrest
        rwa [hcut] at hswap

/-- The relation allows one outcome only. -/
theorem Replaced.eq {before : Option Char} {s out : List Char} (h : Replaced p new before s out) :
    replaceFrom p new [] before s = out := by
  induction h with
  | nil => rw [replaceFrom]; rfl
  | keep hp _ ih => rw [replaceFrom_cons_of_none hp, ih]
  | @swap before found rest out hne hp _ ih =>
    cases found with
    | nil => exact absurd rfl hne
    | cons c found =>
      have hlast : (c :: (found ++ rest))[(c :: found).length - 1]? = (c :: found).getLast? := by
        rw [← List.cons_append, List.getLast?_eq_getElem?, List.getElem?_append_left (by simp)]
      have hdrop : (found ++ rest).drop ((c :: found).length - 1) = rest := List.drop_left
      rw [List.cons_append] at hp
      rw [List.cons_append, replaceFrom_cons_of_some hp, hlast, hdrop, ih]

theorem replaced_replaceAll (h : Fits p) (s : List Char) : Replaced p new none s (replaceAll p new s) :=
  replaced_replaceFrom h none s

/-- A text in which nothing matches stays as it is. -/
theorem replaceAll_eq_self {s : List Char} (h : ∀ before rest, rest <:+ s → p before rest = none) :
    replaceAll p new s = s := by
  have hkept (before : Option Char) (t : List Char) (ht : t <:+ s) : Replaced p new before t t := by
    induction t generalizing before with
    | nil => exact .nil before
    | cons c t ih => exact .keep (h before _ ht) (ih (some c) ((List.suffix_cons c t).trans ht))
  exact (hkept none s List.suffix_rfl).eq

/-- A text that matches as a whole gives way as a whole. -/
theorem replaceAll_eq_new {s : List Char} (hne : s ≠ []) (h : p none s = some s.length) : replaceAll p new s = new := by
  have hswap : Replaced p new none (s ++ []) (new ++ []) :=
    .swap hne (by rw [List.append_nil]; exact h) (.nil s.getLast?)
  rw [List.append_nil, List.append_nil] at hswap
  exact hswap.eq

/-! ## Local patterns -/

/-- A pattern for which the characters that do not join part a text: what stands behind one counts neither for a match
in front of it, nor does it itself for a match behind it. -/
structure Local (p : Pattern) (joins : Char → Bool) : Prop where
  fits : Fits p
  ahead : ∀ before s c t, joins c = false → p before (s ++ c :: t) = p before s
  behind : ∀ c s, joins c = false → p (some c) s = p none s

section Local

variable {joins : Char → Bool} {c : Char}

theorem Local.mono {joins' : Char → Bool} (h : Local p joins) (hle : ∀ c, joins c = true → joins' c = true) :
    Local p joins' where
  fits := h.fits
  ahead := fun before s c t hc => h.ahead before s c t (Bool.eq_false_iff.2 (mt (hle c) (Bool.eq_false_iff.1 hc)))
  behind := fun c s hc => h.behind c s (Bool.eq_false_iff.2 (mt (hle c) (Bool.eq_false_iff.1 hc)))

theorem Replaced.of_none {s out : List Char} (hlocal : Local p joins) (hc : joins c = false)
    (h : Replaced p new none s out) : Replaced p new (some c) s out := by
  cases h with
  | nil => exact .nil _
  | keep hp hrest => exact .keep ((hlocal.behind c _ hc).trans hp) hrest
  | swap hne hp hrest => exact .swap hne ((hlocal.behind c _ hc).trans hp) hrest

/-- A character that joins nothing parts a text into two that are replaced alone. -/
theorem Replaced.append {before : Option Char} {s out t out' : List Char} (hlocal : Local p joins)
    (hc : joins c = false) (h : Replaced p new before s out) (h' : Replaced p new none t out') :
    Replaced p new before (s ++ c :: t) (out ++ c :: out') := by
  induction h with
  | nil before =>
    -- Nothing matches at the end of a text, so nothing matches at the character either.
    have hnone : p before [] = none := Option.eq_none_iff_forall_ne_some.2 fun n hn => by
      obtain ⟨hpos, hle⟩ := hlocal.fits before [] n hn
      exact absurd (Nat.lt_of_lt_of_le hpos hle) (Nat.lt_irrefl 0)
    exact .keep ((hlocal.ahead before [] c t hc).trans hnone) (h'.of_none hlocal hc)
  | keep hp _ ih => exact .keep ((hlocal.ahead _ _ c t hc).trans hp) ih
  | swap hne hp _ ih =>
    rw [List.append_assoc, List.append_assoc]
    refine .swap hne ?_ ih
    rw [← List.append_assoc, hlocal.ahead _ _ c t hc, hp]

theorem replaceAll_append_cons (h : Local p joins) (hc : joins c = false) (s t : List Char) :
    replaceAll p new (s ++ c :: t) = replaceAll p new s ++ c :: replaceAll p new t :=
  ((replaced_replaceAll h.fits s).append h hc (replaced_replaceAll h.fits t)).eq

theorem replaceAll_nil (p : Pattern) (new : List Char) : replaceAll p new [] = [] := by
  rw [replaceAll, replaceFrom]
  rfl

theorem replaceAll_cons (h : Local p joins) (hc : joins c = false) (t : List Char) :
    replaceAll p new (c :: t) = c :: replaceAll p new t := by
  have halone : replaceAll p new ([] ++ c :: t) = _ := replaceAll_append_cons h hc [] t
  rwa [replaceAll_nil] at halone

theorem replaceAll_append_right (h : Local p joins) {t : List Char} (ht : Stops joins t) (s : List Char) :
    replaceAll p new (s ++ t) = replaceAll p new s ++ replaceAll p new t := by
  cases t with
  | nil => rw [replaceAll_nil, List.append_nil, List.append_nil]
  | cons c t =>
    rw [replaceAll_append_cons h (ht c rfl), replaceAll_cons h (ht c rfl)]

theorem replaceAll_append_left (h : Local p joins) {s : List Char} (hs : Stops joins s.reverse) (t : List Char) :
    replaceAll p new (s ++ t) = replaceAll p new s ++ replaceAll p new t := by
  rcases List.eq_nil_or_concat s with rfl | ⟨s, c, rfl⟩
  · rw [replaceAll_nil, List.nil_append, List.nil_append]
  · have hc : joins c = false := hs c (by simp)
    rw [List.concat_eq_append, List.append_assoc, List.singleton_append, replaceAll_append_cons h hc,
      replaceAll_append_cons h hc, replaceAll_nil, List.append_assoc, List.singleton_append]

/-- What stands between characters that do not join is replaced as if it stood alone. -/
theorem replaceAll_between (h : Local p joins) {s t : List Char} (hs : Stops joins s.reverse) (ht : Stops joins t)
    (core : List Char) :
    replaceAll p new (s ++ core ++ t) = replaceAll p new s ++ replaceAll p new core ++ replaceAll p new t := by
  rw [replaceAll_append_right h ht, replaceAll_append_left h hs]

theorem stops_replaceAll (h : Local p joins) {s : List Char} (hs : Stops joins s) : Stops joins (replaceAll p new s) := by
  cases s with
  | nil => rwa [replaceAll_nil]
  | cons c s =>
    rw [replaceAll_cons h (hs c rfl)]
    exact stops_cons (hs c rfl) _

theorem stops_reverse_replaceAll (h : Local p joins) {s : List Char} (hs : Stops joins s.reverse) :
    Stops joins (replaceAll p new s).reverse := by
  rcases List.eq_nil_or_concat s with rfl | ⟨s, c, rfl⟩
  · rwa [replaceAll_nil]
  · have hc : joins c = false := hs c (by simp)
    rw [List.concat_eq_append, replaceAll_append_cons h hc, replaceAll_nil, List.reverse_append]
    exact stops_cons hc _

end Local

/-! ## What stands in the outcome -/

section Outcome

variable {kind : Char → Bool} {before : Option Char} {s out : List Char}

theorem getLast?_cons_or (c : Char) (l : List Char) (o : Option Char) :
    (c :: l).getLast?.or o = l.getLast?.or (some c) := by
  rw [List.getLast?_cons]
  cases l.getLast? <;> rfl

/-- A run of a kind of which the new text is made, at the front of the outcome: it stood there before and nothing
matched where it starts, or it holds the new text, which is there for a match. -/
theorem Replaced.front_cases (hnew : new ≠ []) (hkind : ∀ c ∈ new, kind c = true) {core y : List Char}
    (hcore : ∀ c ∈ core, kind c = true) (hy : Stops kind y) (h : Replaced p new before s out) (hout : out = core ++ y) :
    (∃ y', s = core ++ y' ∧ y'.head? = y.head? ∧ (core ≠ [] → p before s = none)) ∨
    ∃ l r after, core = l ++ new ++ r ∧ (p (l.getLast?.or before) after).isSome = true := by
  induction core generalizing before s out with
  | nil =>
    obtain rfl : out = y := hout
    refine .inl ⟨s, rfl, ?_, fun hne => absurd rfl hne⟩
    cases h with
    | nil => rfl
    | keep => rfl
    | swap =>
      obtain ⟨d, new, rfl⟩ := List.exists_cons_of_ne_nil hnew
      exact absurd (hkind d List.mem_cons_self) (by rw [hy d rfl]; exact Bool.false_ne_true)
  | cons c core ih =>
    cases h with
    | nil => exact nomatch hout
    | keep hp hrest =>
      obtain ⟨rfl, htail⟩ := List.cons.inj hout
      rcases ih (fun d hd => hcore d (List.mem_cons_of_mem _ hd)) hrest htail with
        ⟨y', rfl, hhead, -⟩ | ⟨l, r, after, rfl, hmatch⟩
      · exact .inl ⟨y', rfl, hhead, fun _ => hp⟩
      · exact .inr ⟨_ :: l, r, after, rfl, by rwa [getLast?_cons_or]⟩
    | @swap _ found rest out hne hp hrest =>
      -- The new text is all of the kind, so the run does not end inside it.
      have hlead : new <+: c :: core := by
        have hrun := takeWhile_run hcore hy
        rw [← hout, List.takeWhile_append_of_pos hkind] at hrun
        exact ⟨_, hrun⟩
      obtain ⟨r, hr⟩ := hlead
      refine .inr ⟨[], r, found ++ rest, by rw [List.nil_append, hr], ?_⟩
      rw [List.getLast?_nil, Option.none_or, hp]
      rfl

/-- Where nothing matches from any of its characters on, a text is kept. -/
theorem Replaced.keeps {core y : List Char}
    (hnone : ∀ l r, core = l ++ r → r ≠ [] → p (l.getLast?.or before) (r ++ y) = none)
    (h : Replaced p new before s out) (hs : s = core ++ y) :
    ∃ out', out = core ++ out' ∧ Replaced p new (core.getLast?.or before) y out' := by
  induction core generalizing before s out with
  | nil =>
    obtain rfl : s = y := hs
    exact ⟨out, rfl, h⟩
  | cons c core ih =>
    have hhere := hnone [] (c :: core) rfl (List.cons_ne_nil c core)
    cases h with
    | nil => exact nomatch hs
    | @keep _ d _ _ hp hrest =>
      obtain ⟨rfl, htail⟩ := List.cons.inj hs
      have hlater (l r : List Char) (hsplit : core = l ++ r) (hne : r ≠ []) :
          p (l.getLast?.or (some d)) (r ++ y) = none := by
        rw [← getLast?_cons_or d l before]
        exact hnone (d :: l) r (congrArg (d :: ·) hsplit) hne
      obtain ⟨out', rfl, hout'⟩ := ih hlater hrest htail
      exact ⟨out', rfl, getLast?_cons_or d core before ▸ hout'⟩
    | swap _ hp _ =>
      rw [hs] at hp
      exact nomatch hp.symm.trans hhere

/-- A character that no match has is kept, and what stands behind it is replaced from there on. -/
theorem Replaced.split {c : Char}
    (hmatch : ∀ before found rest, p before (found ++ rest) = some found.length → c ∉ found)
    (h : Replaced p new before s out) {x y : List Char} (hs : s = x ++ c :: y) :
    ∃ x' y', out = x' ++ c :: y' ∧ Replaced p new (some c) y y' := by
  induction h generalizing x with
  | nil => simp at hs
  | @keep before d s out hp hrest ih =>
    cases x with
    | nil =>
      obtain ⟨rfl, rfl⟩ := List.cons.inj hs
      exact ⟨[], out, rfl, hrest⟩
    | cons e x =>
      obtain ⟨x', y', rfl, hy'⟩ := ih (List.cons.inj hs).2
      exact ⟨d :: x', y', rfl, hy'⟩
  | @swap before found rest out hne hp hrest ih =>
    rcases List.append_eq_append_iff.1 hs with ⟨x2, rfl, hrest2⟩ | ⟨f2, rfl, hf2⟩
    · obtain ⟨x', y', rfl, hy'⟩ := ih hrest2
      exact ⟨new ++ x', y', by rw [List.append_assoc], hy'⟩
    · cases f2 with
      | nil =>
        have hrest2 : rest = [] ++ c :: y := hf2.symm
        obtain ⟨x', y', rfl, hy'⟩ := ih hrest2
        exact ⟨new ++ x', y', by rw [List.append_assoc], hy'⟩
      | cons d f2 =>
        obtain rfl := (List.cons.inj hf2).1
        exact absurd (List.mem_append_right x List.mem_cons_self) (hmatch _ _ _ hp)

/-- A character of the outcome that the new text does not have was kept, and what stands behind it comes from there. -/
theorem Replaced.split_out {c : Char} (hc : c ∉ new) (h : Replaced p new before s out) {x y : List Char}
    (hout : out = x ++ c :: y) : ∃ x' y', s = x' ++ c :: y' ∧ Replaced p new (some c) y' y := by
  induction h generalizing x with
  | nil => simp at hout
  | @keep before d s out hp hrest ih =>
    cases x with
    | nil =>
      obtain ⟨rfl, rfl⟩ := List.cons.inj hout
      exact ⟨[], s, rfl, hrest⟩
    | cons e x =>
      obtain ⟨x', y', rfl, hy'⟩ := ih (List.cons.inj hout).2
      exact ⟨d :: x', y', rfl, hy'⟩
  | @swap before found rest out hne hp hrest ih =>
    rcases List.append_eq_append_iff.1 hout with ⟨x2, rfl, hout2⟩ | ⟨n2, rfl, hn2⟩
    · obtain ⟨x', y', rfl, hy'⟩ := ih hout2
      exact ⟨found ++ x', y', by rw [List.append_assoc], hy'⟩
    · cases n2 with
      | nil =>
        have hout2 : out = [] ++ c :: y := hn2.symm
        obtain ⟨x', y', rfl, hy'⟩ := ih hout2
        exact ⟨found ++ x', y', by rw [List.append_assoc], hy'⟩
      | cons d n2 =>
        obtain rfl := (List.cons.inj hn2).1
        exact absurd (List.mem_append_right x List.mem_cons_self) hc

/-- What replacing leaves has no other characters than the text and the new text. -/
theorem Replaced.mem {c : Char} (h : Replaced p new before s out) (hc : c ∈ out) : c ∈ s ∨ c ∈ new := by
  induction h with
  | nil => exact .inl hc
  | keep _ _ ih =>
    rcases List.mem_cons.1 hc with rfl | hc
    · exact .inl List.mem_cons_self
    · exact (ih hc).imp_left (List.mem_cons_of_mem _)
  | swap _ _ _ ih =>
    rcases List.mem_append.1 hc with hc | hc
    · exact .inr hc
    · exact (ih hc).imp_left (List.mem_append_right _)

/-- A text stands in another one between two neighbours, either of which may be missing. -/
def Occurs (before after : Option Char) (core s : List Char) : Prop :=
  ∃ front back, s = front ++ core ++ back ∧ front.getLast? = before ∧ back.head? = after

/-- Neither of two neighbours goes on with a run of a kind between them. -/
def Outside (kind : Char → Bool) (before after : Option Char) : Prop :=
  (∀ c, before = some c → kind c = false) ∧ ∀ c, after = some c → kind c = false

theorem Outside.mono {kind' : Char → Bool} {after : Option Char} (h : Outside kind before after)
    (hle : ∀ c, kind' c = true → kind c = true) : Outside kind' before after :=
  ⟨fun c hc => Bool.eq_false_iff.2 (mt (hle c) (Bool.eq_false_iff.1 (h.1 c hc))),
    fun c hc => Bool.eq_false_iff.2 (mt (hle c) (Bool.eq_false_iff.1 (h.2 c hc)))⟩

/-- A run in the outcome of replacing stood there before and did not match, or holds the new text. -/
theorem Occurs.of_replaceAll {after : Option Char} {core : List Char} (hfits : Fits p) (hnew : new ≠ [])
    (hkind : ∀ c ∈ new, kind c = true) (hcore : ∀ c ∈ core, kind c = true) (hne : core ≠ [])
    (hout : Outside kind before after) (h : Occurs before after core (replaceAll p new s)) :
    (Occurs before after core s ∧ ∃ back, back.head? = after ∧ p before (core ++ back) = none) ∨
    ∃ l r rest, core = l ++ new ++ r ∧ (p (l.getLast?.or before) rest).isSome = true := by
  obtain ⟨x, y, hsplit, rfl, rfl⟩ := h
  have hreplaced : Replaced p new none s (replaceAll p new s) := replaced_replaceAll hfits s
  rw [hsplit] at hreplaced
  -- The character in front is none of the new text, so the run comes from what stood behind it.
  have hfront : ∃ x' s', s = x' ++ s' ∧ x'.getLast? = x.getLast? ∧ Replaced p new x.getLast? s' (core ++ y) := by
    rcases List.eq_nil_or_concat x with rfl | ⟨x1, c, rfl⟩
    · exact ⟨[], s, rfl, rfl, hreplaced⟩
    · rw [List.concat_eq_append] at hout hreplaced ⊢
      have hlast : (x1 ++ [c]).getLast? = some c := List.getLast?_concat
      have hc : c ∉ new := fun hmem => absurd (hkind c hmem) (by rw [hout.1 c hlast]; exact Bool.false_ne_true)
      have hcut : x1 ++ [c] ++ core ++ y = x1 ++ c :: (core ++ y) := by simp
      obtain ⟨x', s', rfl, hrest⟩ := hreplaced.split_out hc hcut
      exact ⟨x' ++ [c], s', by simp, by rw [hlast, List.getLast?_concat], hlast.symm ▸ hrest⟩
  obtain ⟨x', s', rfl, hlast, hrest⟩ := hfront
  rcases hrest.front_cases hnew hkind hcore hout.2 rfl with ⟨y', rfl, hhead, hnone⟩ | hswapped
  · exact .inl ⟨⟨x', y', (List.append_assoc x' core y').symm, hlast, hhead⟩, y', hhead, hnone hne⟩
  · exact .inr hswapped

theorem Replaced.head?_eq
    (hmatch : ∀ before found rest, p before (found ++ rest) = some found.length → ∀ c ∈ found, kind c = true)
    (hs : Stops kind s) (h : Replaced p new before s out) : out.head? = s.head? := by
  cases h with
  | nil => rfl
  | keep => rfl
  | swap hne hp =>
    obtain ⟨c, found, rfl⟩ := List.exists_cons_of_ne_nil hne
    exact absurd (hmatch _ _ _ hp c List.mem_cons_self) (by rw [hs c rfl]; exact Bool.false_ne_true)

/-- Where no match has anything but characters of a kind, what stands between others stays if nothing matches in it. -/
theorem Occurs.stays {after : Option Char} {core : List Char} (hfits : Fits p)
    (hmatch : ∀ before found rest, p before (found ++ rest) = some found.length → ∀ c ∈ found, kind c = true)
    (hout : Outside kind before after)
    (hnone : ∀ back, back.head? = after → ∀ l r, core = l ++ r → r ≠ [] → p (l.getLast?.or before) (r ++ back) = none)
    (h : Occurs before after core s) : Occurs before after core (replaceAll p new s) := by
  obtain ⟨x, y, rfl, rfl, rfl⟩ := h
  have hreplaced : Replaced p new none (x ++ core ++ y) (replaceAll p new (x ++ core ++ y)) := replaced_replaceAll hfits _
  generalize replaceAll p new (x ++ core ++ y) = whole at hreplaced
  -- The character in front is in no match, so replacing starts afresh behind it.
  have hfront : ∃ x' out, whole = x' ++ out ∧ x'.getLast? = x.getLast? ∧ Replaced p new x.getLast? (core ++ y) out := by
    rcases List.eq_nil_or_concat x with rfl | ⟨x1, c, rfl⟩
    · exact ⟨[], whole, rfl, rfl, hreplaced⟩
    · rw [List.concat_eq_append] at hout hreplaced ⊢
      have hlast : (x1 ++ [c]).getLast? = some c := List.getLast?_concat
      have hc : kind c = false := hout.1 c hlast
      have hskip (b : Option Char) (found rest : List Char) (hp : p b (found ++ rest) = some found.length) : c ∉ found :=
        fun hmem => absurd (hmatch b found rest hp c hmem) (by rw [hc]; exact Bool.false_ne_true)
      have hs : x1 ++ [c] ++ core ++ y = x1 ++ c :: (core ++ y) := by simp
      obtain ⟨x', out, rfl, hrest⟩ := hreplaced.split hskip hs
      exact ⟨x' ++ [c], out, by simp, by rw [hlast, List.getLast?_concat], hlast.symm ▸ hrest⟩
  obtain ⟨x', out, rfl, hlast, hrest⟩ := hfront
  obtain ⟨out', rfl, hback⟩ := hrest.keeps (hnone y rfl) rfl
  exact ⟨x', out', (List.append_assoc x' core out').symm, hlast, hback.head?_eq hmatch hout.2⟩

end Outcome

end Speedtest.Text
