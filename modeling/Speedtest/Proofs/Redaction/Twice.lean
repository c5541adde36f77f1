import Speedtest.Proofs.Redaction.Hostnames

/-!
# Scrubbing twice

Of the three passes only the one for IPv6 makes something that a pass may find again: its placeholder may come to
stand behind digits or a dot. What is scrubbed stays as it is exactly when the two patterns for addresses find nothing
in it but the placeholder, which is so where each IPv6 address stands apart.
-/
namespace Speedtest.Text

theorem run?_le {most n : Nat} {kind : Char → Bool} {s rest : List Char} (h : run? most kind s = some (n, rest)) :
    n ≤ most := by
  rw [run?] at h
  split at h
  · cases h
  · rename_i k hlength
    change _ = k + 1 at hlength
    obtain ⟨rfl, -⟩ := Prod.mk.inj (Option.some.inj h)
    have htake := List.length_take_le most s
    have hfront := (List.takeWhile_prefix kind (l := s.take most)).length_le
    omega

end Speedtest.Text

namespace Speedtest.Redaction

open Text (Meets Replaced Stops)

/-! ## Numbers between dots -/

/-- Numbers of up to three digits with so many dots between them, in front of the edge of a word. -/
inductive Numbers : (dots : Nat) → (found rest : List Char) → Prop where
  | last {run rest : List Char} : run ≠ [] → (∀ c ∈ run, Text.isDigit c = true) → run.length ≤ 3 →
      Stops Text.isWord rest → Numbers 0 run rest
  | dotted {dots : Nat} {run found rest : List Char} : run ≠ [] → (∀ c ∈ run, Text.isDigit c = true) → run.length ≤ 3 →
      Numbers dots found rest → Numbers (dots + 1) (run ++ '.' :: found) rest

variable {dots : Nat} {found rest : List Char}

theorem Numbers.length_le (h : Numbers dots found rest) : 2 * dots + 1 ≤ found.length := by
  induction h with
  | last hne => exact List.length_pos_iff.2 hne
  | dotted hne =>
    have hpos := List.length_pos_iff.2 hne
    rw [List.length_append, List.length_cons]
    omega

theorem Numbers.stops (h : Numbers dots found rest) : Stops Text.isWord rest := by
  induction h with
  | last _ _ _ hstops => exact hstops
  | dotted _ _ _ _ ih => exact ih

theorem Numbers.getLast? (h : Numbers dots found rest) : found.getLast?.any Text.isWord = true := by
  induction h with
  | @last run _ hne hdigits =>
    obtain ⟨c, hc⟩ := Option.isSome_iff_exists.1 (List.getLast?_isSome.2 hne)
    rw [hc]
    exact isWord_of_isDigit (hdigits c (List.mem_of_getLast? hc))
  | @dotted _ run found _ _ _ _ _ ih =>
    rcases List.eq_nil_or_concat found with rfl | ⟨init, c, rfl⟩
    · exact nomatch ih
    · rw [List.concat_eq_append, List.getLast?_concat] at ih
      rwa [List.concat_eq_append, ← List.cons_append, ← List.append_assoc, List.getLast?_concat]

/-- Of numbers a text starts with, the first ones are some. -/
theorem Numbers.fewer {k : Nat} (h : Numbers (dots + k) found rest) :
    ∃ found' rest', found ++ rest = found' ++ rest' ∧ Numbers dots found' rest' := by
  induction dots generalizing found with
  | zero =>
    cases k with
    | zero => exact ⟨found, rest, rfl, h⟩
    | succ k =>
      rw [Nat.zero_add] at h
      obtain _ | @⟨_, run, found, _, hne, hdigits, hlength, -⟩ := h
      exact ⟨run, '.' :: (found ++ rest), by simp, .last hne hdigits hlength (Text.stops_cons (by decide) _)⟩
  | succ dots ih =>
    rw [Nat.add_right_comm] at h
    obtain _ | @⟨_, run, found, _, hne, hdigits, hlength, hfound⟩ := h
    obtain ⟨found', rest', hsplit, hfound'⟩ := ih hfound
    refine ⟨run ++ '.' :: found', rest', ?_, .dotted hne hdigits hlength hfound'⟩
    rw [List.append_assoc, List.cons_append, hsplit, List.append_assoc, List.cons_append]

theorem dotted?_eq_some {s : List Char} {n : Nat} (h : dotted? s = some (n, rest)) :
    ∃ run, s = run ++ '.' :: rest ∧ n = run.length + 1 ∧ run ≠ [] ∧ (∀ c ∈ run, Text.isDigit c = true) ∧
      run.length ≤ 3 := by
  rw [dotted?_eq] at h
  obtain ⟨run, hs, hn, hne, hdigits⟩ := ended?_eq_some h
  obtain ⟨⟨k, behind⟩, hrun, hmark⟩ := Option.bind_eq_some_iff.1 h
  obtain ⟨rest', -, heq⟩ := Option.map_eq_some_iff.1 hmark
  have hle := Text.run?_le hrun
  have hk := (Prod.mk.inj heq).1
  exact ⟨run, hs, hn, hne, hdigits, by omega⟩

/-- A match of the pattern for IPv4 has four numbers, and no word ends in front of it. -/
theorem v4_numbers {before : Option Char} {s : List Char} {n : Nat} (h : v4 before s = some n) :
    before.any Text.isWord = false ∧ ∃ found rest, s = found ++ rest ∧ found.length = n ∧ Numbers 3 found rest := by
  rw [v4] at h
  split at h
  · cases h
  · rename_i hbefore
    obtain ⟨⟨n1, s1⟩, h1, h⟩ := Option.bind_eq_some_iff.1 h
    obtain ⟨⟨n2, s2⟩, h2, h⟩ := Option.bind_eq_some_iff.1 h
    obtain ⟨⟨n3, s3⟩, h3, h⟩ := Option.bind_eq_some_iff.1 h
    obtain ⟨⟨n4, s4⟩, h4, h⟩ := Option.bind_eq_some_iff.1 h
    obtain ⟨r1, rfl, rfl, hne1, hr1, hle1⟩ := dotted?_eq_some h1
    obtain ⟨r2, rfl, rfl, hne2, hr2, hle2⟩ := dotted?_eq_some h2
    obtain ⟨r3, rfl, rfl, hne3, hr3, hle3⟩ := dotted?_eq_some h3
    obtain ⟨r4, rfl, rfl, hne4, hr4⟩ := Text.run?_eq_some h4
    dsimp only at h
    split at h
    · cases h
    · rename_i hedge
      have hstops : Stops Text.isWord s4 := by
        intro c hc
        rw [hc] at hedge
        exact Bool.eq_false_iff.2 hedge
      refine ⟨Bool.eq_false_iff.2 hbefore, r1 ++ '.' :: (r2 ++ '.' :: (r3 ++ '.' :: r4)), s4, by simp, ?_, ?_⟩
      · obtain rfl := Option.some.inj h
        simp only [List.length_append, List.length_cons]
        omega
      · exact .dotted hne1 hr1 hle1 (.dotted hne2 hr2 hle2 (.dotted hne3 hr3 hle3
          (.last hne4 hr4 (Text.run?_le h4) hstops)))

/-- Four numbers with dots between them are found, where they are not inside a word. -/
theorem v4_of_numbers {before : Option Char} (hbefore : before.any Text.isWord = false) (h : Numbers 3 found rest) :
    v4 before (found ++ rest) = some found.length := by
  obtain _ | @⟨_, r1, _, _, hne1, hr1, hle1, h⟩ := h
  obtain _ | @⟨_, r2, _, _, hne2, hr2, hle2, h⟩ := h
  obtain _ | @⟨_, r3, _, _, hne3, hr3, hle3, h⟩ := h
  obtain ⟨hne4, hr4, hle4, hstops⟩ := h
  rename_i r4
  have hdotted {run s : List Char} (hne : run ≠ []) (hrun : ∀ c ∈ run, Text.isDigit c = true) (hle : run.length ≤ 3) :
      dotted? (run ++ '.' :: s) = some (run.length + 1, s) := by
    rw [dotted?_eq, ended?_run hne hrun hle (by decide)]
  have hdigit : Stops Text.isDigit rest := fun c hc => Bool.eq_false_iff.2 fun hdigit => by
    have hword := hstops c hc
    rw [isWord_of_isDigit hdigit] at hword
    exact nomatch hword
  have hedge : rest.head?.any Text.isWord = false := by
    cases rest with
    | nil => rfl
    | cons c rest => exact hstops c rfl
  have hsplit : r1 ++ '.' :: (r2 ++ '.' :: (r3 ++ '.' :: r4)) ++ rest =
      r1 ++ '.' :: (r2 ++ '.' :: (r3 ++ '.' :: (r4 ++ rest))) := by simp
  rw [hsplit, v4]
  simp only [hbefore, Bool.false_eq_true, if_false, hdotted hne1 hr1 hle1, hdotted hne2 hr2 hle2, hdotted hne3 hr3 hle3,
    Text.run?_run hne4 hr4 hle4 hdigit, Option.bind_eq_bind, Option.bind_some, hedge, List.length_append,
    List.length_cons]
  congr 1
  omega

/-! ## The pass for IPv4 twice -/

/-- The pass for IPv4, from one neighbour on. -/
abbrev Quieted (before : Option Char) (s out : List Char) : Prop := Replaced v4 placeholder.toList before s out

section Quieted

variable {before : Option Char} {s out : List Char} {c d : Char}

theorem v4_behind_word (hc : Text.isWord c = true) (s : List Char) : v4 (some c) s = none := by
  rw [v4]
  exact if_pos hc

/-- Behind a character of a word the first character is kept. -/
theorem Quieted.cons_cases (hc : Text.isWord c = true) (h : Quieted (some c) s out) :
    s = [] ∧ out = [] ∨ ∃ e s' out', s = e :: s' ∧ out = e :: out' ∧ Quieted (some e) s' out' := by
  cases h with
  | nil => exact .inl ⟨rfl, rfl⟩
  | keep _ hrest => exact .inr ⟨_, _, _, rfl, rfl, hrest⟩
  | swap _ hp =>
    rw [v4_behind_word hc] at hp
    exact nomatch hp

theorem Quieted.of_word (hc : Text.isWord c = true) (hd : Text.isWord d = true) (h : Quieted (some c) s out) :
    Quieted (some d) s out := by
  rcases h.cons_cases hc with ⟨rfl, rfl⟩ | ⟨e, s', out', rfl, rfl, hrest⟩
  · exact .nil _
  · exact .keep (v4_behind_word hd _) hrest

theorem Quieted.stops_iff (hc : Text.isWord c = true) (h : Quieted (some c) s out) :
    Stops Text.isWord out ↔ Stops Text.isWord s := by
  rcases h.cons_cases hc with ⟨rfl, rfl⟩ | ⟨e, s', out', rfl, rfl, -⟩
  · rfl
  · exact ⟨fun hout => Text.stops_cons (hout e rfl) _, fun hs => Text.stops_cons (hs e rfl) _⟩

/-- The rest of a word is kept. -/
theorem Quieted.run_kept {run : List Char} (hc : Text.isWord c = true) (hrun : ∀ e ∈ run, Text.isWord e = true)
    (h : Quieted (some c) s (run ++ out)) : ∃ s' d, s = run ++ s' ∧ Text.isWord d = true ∧ Quieted (some d) s' out := by
  induction run generalizing c s with
  | nil => exact ⟨s, c, rfl, hc, h⟩
  | cons e run ih =>
    rcases h.cons_cases hc with ⟨-, hout⟩ | ⟨_, s', out', rfl, hout, hrest⟩
    · exact nomatch hout
    · obtain ⟨rfl, rfl⟩ := List.cons.inj hout
      obtain ⟨s'', d, rfl, hd, hback⟩ :=
        ih (hrun _ List.mem_cons_self) (fun x hx => hrun x (List.mem_cons_of_mem _ hx)) hrest
      exact ⟨s'', d, rfl, hd, hback⟩

/-- A number in the outcome stood there before, or a match starts where it does. -/
theorem Quieted.number {run : List Char} (hne : run ≠ []) (hrun : ∀ e ∈ run, Text.isDigit e = true)
    (h : Quieted before s (run ++ out)) : (∃ n, v4 before s = some n) ∨
      ∃ s' d, s = run ++ s' ∧ Text.isWord d = true ∧ Quieted (some d) s' out := by
  obtain ⟨c, run, rfl⟩ := List.exists_cons_of_ne_nil hne
  have hword (e : Char) (he : e ∈ c :: run) : Text.isWord e = true := isWord_of_isDigit (hrun e he)
  generalize hout : c :: run ++ out = whole at h
  cases h with
  | nil => exact nomatch hout
  | keep _ hrest =>
    obtain ⟨rfl, rfl⟩ := List.cons.inj hout
    obtain ⟨s', d, rfl, hd, hback⟩ :=
      Quieted.run_kept (hword _ List.mem_cons_self) (fun e he => hword e (List.mem_cons_of_mem _ he)) hrest
    exact .inr ⟨s', d, rfl, hd, hback⟩
  | swap _ hp _ => exact .inl ⟨_, hp⟩

/-- Where numbers come to stand there were as many numbers. -/
theorem numbers_of_quieted (h : Quieted before s (found ++ rest)) (hfound : Numbers dots found rest)
    (hdots : dots ≤ 3) :
    ∃ found' rest', s = found' ++ rest' ∧ Numbers dots found' rest' := by
  have hmatched {before : Option Char} {s : List Char} {n dots : Nat} (hmatch : v4 before s = some n)
      (hdots : dots ≤ 3) : ∃ found' rest', s = found' ++ rest' ∧ Numbers dots found' rest' := by
    obtain ⟨-, found, rest, rfl, -, hfour⟩ := v4_numbers hmatch
    rw [← Nat.add_sub_of_le hdots] at hfour
    exact hfour.fewer
  induction hfound generalizing before s with
  | last hne hrun hle hstops =>
    rcases h.number hne hrun with ⟨n, hmatch⟩ | ⟨s', d, rfl, hd, hback⟩
    · exact hmatched hmatch hdots
    · exact ⟨_, s', rfl, .last hne hrun hle ((hback.stops_iff hd).1 hstops)⟩
  | dotted hne hrun hle _ ih =>
    rw [List.append_assoc, List.cons_append] at h
    rcases h.number hne hrun with ⟨n, hmatch⟩ | ⟨s', d, rfl, hd, hback⟩
    · exact hmatched hmatch hdots
    · rcases hback.cons_cases hd with ⟨-, hout⟩ | ⟨e, s'', out', rfl, hout, hrest⟩
      · exact nomatch hout
      · obtain ⟨rfl, rfl⟩ := List.cons.inj hout
        obtain ⟨found', rest', rfl, hfound'⟩ := ih hrest (Nat.le_of_succ_le hdots)
        exact ⟨_ ++ '.' :: found', rest', by simp, .dotted hne hrun hle hfound'⟩

theorem numbers_placeholder (hstops : Stops Text.isWord rest) : Numbers 3 placeholder.toList rest := by
  have hzero : ∀ c ∈ ['0'], Text.isDigit c = true := List.forall_mem_singleton.2 (by decide)
  have hone : ['0'].length ≤ 3 := by decide
  have hne : ['0'] ≠ [] := List.cons_ne_nil _ _
  exact .dotted hne hzero hone (.dotted hne hzero hone (.dotted hne hzero hone (.last hne hzero hone hstops)))

/-- The pass for IPv4 comes to its end at once. -/
theorem Quieted.again (h : Quieted before s out) : Quieted before out out := by
  induction h with
  | nil before => exact .nil before
  | @keep before c s out hnone hrest ih =>
    -- The numbers of a match in the outcome stood there before, where one would have been found.
    refine .keep (Option.eq_none_iff_forall_ne_some.2 fun n hn => ?_) ih
    obtain ⟨hbefore, found, rest, hsplit, -, hfound⟩ := v4_numbers hn
    have hwhole : Quieted before (c :: s) (found ++ rest) := hsplit ▸ .keep hnone hrest
    obtain ⟨found', rest', hs, hfound'⟩ := numbers_of_quieted hwhole hfound (Nat.le_refl 3)
    rw [hs, v4_of_numbers hbefore hfound'] at hnone
    exact nomatch hnone
  | @swap before found rest out hne hmatch hrest ih =>
    obtain ⟨hbefore, found', rest', hsplit, hlength, hfound⟩ := v4_numbers hmatch
    obtain ⟨rfl, rfl⟩ := List.append_inj hsplit hlength.symm
    obtain ⟨c, hc⟩ := Option.isSome_iff_exists.1 (List.getLast?_isSome.2 hne)
    have hword := hfound.getLast?
    rw [hc] at hrest ih hword
    have hstops := (Quieted.stops_iff hword hrest).2 hfound.stops
    exact .swap (by decide) (v4_of_numbers hbefore (numbers_placeholder hstops)) (ih.of_word hword (by decide))

end Quieted

/-! ## What stays -/

section Stays

variable {s : List Char}

/-- No match of the pattern for IPv4 is shorter than the placeholder. -/
theorem le_length_of_v4 (before : Option Char) (found rest : List Char)
    (h : v4 before (found ++ rest) = some found.length) :
    placeholder.toList.length ≤ found.length := by
  obtain ⟨-, found', rest', hsplit, hlength, hfound⟩ := v4_numbers h
  obtain ⟨rfl, -⟩ := List.append_inj hsplit hlength.symm
  exact hfound.length_le

theorem colons_of_v6 (before : Option Char) (found rest : List Char)
    (h : v6 before (found ++ rest) = some found.length) :
    placeholder.toList.count ':' < found.count ':' := by
  obtain ⟨found', rest', hsplit, hlength, -, hcolons⟩ := startsColoned_v6 h
  obtain ⟨rfl, -⟩ := List.append_inj hsplit hlength.symm
  exact Nat.lt_of_lt_of_le (by decide) hcolons

theorem taken_v4_eq_self_iff : taken v4 s = s ↔
    ∀ front found back, Meets v4 none s front found back → found = placeholder.toList :=
  Text.replaceAll_eq_self_iff le_length_of_v4 v4_fits

theorem taken_v6_eq_self_iff : taken v6 s = s ↔ ∀ front found back, ¬ Meets v6 none s front found back := by
  have hreplaced := seeksAddresses_v6.replaced s
  refine ⟨fun hstays front found back hmeets => ?_, fun hnone => ?_⟩
  · have hlt := hmeets.count_lt colons_of_v6 hreplaced
    rw [hstays] at hlt
    exact absurd hlt (Nat.lt_irrefl _)
  · exact hreplaced.eq_self fun front found back hmeets => absurd hmeets (hnone front found back)

/-- Neither pass undoes what the other one does, as only the one for IPv6 takes colons out. -/
theorem taken_taken_eq_self_iff : taken v6 (taken v4 s) = s ↔ taken v4 s = s ∧ taken v6 s = s := by
  constructor
  · intro hstays
    have hquads : (taken v4 s).count ':' ≤ s.count ':' :=
      (seeksAddresses_v4.replaced s).count_le fun _ _ _ _ => Nat.zero_le _
    have hkept : taken v6 (taken v4 s) = taken v4 s := taken_v6_eq_self_iff.2 fun front found back hmeets => by
      have hlt := hmeets.count_lt colons_of_v6 (seeksAddresses_v6.replaced _)
      rw [hstays] at hlt
      omega
    have hquiet : taken v4 s = s := hkept.symm.trans hstays
    exact ⟨hquiet, by rwa [hquiet] at hkept⟩
  · rintro ⟨hquiet, hkept⟩
    rw [hquiet, hkept]

theorem taken_v4_quadless (t : List Char) : taken v4 (quadless t) = quadless t :=
  (Quieted.again (seeksAddresses_v4.replaced _)).eq

/-- Where hiding host names leaves a text as it is, it meets none but hidden ones. -/
theorem eq_hidden_of_meets {before : Option Char} {front found back : List Char} (hstays : Hidden before s s)
    (h : Meets hostname before s front found back) : found = hiddenHostname.toList := by
  induction h with
  | here _ hmatch => exact (hstays.of_stays hmatch).1
  | kept hnone _ ih =>
    obtain ⟨out, hout, hrest⟩ := hstays.of_none_cons hnone
    rw [← (List.cons.inj hout).2] at hrest
    exact ih hrest
  | behind _ hmatch _ ih => exact ih (hstays.of_stays hmatch).2.of_any

/-! ## IPv6 addresses that stand apart -/

/-- Each match that the pass for IPv6 meets in a text stands between characters that an address and a word do not go on
with. -/
def Apart (s : List Char) : Prop := ∀ front found back, Meets v6 none s front found back →
  Stops joinsAddress front.reverse ∧ Stops joinsAddress back

/-- What stands in a text between characters that do not join addresses stays when the whole does. -/
theorem stays_between {front core back : List Char} (hfront : Stops joinsAddress front.reverse)
    (hback : Stops joinsAddress back) (h : taken v4 (front ++ core ++ back) = front ++ core ++ back) :
    taken v4 front = front ∧ taken v4 back = back := by
  have hle (s : List Char) : (taken v4 s).length ≤ s.length :=
    (seeksAddresses_v4.replaced s).length_le le_length_of_v4
  have hsplit := (seeksAddresses_v4.taken_between hfront hback core).symm.trans h
  have hlength := congrArg List.length hsplit
  simp only [List.length_append] at hlength
  have hleFront := hle front
  have hleCore := hle core
  have hleBack := hle back
  obtain ⟨hinit, hlast⟩ := List.append_inj' hsplit (by omega)
  exact ⟨(List.append_inj hinit (by omega)).1, hlast⟩

theorem taken_v4_placeholder : taken v4 placeholder.toList = placeholder.toList :=
  Text.replaceAll_eq_new (by decide) (by decide)

theorem taken_v6_placeholder : taken v6 placeholder.toList = placeholder.toList :=
  replaceAll_v6_of_no_colon (by decide) _

/-- Both passes leave a text as the one for IPv6 makes it, where the addresses in it stand apart. -/
theorem stays_taken_v6 (hquiet : taken v4 s = s) (hapart : Apart s) :
    taken v4 (taken v6 s) = taken v6 s ∧ taken v6 (taken v6 s) = taken v6 s := by
  induction hn : s.length using Nat.strongRecOn generalizing s with
  | ind n ih =>
    -- What stands on either side of a match is shorter and apart from it, so each pass deals with the three alone.
    by_cases hmet : ∃ front found back, Meets v6 none s front found back
    · obtain ⟨front, found, back, hmeets⟩ := hmet
      obtain ⟨hfront, hback⟩ := hapart front found back hmeets
      obtain ⟨hne, hmatch⟩ := hmeets.match
      have hpos := List.length_pos_iff.2 hne
      obtain rfl := hmeets.eq
      simp only [List.length_append] at hn
      obtain ⟨hquietFront, hquietBack⟩ := stays_between hfront hback hquiet
      have hapartFront : Apart front := fun x m y h => by
        have hwhole := h.append v6_local_joinsAddress hfront (found ++ back)
        rw [← List.append_assoc] at hwhole
        obtain ⟨hx, hy⟩ := hapart x m _ hwhole
        exact ⟨hx, Text.stops_of_append hy⟩
      have hapartBack : Apart back := fun x m y h => by
        obtain ⟨hx, hy⟩ := hapart _ m y (h.prepend v6_local_joinsAddress hback none (front ++ found))
        exact ⟨Text.stops_reverse_of_append hx, hy⟩
      obtain ⟨hv4Front, hv6Front⟩ := ih front.length (by omega) hquietFront hapartFront rfl
      obtain ⟨hv4Back, hv6Back⟩ := ih back.length (by omega) hquietBack hapartBack rfl
      have hfound : taken v6 found = placeholder.toList :=
        Text.replaceAll_eq_new hne ((v6_local_joinsAddress.ahead_of_stops hback _ found).symm.trans hmatch)
      have hfront' : Stops joinsAddress (taken v6 front).reverse :=
        Text.stops_reverse_replaceAll v6_local_joinsAddress hfront
      have hback' : Stops joinsAddress (taken v6 back) := Text.stops_replaceAll v6_local_joinsAddress hback
      rw [seeksAddresses_v6.taken_between hfront hback, hfound]
      constructor
      · rw [seeksAddresses_v4.taken_between hfront' hback', hv4Front, hv4Back, taken_v4_placeholder]
      · rw [seeksAddresses_v6.taken_between hfront' hback', hv6Front, hv6Back, taken_v6_placeholder]
    · have hkept : taken v6 s = s := taken_v6_eq_self_iff.2 fun front found back h => hmet ⟨front, found, back, h⟩
      rw [hkept]
      exact ⟨hquiet, hkept⟩

end Stays

/-- Scrubbing what is scrubbed finds no host name but hidden ones. It changes nothing exactly when it finds no IPv4
address but the placeholder and no IPv6 address, which is so where the IPv6 addresses in the text stand apart. -/
theorem scrub_scrub_eq_iff (t : List Char) :
    (∀ front found back, Meets hostname none (scrub t) front found back → found = hiddenHostname.toList) ∧
    (scrub (scrub t) = scrub t ↔
      (∀ front found back, Meets v4 none (scrub t) front found back → found = placeholder.toList) ∧
      ∀ front found back, ¬ Meets v6 none (scrub t) front found back) ∧
    (Apart (quadless t) → scrub (scrub t) = scrub t) := by
  have hnames := replaceAll_hostname_scrub t
  have hagain : scrub (scrub t) = taken v6 (taken v4 (scrub t)) := by
    rw [scrub_eq (scrub t), quadless, hnames]
  refine ⟨fun front found back => ?_, ?_, fun hapart => ?_⟩
  · have hstays : Hidden none (scrub t) _ := Text.replaced_replaceAll hostname_fits (scrub t)
    rw [hnames] at hstays
    exact eq_hidden_of_meets hstays
  · rw [hagain, taken_taken_eq_self_iff, taken_v4_eq_self_iff, taken_v6_eq_self_iff]
  · rw [hagain, taken_taken_eq_self_iff]
    exact stays_taken_v6 (taken_v4_quadless t) hapart

theorem scrub_scrub_eq_bracketed : scrub (scrub "(2001:db8::42)".toList) = scrub "(2001:db8::42)".toList := by
  have hquads : quadless "(2001:db8::42)".toList = '(' :: ("2001:db8::42".toList ++ [')']) := by decide +kernel
  refine (scrub_scrub_eq_iff _).2.2 fun front found back hmeets => ?_
  rw [hquads] at hmeets
  obtain ⟨front, rfl, hinner⟩ := hmeets.of_none_cons (by decide +kernel)
  rcases hinner.of_match (by decide +kernel) with ⟨rfl, rfl, rfl⟩ | ⟨front, rfl, hbehind⟩
  · exact ⟨Text.stops_cons (by decide) _, Text.stops_cons (by decide) _⟩
  · obtain ⟨front, rfl, hend⟩ := hbehind.of_none_cons (by decide +kernel)
    exact absurd rfl hend.ne_nil

/-- The digit in front of an address makes another one of its placeholder. -/
theorem scrub_scrub_ne : ¬ ∀ t, scrub (scrub t) = scrub t := by
  intro h
  have honce : scrub "12345::1".toList = "10.0.0.0".toList := by decide +kernel
  have htwice : scrub "10.0.0.0".toList = "0.0.0.0".toList := by decide +kernel
  have hsame := h "12345::1".toList
  rw [honce, htwice] at hsame
  exact absurd hsame (by decide)

end Speedtest.Redaction
