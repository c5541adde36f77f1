import Speedtest.Proofs.Redaction.Passes
import Speedtest.Redaction.Scrub

/-!
# Members that name a host

A match of the pattern for host names is a member as it is written: the key, a colon between blanks, and a quoted value
in which a backslash takes the character behind it along. How the text goes on behind it does not matter. The pass that
hides them comes to its end at once: it changes nothing in its own outcome, nor in what the passes for addresses make of
that.
-/
namespace Speedtest.Redaction

open Text (Replaced replaceFrom)

/-- What stands between the quotes of a value. -/
inductive Body : List Char → Prop where
  | nil : Body []
  | plain {c : Char} {v : List Char} : c ≠ '"' → c ≠ '\\' → Body v → Body (c :: v)
  | pair {c : Char} {v : List Char} : c ≠ '\n' → Body v → Body ('\\' :: c :: v)

/-- A member whose key is `"hostname"` and whose value is a string. -/
inductive Member : List Char → Prop where
  | mk {lead gap value : List Char} (hlead : ∀ c ∈ lead, Text.isBlank c = true)
      (hgap : ∀ c ∈ gap, Text.isBlank c = true) (hvalue : Body value) :
      Member (hostnameKey ++ (lead ++ ':' :: (gap ++ '"' :: (value ++ ['"']))))

/-! ## The value -/

theorem stringEnd?_plain {c : Char} (hquote : c ≠ '"') (hslash : c ≠ '\\') (taken : Nat) (s : List Char) :
    stringEnd? taken (c :: s) = stringEnd? (taken + 1) s :=
  stringEnd?.eq_5 taken c s hquote (fun _ _ h _ => hslash h) fun h _ => hslash h

theorem ne_slash {c : Char} {s : List Char} (hpair : ∀ d t, c = '\\' → s = d :: t → False)
    (hlone : c = '\\' → s = [] → False) : c ≠ '\\' := by
  intro hc
  cases s with
  | nil => exact hlone hc rfl
  | cons d t => exact hpair d t hc rfl

theorem stringEnd?_body {value : List Char} (h : Body value) (taken : Nat) (rest : List Char) :
    stringEnd? taken (value ++ '"' :: rest) = some (taken + value.length + 1) := by
  induction h generalizing taken with
  | nil => rfl
  | plain hquote hslash _ ih =>
    rw [List.cons_append, stringEnd?_plain hquote hslash, ih, List.length_cons]
    congr 1
    omega
  | pair hc _ ih =>
    rw [List.cons_append, List.cons_append, stringEnd?, if_neg hc, ih, List.length_cons, List.length_cons]
    congr 1
    omega

/-- What is passed over on the way to the end of a string is its body. -/
theorem body_of_stringEnd? {taken n : Nat} {s : List Char} (h : stringEnd? taken s = some n) :
    ∃ value rest, Body value ∧ s = value ++ '"' :: rest ∧ n = taken + value.length + 1 := by
  induction taken, s using stringEnd?.induct with
  | case1 => exact nomatch h
  | case2 taken rest => exact ⟨[], rest, .nil, rfl, (Option.some.inj h).symm⟩
  | case3 taken s =>
    rw [stringEnd?, if_pos rfl] at h
    exact nomatch h
  | case4 taken c s hc ih =>
    rw [stringEnd?, if_neg hc] at h
    obtain ⟨value, rest, hvalue, rfl, rfl⟩ := ih h
    exact ⟨_, rest, .pair hc hvalue, rfl, by simp only [List.length_cons]; omega⟩
  | case5 => exact nomatch h
  | case6 taken c s hquote hpair hlone ih =>
    have hslash := ne_slash hpair hlone
    rw [stringEnd?_plain hquote hslash] at h
    obtain ⟨value, rest, hvalue, rfl, rfl⟩ := ih h
    exact ⟨_, rest, .plain hquote hslash hvalue, rfl, by simp only [List.length_cons]; omega⟩

/-! ## The member -/

theorem blanks_run {run rest : List Char} (hrun : ∀ c ∈ run, Text.isBlank c = true)
    (hstop : Text.Stops Text.isBlank rest) : blanks (run ++ rest) = run.length := by
  rw [blanks, Text.takeWhile_run hrun hstop]

theorem blanks_cut (s : List Char) : ∃ run, s = run ++ s.drop (blanks s) ∧ run.length = blanks s ∧
    ∀ c ∈ run, Text.isBlank c = true := by
  refine ⟨s.takeWhile Text.isBlank, ?_, rfl, List.all_eq_true.1 List.all_takeWhile⟩
  exact (List.prefix_iff_eq_append.1 (List.takeWhile_prefix Text.isBlank)).symm

/-- A member for a host name is found whole, whatever follows it. -/
theorem hostname_member {found : List Char} (h : Member found) (before : Option Char) (rest : List Char) :
    hostname before (found ++ rest) = some found.length := by
  obtain ⟨hlead, hgap, hvalue⟩ := h
  rename_i lead gap value
  have hcolon : Text.Stops Text.isBlank (':' :: (gap ++ '"' :: (value ++ ['"'] ++ rest))) :=
    Text.stops_cons (by decide) _
  have hquote : Text.Stops Text.isBlank ('"' :: (value ++ ['"'] ++ rest)) := Text.stops_cons (by decide) _
  have hsplit : hostnameKey ++ (lead ++ ':' :: (gap ++ '"' :: (value ++ ['"']))) ++ rest =
      hostnameKey ++ (lead ++ ':' :: (gap ++ '"' :: (value ++ ['"'] ++ rest))) := by simp
  have hend : value ++ ['"'] ++ rest = value ++ '"' :: rest := by simp
  rw [hsplit, hostname, Text.dropLead?_append]
  simp only [blanks_run hlead hcolon, List.drop_left, blanks_run hgap hquote]
  rw [hend, stringEnd?_body hvalue]
  simp only [List.length_append, List.length_cons, List.length_nil]
  congr 1
  omega

/-- What is found is a member for a host name. -/
theorem member_of_hostname {before : Option Char} {s : List Char} {n : Nat} (h : hostname before s = some n) :
    ∃ found rest, s = found ++ rest ∧ found.length = n ∧ Member found := by
  rw [hostname] at h
  split at h
  · cases h
  · rename_i behind hkey
    obtain rfl := Text.dropLead?_eq_some_iff.1 hkey
    obtain ⟨lead, hlead, hleadLength, hleadBlank⟩ := blanks_cut behind
    dsimp only at h
    split at h
    · rename_i t hcolon
      obtain ⟨gap, hgap, hgapLength, hgapBlank⟩ := blanks_cut t
      split at h
      · rename_i value hquote
        obtain ⟨body, rest, hbody, rfl, rfl⟩ := body_of_stringEnd? h
        refine ⟨_, rest, ?_, ?_, .mk hleadBlank hgapBlank hbody⟩
        · rw [hlead, hcolon, hgap, hquote]
          simp
        · simp only [List.length_append, List.length_cons, List.length_nil, hleadLength, hgapLength]
          omega
      · cases h
    · cases h

theorem member_of_match {before : Option Char} {found rest : List Char}
    (h : hostname before (found ++ rest) = some found.length) : Member found := by
  obtain ⟨found', rest', hsplit, hlength, hmember⟩ := member_of_hostname h
  rwa [(List.append_inj hsplit hlength.symm).1]

theorem Member.ne_nil {found : List Char} (h : Member found) : found ≠ [] := by
  obtain ⟨-⟩ := h
  simp

theorem hostname_fits : Text.Fits hostname := by
  intro before s n h
  obtain ⟨found, rest, rfl, rfl, hmember⟩ := member_of_hostname h
  exact ⟨List.length_pos_iff.2 hmember.ne_nil, by simp⟩

theorem member_hidden : Member hiddenHostname.toList := by
  have hvalue : Body "REDACTED".toList := by
    repeat' first | exact .nil | refine .plain (by decide) (by decide) ?_
  exact @Member.mk [] [] _ nofun nofun hvalue

/-! ## What a match reads -/

/-- Whether a quote comes that no backslash takes along, when the last character was such a backslash or was none. -/
def closes : (behind : Bool) → List Char → Bool
  | _, [] => false
  | true, c :: s => c != '\n' && closes false s
  | false, c :: s => c == '"' || closes (c == '\\') s

theorem isSome_stringEnd? (taken : Nat) (s : List Char) : (stringEnd? taken s).isSome = closes false s := by
  induction taken, s using stringEnd?.induct with
  | case1 | case2 | case3 | case5 => rfl
  | case4 taken c s hc ih =>
    rw [stringEnd?, if_neg hc, ih]
    simp [closes, hc]
  | case6 taken c s hquote hpair hlone ih =>
    have hslash := ne_slash hpair hlone
    rw [stringEnd?_plain hquote hslash, ih, closes, beq_eq_false_iff_ne.2 hquote, beq_eq_false_iff_ne.2 hslash]
    rfl

/-- A match is the key, a colon between blanks, and a quote behind which another one comes. -/
theorem isSome_hostname_iff {before : Option Char} {s : List Char} : (hostname before s).isSome = true ↔
    ∃ lead gap t, (∀ c ∈ lead, Text.isBlank c = true) ∧ (∀ c ∈ gap, Text.isBlank c = true) ∧
      s = hostnameKey ++ (lead ++ ':' :: (gap ++ '"' :: t)) ∧ closes false t = true := by
  constructor
  · intro h
    obtain ⟨n, hn⟩ := Option.isSome_iff_exists.1 h
    obtain ⟨found, rest, rfl, -, hmember⟩ := member_of_hostname hn
    obtain @⟨lead, gap, value, hlead, hgap, hvalue⟩ := hmember
    refine ⟨lead, gap, value ++ '"' :: rest, hlead, hgap, by simp, ?_⟩
    rw [← isSome_stringEnd? 0, stringEnd?_body hvalue]
    rfl
  · rintro ⟨lead, gap, t, hlead, hgap, rfl, hcloses⟩
    rw [← isSome_stringEnd? 0] at hcloses
    obtain ⟨n, hn⟩ := Option.isSome_iff_exists.1 hcloses
    obtain ⟨value, rest, hvalue, rfl, -⟩ := body_of_stringEnd? hn
    have hmatch := hostname_member (.mk hlead hgap hvalue) before rest
    have hsplit : hostnameKey ++ (lead ++ ':' :: (gap ++ '"' :: (value ++ ['"']))) ++ rest =
        hostnameKey ++ (lead ++ ':' :: (gap ++ '"' :: (value ++ '"' :: rest))) := by simp
    rw [hsplit] at hmatch
    rw [hmatch]
    rfl

/-! ## Texts without host names to hide -/

/-- The pass that hides host names, from one neighbour on. -/
abbrev Hidden (before : Option Char) (s out : List Char) : Prop := Replaced hostname hiddenHostname.toList before s out

section Hidden

variable {before before' : Option Char} {s out : List Char}

theorem Hidden.of_any (h : Hidden before s out) : Hidden before' s out := by
  cases h with
  | nil => exact .nil before'
  | keep hp hrest => exact .keep hp hrest
  | swap hne hp hrest => exact .swap hne hp hrest

theorem Hidden.prepend {run : List Char} (hrun : ∀ c ∈ run, c ≠ '"') (h : Hidden before' s s) :
    Hidden before (run ++ s) (run ++ s) := by
  induction run generalizing before with
  | nil => exact h.of_any
  | cons c run ih =>
    refine .keep ?_ (ih fun d hd => hrun d (List.mem_cons_of_mem c hd))
    refine hostname_of_not_lead fun hlead => ?_
    obtain ⟨rest, hrest⟩ := hlead
    exact hrun c List.mem_cons_self (List.cons.inj hrest).1.symm

theorem closes_key (behind : Bool) (t : List Char) : closes behind (hostnameKey ++ t) = true := by
  cases behind <;> rfl

/-- Where a quote closes in an outcome, one closed before, if one did in front of what the new text stands for. -/
theorem closes_of_replaced {p : Text.Pattern} {new : List Char}
    (hswap : ∀ {before : Option Char} {found rest out : List Char} {behind : Bool}, found ≠ [] →
      p before (found ++ rest) = some found.length → (closes false out = true → closes false rest = true) →
      closes behind (new ++ out) = true → closes behind (found ++ rest) = true)
    {behind : Bool} (h : Replaced p new before s out) (hcloses : closes behind out = true) :
    closes behind s = true := by
  induction h generalizing behind with
  | nil => exact hcloses
  | keep _ _ ih =>
    cases behind with
    | true =>
      rw [closes, Bool.and_eq_true] at hcloses ⊢
      exact ⟨hcloses.1, ih hcloses.2⟩
    | false =>
      rw [closes, Bool.or_eq_true] at hcloses ⊢
      exact hcloses.imp_right ih
  | swap hne hmatch _ ih => exact hswap hne hmatch ih hcloses

theorem closes_of_hidden {behind : Bool} (h : Hidden before s out) (hcloses : closes behind out = true) :
    closes behind s = true := by
  refine closes_of_replaced (fun {_ _ _ _ behind} _ hmatch _ _ => ?_) h hcloses
  obtain ⟨-⟩ := member_of_match hmatch
  rw [List.append_assoc]
  exact closes_key behind _

theorem head?_hidden : hiddenHostname.toList.head? = some '"' := by decide

/-- A quote in the outcome was kept, or a host name was hidden where it stands. -/
theorem Hidden.quote (h : Hidden before s ('"' :: out)) :
    (∃ s', s = '"' :: s' ∧ Hidden (some '"') s' out) ∨
    (hostname before s).isSome = true ∧ hostnameKey <+: s ∧ out.head? = some 'h' := by
  generalize hout : '"' :: out = whole at h
  cases h with
  | nil => exact nomatch hout
  | keep _ hrest =>
    obtain ⟨rfl, rfl⟩ := List.cons.inj hout
    exact .inl ⟨_, rfl, hrest⟩
  | @swap _ found rest out' _ hp =>
    refine .inr ⟨by rw [hp]; rfl, ?_, by rw [(List.cons.inj hout).2]; rfl⟩
    obtain ⟨-⟩ := member_of_match hp
    exact (List.prefix_append _ _).trans (List.prefix_append _ _)

theorem Hidden.run_kept {run : List Char} (hrun : ∀ c ∈ run, c ≠ '"') (h : Hidden before s (run ++ out)) :
    ∃ s', s = run ++ s' ∧ Hidden (run.getLast?.or before) s' out := by
  refine Replaced.run_kept (by decide) (fun c hc hhead => ?_) h
  rw [head?_hidden] at hhead
  exact hrun c hc (Option.some.inj hhead).symm

theorem hostnameKey_eq : hostnameKey = '"' :: ("hostname".toList ++ ['"']) := rfl

theorem ne_quote_of_isBlank {run : List Char} (hrun : ∀ c ∈ run, Text.isBlank c = true) : ∀ c ∈ run, c ≠ '"' := by
  rintro c hc rfl
  exact absurd (hrun '"' hc) (by decide)

/-- Hiding makes no new match: where one starts in the outcome, one started before. -/
theorem hostname_of_hidden (h : Hidden before s out) (hout : (hostname before' out).isSome = true) :
    (hostname before s).isSome = true := by
  obtain ⟨lead, gap, t, hlead, hgap, rfl, hcloses⟩ := isSome_hostname_iff.1 hout
  rw [hostnameKey_eq, List.cons_append, List.append_assoc, List.singleton_append] at h
  rcases h.quote with ⟨s1, rfl, h1⟩ | ⟨hmatch, -⟩
  · obtain ⟨s2, rfl, h2⟩ := h1.run_kept (Text.forall_of_all (by decide))
    -- Behind the letters of the key stands its quote, as no blank and no colon follows the quote of a hidden one.
    rcases h2.quote with ⟨s3, rfl, h3⟩ | ⟨-, -, hhead⟩
    · have hgapQuote : ∀ c ∈ lead ++ ':' :: gap, c ≠ '"' := by
        intro c hc
        rcases List.mem_append.1 hc with hc | hc
        · exact ne_quote_of_isBlank hlead c hc
        · rcases List.mem_cons.1 hc with rfl | hc
          · decide
          · exact ne_quote_of_isBlank hgap c hc
      have hcut : lead ++ ':' :: (gap ++ '"' :: t) = (lead ++ ':' :: gap) ++ '"' :: t := by simp
      rw [hcut] at h3
      obtain ⟨s4, rfl, h4⟩ := h3.run_kept hgapQuote
      have hvalue : ∃ s5, s4 = '"' :: s5 ∧ closes false s5 = true := by
        rcases h4.quote with ⟨s5, rfl, h5⟩ | ⟨-, ⟨rest, rfl⟩, -⟩
        · exact ⟨s5, rfl, closes_of_hidden h5 hcloses⟩
        · exact ⟨_, rfl, rfl⟩
      obtain ⟨s5, rfl, hcloses5⟩ := hvalue
      refine isSome_hostname_iff.2 ⟨lead, gap, s5, hlead, hgap, ?_, hcloses5⟩
      rw [hostnameKey_eq]
      simp only [List.append_assoc, List.cons_append, List.nil_append]
    · cases lead with
      | nil => exact absurd (Option.some.inj hhead) (by decide)
      | cons c lead =>
        obtain rfl : c = 'h' := Option.some.inj hhead
        exact absurd (hlead 'h' List.mem_cons_self) (by decide)
  · exact hmatch

/-- What hiding comes to stays as it is. -/
theorem Hidden.again (h : Hidden before s out) : Hidden before out out := by
  induction h with
  | nil before => exact .nil before
  | keep hp hrest ih =>
    refine .keep (Option.eq_none_iff_forall_ne_some.2 fun n hn => ?_) ih
    have hsome := hostname_of_hidden (.keep hp hrest) (Option.isSome_iff_exists.2 ⟨n, hn⟩)
    rw [hp] at hsome
    exact nomatch hsome
  | swap _ _ _ ih => exact .swap member_hidden.ne_nil (hostname_member member_hidden _ _) ih.of_any

/-- Where a text stays as it is, a match is what is put in for it. -/
theorem Hidden.of_stays {found rest : List Char} (hp : hostname before (found ++ rest) = some found.length)
    (h : Hidden before (found ++ rest) (found ++ rest)) : found = hiddenHostname.toList ∧ Hidden before rest rest := by
  obtain ⟨out, hout, hrest⟩ := h.of_match (member_of_match hp).ne_nil hp
  have hmatch := hostname_member member_hidden before out
  rw [← hout, hp] at hmatch
  obtain ⟨rfl, rfl⟩ := List.append_inj hout (Option.some.inj hmatch)
  exact ⟨rfl, Hidden.of_any hrest⟩

/-- Where a text stays as it is, nothing matches or what is put in stands there already. -/
theorem Hidden.stays_cases {c : Char} (h : Hidden before (c :: s) (c :: s)) :
    hostname before (c :: s) = none ∧ Hidden (some c) s s ∨
    ∃ rest, c :: s = hiddenHostname.toList ++ rest ∧ Hidden before rest rest := by
  cases hp : hostname before (c :: s) with
  | none =>
    obtain ⟨out, hout, hrest⟩ := h.of_none_cons hp
    obtain rfl := (List.cons.inj hout).2
    exact .inl ⟨rfl, hrest⟩
  | some n =>
    obtain ⟨found, rest, hsplit, rfl, -⟩ := member_of_hostname hp
    rw [hsplit] at h hp ⊢
    obtain ⟨rfl, hrest⟩ := h.of_stays hp
    exact .inr ⟨rest, rfl, hrest⟩

end Hidden

/-! ## The passes for addresses behind it -/

section Taken

variable {p : Text.Pattern} (hp : SeeksAddresses p) {before before' : Option Char} {s out : List Char}
include hp

/-- A string that is closed once addresses were taken out was closed before. -/
theorem closes_of_taken {behind : Bool} (h : Replaced p placeholder.toList before s out)
    (hcloses : closes behind out = true) : closes behind s = true := by
  have hpass (c : Char) (hc : isAddressed c = true) (behind : Bool) (t : List Char) :
      closes behind (c :: t) = closes false t := by
    have hne (d : Char) (hd : isAddressed d = false) : (c == d) = false := beq_eq_false_iff_ne.2 (Text.ne_of_kind hc hd)
    cases behind with
    | true => rw [closes, bne, hne '\n' (by decide)]; rfl
    | false => rw [closes, hne '"' (by decide), hne '\\' (by decide)]; rfl
  have hrun (run : List Char) (hrun : ∀ c ∈ run, isAddressed c = true) (t : List Char) :
      closes false (run ++ t) = closes false t := by
    induction run with
    | nil => rfl
    | cons c run ih =>
      rw [List.cons_append, hpass c (hrun c List.mem_cons_self), ih fun d hd => hrun d (List.mem_cons_of_mem c hd)]
  refine closes_of_replaced (fun {_ found rest out behind} hne hmatch ih hcloses => ?_) h hcloses
  have hout : closes false out = true := by
    rw [← hcloses]
    exact ((hpass '0' (by decide) behind _).trans (hrun ".0.0.0".toList (List.all_eq_true.1 (by decide)) out)).symm
  obtain ⟨c, found, rfl⟩ := List.exists_cons_of_ne_nil hne
  have hfound := hp.mem_found hmatch
  rw [List.cons_append, hpass c (hfound c List.mem_cons_self),
    hrun found fun d hd => hfound d (List.mem_cons_of_mem c hd)]
  exact ih hout

/-- Where a host name is found behind a pass for addresses, one was found before it. -/
theorem hostname_of_taken (h : Replaced p placeholder.toList before s out)
    (hout : (hostname before' out).isSome = true) : (hostname before' s).isSome = true := by
  obtain ⟨lead, gap, t, hlead, hgap, rfl, hcloses⟩ := isSome_hostname_iff.1 hout
  have hcut : hostnameKey ++ (lead ++ ':' :: (gap ++ '"' :: t)) =
      (hostnameKey ++ (lead ++ ':' :: (gap ++ ['"']))) ++ t := by
    simp
  have hdigit : ∀ c ∈ hostnameKey ++ (lead ++ ':' :: (gap ++ ['"'])), placeholder.toList.head? ≠ some c := by
    rintro c hc hhead
    obtain rfl : '0' = c := Option.some.inj hhead
    have hblank (run : List Char) (hrun : ∀ c ∈ run, Text.isBlank c = true) : '0' ∉ run :=
      fun hmem => absurd (hrun '0' hmem) (by decide)
    have hkey : '0' ∉ hostnameKey := by decide
    simp [hkey, hblank lead hlead, hblank gap hgap] at hc
  rw [hcut] at h
  obtain ⟨s', rfl, hrest⟩ := Replaced.run_kept (by decide) hdigit h
  exact isSome_hostname_iff.2 ⟨lead, gap, s', hlead, hgap, by simp, closes_of_taken hp hrest hcloses⟩

/-- No pass for addresses finds anything in what takes the place of a host name. -/
theorem keeps_hidden {rest : List Char} (h : Replaced p placeholder.toList before (hiddenHostname.toList ++ rest) out) :
    ∃ out', out = hiddenHostname.toList ++ out' ∧ Replaced p placeholder.toList (some '"') rest out' := by
  have hend : hiddenHostname.toList = "\"hostname\":\"REDACTED".toList ++ ['"'] := by decide
  refine h.keeps (fun l r hsplit hr => ?_) rfl
  rcases List.eq_nil_or_concat r with rfl | ⟨r, c, rfl⟩
  · exact absurd rfl hr
  · rw [hend, List.concat_eq_append, ← List.append_assoc] at hsplit
    obtain ⟨hinit, hc⟩ := List.append_inj' hsplit rfl
    obtain rfl := (List.cons.inj hc).1
    have hsuffix : r <:+ "\"hostname\":\"REDACTED".toList := ⟨l, hinit.symm⟩
    rw [List.concat_eq_append, List.append_assoc, List.singleton_append, hp.apart.ahead _ _ _ _ (by decide)]
    apply hp.eq_none
    · exact Nat.le_trans (hsuffix.sublist.count_le '.') (by decide)
    · exact Nat.le_trans (hsuffix.sublist.count_le ':') (by decide)

/-- A text without host names to hide has none behind a pass for addresses either. -/
theorem Hidden.taken (hs : Hidden before s s) (h : Replaced p placeholder.toList before' s out) :
    Hidden before out out := by
  induction hn : s.length using Nat.strongRecOn generalizing before before' s out with
  | ind n ih =>
    cases h with
    | nil => exact .nil before
    | @keep _ c s out hnone hrest =>
      -- A hidden host name is gone over as a whole, as the character that is kept is its first quote.
      rcases hs.stays_cases with ⟨hkept, htail⟩ | ⟨rest, hsplit, htail⟩
      · refine .keep (Option.eq_none_iff_forall_ne_some.2 fun k hk => ?_) (ih _ (by simp [← hn]) htail hrest rfl)
        have hsome := hostname_of_taken hp (.keep hnone hrest) (Option.isSome_iff_exists.2 ⟨k, hk⟩)
        rw [hkept] at hsome
        exact nomatch hsome
      · have hwhole : Replaced p placeholder.toList before' (c :: s) (c :: out) := .keep hnone hrest
        rw [hsplit] at hwhole
        obtain ⟨out', hout, hback⟩ := keeps_hidden hp hwhole
        have hlength := congrArg List.length hsplit
        have hpos := List.length_pos_iff.2 member_hidden.ne_nil
        rw [List.length_append] at hlength
        rw [hout]
        exact .swap member_hidden.ne_nil (hostname_member member_hidden before out')
          (ih _ (by omega) htail hback rfl).of_any
    | @swap _ found rest out hne hmatch hrest =>
      have hquote : ∀ c ∈ found, c ≠ '"' := by
        rintro c hc rfl
        exact absurd (hp.mem_found hmatch _ hc) (by decide)
      obtain ⟨rest', hsplit, htail⟩ := hs.run_kept hquote
      obtain rfl := List.append_cancel_left hsplit
      have hpos := List.length_pos_iff.2 hne
      rw [List.length_append] at hn
      exact .prepend (Text.forall_of_all (by decide)) (ih _ (by omega) htail hrest rfl)

end Taken

/-- Nothing is left for the pass for host names by scrubbing. -/
theorem replaceAll_hostname_scrub (t : List Char) :
    Text.replaceAll hostname hiddenHostname.toList (scrub t) = scrub t := by
  have hhidden : Hidden none t _ := Text.replaced_replaceAll hostname_fits t
  have hquads := Hidden.taken seeksAddresses_v4 hhidden.again (seeksAddresses_v4.replaced _)
  exact (Hidden.taken seeksAddresses_v6 hquads (seeksAddresses_v6.replaced _)).eq

end Speedtest.Redaction
