import Speedtest.Proofs.Redaction.Walks

/-!
# Host names in documents

In a document the value of a member that names a host has no effect on what scrubbing comes to, wherever the member
stands and whatever escapes the value has. The pass for host names comes to the member from the front of the text: a
match that starts ahead of it ends ahead of it too, because no key stands inside a match.
-/
namespace Speedtest.Redaction

open Json (Stand Content Accepts IsDocument isGap next walk walk_append walk_step walk_gaps)

/-- A member that names a host, with the blanks around its colon. -/
def naming (lead gap value : List Char) : List Char :=
  hostnameKey ++ (lead ++ ':' :: (gap ++ '"' :: (value ++ ['"'])))

/-- What stands in front of a member: the bracket of its object or a comma, and blanks behind that. -/
def OpensMember (front : List Char) : Prop :=
  ∃ s mark gap, front = s ++ mark :: gap ∧ (mark = '\x7b' ∨ mark = ',') ∧ ∀ c ∈ gap, isGap c = true

variable {q r : Stand} {front lead gap value value' back : List Char}

/-! ## Strings as values -/

theorem gaps_of_accepts {s : List Char} (h : Accepts ⟨.after, []⟩ s) : ∀ c ∈ s, isGap c = true := by
  induction s with
  | nil => exact List.forall_mem_nil _
  | cons c s ih =>
    obtain ⟨r, hnext, hrest⟩ := Json.next_of_accepts h
    rw [next, Json.nextAfter] at hnext
    split at hnext
    · obtain rfl := Option.some.inj hnext
      exact List.forall_mem_cons.2 ⟨‹_›, ih hrest⟩
    · cases hnext

/-- A document that starts and ends with a quote is one string. -/
theorem content_of_isDocument (h : IsDocument ('"' :: (value ++ ['"']))) : Content value := by
  have hopen : Accepts ⟨.inside false, []⟩ (value ++ ['"']) := Json.isDocument_iff.1 h
  obtain ⟨w, t, hw, hsplit, ht⟩ := Json.content_of_accepts hopen
  have hgaps := gaps_of_accepts ht
  -- Only blanks may stand behind the quote that ends the string, so the last quote is that one.
  rcases List.eq_nil_or_concat t with rfl | ⟨t, c, rfl⟩
  · rwa [(List.append_inj' hsplit rfl).1]
  · rw [List.concat_eq_append, ← List.cons_append, ← List.append_assoc] at hsplit
    have hc : '"' = c := (List.cons.inj (List.append_inj' hsplit rfl).2).1
    exact absurd (hgaps c (by simp)) (by rw [← hc]; decide)

theorem body_of_content (h : Content value) : Body value := by
  have hplain {c : Char} {v : List Char} (hc : Text.isHexDigit c = true) (hv : Body v) : Body (c :: v) := by
    refine .plain ?_ ?_ hv
    all_goals
      rintro rfl
      exact absurd hc (by decide)
  induction h with
  | nil => exact .nil
  | plain hquote hslash _ _ ih => exact .plain hquote hslash ih
  | escaped hc _ ih =>
    refine .pair ?_ ih
    rintro rfl
    exact absurd hc (by decide)
  | code ha hb hc hd _ ih => exact .pair (by decide) (hplain ha (hplain hb (hplain hc (hplain hd ih))))

theorem isBlank_of_isGap {c : Char} (hc : isGap c = true) : Text.isBlank c = true :=
  Json.of_isGap (P := fun c => Text.isBlank c = true) (Text.forall_of_all (by decide)) hc

section Naming

variable (hlead : ∀ c ∈ lead, isGap c = true) (hgap : ∀ c ∈ gap, isGap c = true)
include hlead hgap

theorem member_naming (hvalue : Content value) : Member (naming lead gap value) :=
  .mk (fun c hc => isBlank_of_isGap (hlead c hc)) (fun c hc => isBlank_of_isGap (hgap c hc)) (body_of_content hvalue)

theorem walk_naming {frames : List Json.Frame} (hopen : next q '"' = some ⟨.inside true, frames⟩)
    (hvalue : Content value) : walk q (naming lead gap value) = some ⟨.after, .object :: frames⟩ := by
  have hname : walk ⟨.inside true, frames⟩ "hostname".toList = some ⟨.inside true, frames⟩ := rfl
  have hclosed : next ⟨.inside true, frames⟩ '"' = some ⟨.colon, frames⟩ := rfl
  have hcolon : next ⟨.colon, frames⟩ ':' = some ⟨.value false, .object :: frames⟩ := rfl
  have hquote : next ⟨.value false, .object :: frames⟩ '"' = some ⟨.inside false, .object :: frames⟩ := rfl
  rw [naming, hostnameKey_eq, List.cons_append, List.append_assoc, List.singleton_append, walk_step hopen]
  rw [walk_append, hname, Option.bind_some, walk_step hclosed]
  rw [walk_append, walk_gaps rfl hlead, Option.bind_some, walk_step hcolon]
  rw [walk_append, walk_gaps rfl hgap, Option.bind_some, walk_step hquote, Json.walk_string hvalue]
  rfl

end Naming

/-! ## The place of a member -/

/-- A quote leads into a key only from where one may stand, or from behind a backslash. -/
theorem key_or_escape {frames : List Json.Frame} (h : next q '"' = some ⟨.inside true, frames⟩) :
    (∃ opened, q.spot = .key opened) ∨ q.spot = .escape true := by
  obtain ⟨spot, frames'⟩ := q
  have hafter : Json.nextAfter frames' '"' = none := by rcases frames' with _ | ⟨_ | _, frames'⟩ <;> rfl
  cases spot with
  | key opened => exact .inl ⟨opened, rfl⟩
  | escape key =>
    obtain ⟨hkey, -⟩ := Stand.mk.inj (Option.some.inj h)
    exact .inr (congrArg Json.Spot.escape (Json.Spot.inside.inj hkey))
  | inside key => cases key <;> exact nomatch h
  | value | colon | code => exact nomatch h
  | after => exact nomatch hafter.symm.trans h
  | bare =>
    rw [next, hafter, if_neg (by decide)] at h
    split at h <;> exact nomatch h

/-- Where a key opens behind a bracket or a comma, a key had to come. -/
theorem OpensMember.key {frames : List Json.Frame} (hfront : OpensMember front) (hwalk : walk Json.start front = some q)
    (hopen : next q '"' = some ⟨.inside true, frames⟩) : ∃ opened, q.spot = .key opened := by
  obtain ⟨init, c, rfl, hc⟩ : ∃ init c, front = init ++ [c] ∧ c ≠ '\\' := by
    obtain ⟨s, mark, gap, rfl, hmark, hgap⟩ := hfront
    rcases List.eq_nil_or_concat gap with rfl | ⟨gap, c, rfl⟩
    · exact ⟨s, mark, rfl, by rcases hmark with rfl | rfl <;> decide⟩
    · refine ⟨s ++ mark :: gap, c, by simp, ?_⟩
      rintro rfl
      exact absurd (hgap '\\' (by simp)) (by decide)
  obtain ⟨q', -, hlast⟩ := Json.walk_append_eq_some.1 hwalk
  obtain ⟨q'', hnext, hnil⟩ := Json.walk_cons_eq_some.1 hlast
  obtain rfl := Option.some.inj hnil
  exact (key_or_escape hopen).resolve_right fun hescape => hc (slash_of_escape hnext hescape)

/-! ## Either value -/

/-- A match that starts ahead of a place where a key has to come ends ahead of it. -/
theorem match_ends {s : List Char} {before : Option Char} {n : Nat} {opened : Bool} (hne : front ≠ [])
    (hwalk : walk q front = some r) (hkey : r.spot = .key opened) (haccepts : Accepts r s)
    (hmatch : hostname before (front ++ s) = some n) : ∃ found rest, Member found ∧ front = found ++ rest := by
  obtain ⟨found, rest, hsplit, -, hfound⟩ := member_of_hostname hmatch
  rcases List.append_eq_append_iff.1 hsplit with ⟨more, rfl, -⟩ | ⟨back, rfl, -⟩
  · -- Such a match would have the place of the key inside it.
    have hwhole := (Json.accepts_append hwalk).2 haccepts
    rw [hsplit] at hwhole
    obtain ⟨r', hfoundWalk, -⟩ := Json.walk_of_accepts hwhole
    obtain ⟨-, -, -, hpasses⟩ := passes_member hfound hfoundWalk
    exact absurd hkey (hpasses.no_key hne hwalk opened)
  · exact ⟨found, back, hfound, rfl⟩

/-- Up to the place of a member the pass finds the same whatever the member is, and then it hides the member. -/
theorem hidden_either (before : Option Char) {found found' : List Char} {opened : Bool} (hfound : Member found)
    (hfound' : Member found') (hwalk : walk q front = some r) (hkey : r.spot = .key opened)
    (haccepts : Accepts r (found ++ back)) (haccepts' : Accepts r (found' ++ back)) :
    ∃ out, Hidden before (front ++ (found ++ back)) out ∧ Hidden before (front ++ (found' ++ back)) out := by
  induction hn : front.length using Nat.strongRecOn generalizing before q front with
  | ind n ih =>
    cases front with
    | nil =>
      have hback : Hidden none back _ := Text.replaced_replaceAll hostname_fits back
      rw [List.nil_append, List.nil_append]
      exact ⟨_, .swap hfound.ne_nil (hostname_member hfound before back) hback.of_any,
        .swap hfound'.ne_nil (hostname_member hfound' before back) hback.of_any⟩
    | cons c front =>
      -- A match that starts here ends ahead of either member, and does not depend on what stands behind it.
      by_cases hahead : ∃ taken rest, Member taken ∧ c :: front = taken ++ rest
      · obtain ⟨taken, rest, htaken, hsplit⟩ := hahead
        have hlength := congrArg List.length hsplit
        have hpos := List.length_pos_iff.2 htaken.ne_nil
        rw [List.length_append] at hlength
        rw [hsplit] at hwalk
        obtain ⟨q', -, hrest⟩ := Json.walk_append_eq_some.1 hwalk
        obtain ⟨out, hout, hout'⟩ := ih rest.length (by omega) none hrest rfl
        rw [hsplit, List.append_assoc, List.append_assoc]
        exact ⟨_, .swap htaken.ne_nil (hostname_member htaken before _) hout.of_any,
          .swap htaken.ne_nil (hostname_member htaken before _) hout'.of_any⟩
      · have hnone {s : List Char} (hs : Accepts r s) : hostname before (c :: front ++ s) = none :=
          Option.eq_none_iff_forall_ne_some.2 fun n hmatch =>
            hahead (match_ends (List.cons_ne_nil c front) hwalk hkey hs hmatch)
        obtain ⟨q', -, hrest⟩ := Json.walk_cons_eq_some.1 hwalk
        obtain ⟨out, hout, hout'⟩ := ih front.length (by rw [← hn]; exact Nat.lt_succ_self _) (some c) hrest rfl
        exact ⟨c :: out, .keep (hnone haccepts) hout, .keep (hnone haccepts') hout'⟩

/-- What a member that names a host says has no effect on what scrubbing a document comes to. -/
theorem scrub_naming (hfront : OpensMember front) (hlead : ∀ c ∈ lead, isGap c = true)
    (hgap : ∀ c ∈ gap, isGap c = true) (hvalue : IsDocument ('"' :: (value ++ ['"'])))
    (hvalue' : IsDocument ('"' :: (value' ++ ['"'])))
    (h : IsDocument (front ++ (naming lead gap value ++ back))) :
    scrub (front ++ (naming lead gap value ++ back)) = scrub (front ++ (naming lead gap value' ++ back)) := by
  have hcontent := content_of_isDocument hvalue
  have hcontent' := content_of_isDocument hvalue'
  have hmember := member_naming hlead hgap hcontent
  have hmember' := member_naming hlead hgap hcontent'
  obtain ⟨q, hwalk, haccepts⟩ := Json.walk_of_accepts (Json.isDocument_iff.1 h)
  obtain ⟨r, hnaming, hback⟩ := Json.walk_of_accepts haccepts
  obtain ⟨frames, hopen, rfl, -⟩ := passes_member hmember hnaming
  obtain ⟨opened, hkey⟩ := hfront.key hwalk hopen
  have haccepts' := (Json.accepts_append (walk_naming hlead hgap hopen hcontent')).2 hback
  obtain ⟨out, hout, hout'⟩ := hidden_either none hmember hmember' hwalk hkey haccepts haccepts'
  have hnames : Text.replaceAll hostname hiddenHostname.toList (front ++ (naming lead gap value ++ back)) =
      Text.replaceAll hostname hiddenHostname.toList (front ++ (naming lead gap value' ++ back)) :=
    hout.eq.trans hout'.eq.symm
  rw [scrub, hnames]
  rfl

/-- The report of a provider inside another one, with a line end in front of the host name. -/
def nested (name : String) : List Char :=
  "\x7b\"rawIspInfo\":[\x7b\"ip\":\"192.0.2.7\",".toList ++
    (naming " ".toList "\n".toList name.toList ++ "\x7d]\x7d".toList)

theorem scrub_naming_nested : IsDocument (nested "dsl-7.example") ∧
    scrub (nested "dsl-7.example") = scrub (nested "\\\"hostname\\\":\\u00e9\\\\") := by
  have hfront : OpensMember "\x7b\"rawIspInfo\":[\x7b\"ip\":\"192.0.2.7\",".toList :=
    ⟨"\x7b\"rawIspInfo\":[\x7b\"ip\":\"192.0.2.7\"".toList, ',', [], by decide, .inr rfl, nofun⟩
  have hdocument : IsDocument (nested "dsl-7.example") := by decide +kernel
  have hblank : ∀ c ∈ " ".toList, Json.isGap c = true := List.all_eq_true.1 (by decide)
  have hline : ∀ c ∈ "\n".toList, Json.isGap c = true := List.all_eq_true.1 (by decide)
  exact ⟨hdocument, scrub_naming hfront hblank hline (by decide +kernel) (by decide +kernel) hdocument⟩

end Speedtest.Redaction
