import Speedtest.Proofs.Redaction.Delimited
import Speedtest.Proofs.Service.Storing

/-!
# IPv4 addresses in what is kept

An IPv4 address with neither digits nor dots on either side is taken out of a text unless a word character touches it:
next to a letter or an underscore it stays. The pass for IPv6 puts its placeholder behind digits that it leaves alone,
which may make up an address, but only one whose text ends like the placeholder. So much holds of the log and of what is
known of the provider in a record whose service hides addresses.
-/
namespace Speedtest.Redaction

open Address (V4)
open Text (Occurs Outside)

/-- What the text of an IPv4 address is made of. -/
def isNumeric (c : Char) : Bool := Text.isAsciiDigit c || c == '.'

theorem isDotted_of_isNumeric {c : Char} (h : isNumeric c = true) : isDotted c = true :=
  Bool.or_eq_true_iff.2 ((Bool.or_eq_true_iff.1 h).imp_left Text.isDigit_of_isAsciiDigit)

/-! ## Dots -/

theorem isNumeric_of_mem_text {a : V4} {c : Char} (h : c ∈ a.text) : isNumeric c = true := by
  have hoctet {o : UInt8} (hc : c ∈ V4.octetText o) : isNumeric c = true :=
    Bool.or_eq_true_iff.2 (.inl (V4.isAsciiDigit_of_mem_octetText hc))
  have hdot : isNumeric '.' = true := by decide
  simp only [V4.text_eq, List.mem_append, List.mem_cons] at h
  rcases h with h | rfl | h | rfl | h | rfl | h
  all_goals first | exact hdot | exact hoctet h

theorem isNumeric_of_mem_placeholder : ∀ c ∈ placeholder.toList, isNumeric c = true := List.all_eq_true.1 (by decide)

theorem placeholder_ne_nil : placeholder.toList ≠ [] := by decide

theorem text_ne_nil (a : V4) : a.text ≠ [] := by simp [V4.text_eq]

theorem count_dots (a : V4) : a.text.count '.' = 3 := by
  have hoctet (o : UInt8) : (V4.octetText o).count '.' = 0 :=
    no_dot_of_digits fun _ hc => Text.isDigit_of_isAsciiDigit (V4.isAsciiDigit_of_mem_octetText hc)
  simp [V4.text_eq, List.count_append, hoctet]

/-- A part of an address with the three dots of the placeholder leaves none to what is around it. -/
theorem no_dot_around {a : V4} {l r : List Char} (h : a.text = l ++ placeholder.toList ++ r) : '.' ∉ l ∧ '.' ∉ r := by
  have hcount := count_dots a
  have hplaceholder : placeholder.toList.count '.' = 3 := by decide
  rw [h, List.count_append, List.count_append, hplaceholder] at hcount
  exact ⟨List.count_eq_zero.1 (by omega), List.count_eq_zero.1 (by omega)⟩

/-- An address that holds the placeholder ends with it, as its last octet has no zero in front of other digits. -/
theorem eq_nil_behind_placeholder {a : V4} {l r : List Char} (h : a.text = l ++ placeholder.toList ++ r) : r = [] := by
  obtain ⟨hl, hr⟩ := no_dot_around h
  have hother {s : List Char} (hs : '.' ∉ s) : ∀ c ∈ s, (c != '.') = true :=
    fun c hc => bne_iff_ne.2 fun hdot => hs (hdot ▸ hc)
  have hoctet (o : UInt8) : ∀ c ∈ V4.octetText o, (c != '.') = true :=
    fun c hc => bne_iff_ne.2 fun hdot => absurd (V4.isAsciiDigit_of_mem_octetText hc) (by rw [hdot]; decide)
  have hstop (s : List Char) : Text.Stops (· != '.') ('.' :: s) := Text.stops_cons (by decide) s
  have hzero : ∀ c ∈ ['0'], (c != '.') = true := List.all_eq_true.1 (by decide)
  have htext : V4.octetText a.o1 ++ '.' :: (V4.octetText a.o2 ++ '.' :: (V4.octetText a.o3 ++ '.' :: V4.octetText a.o4)) =
      (l ++ ['0']) ++ '.' :: (['0'] ++ '.' :: (['0'] ++ '.' :: ('0' :: r))) := by
    rw [← V4.text_eq, h]
    simp [placeholder]
  have hfirst : ∀ c ∈ l ++ ['0'], (c != '.') = true := fun c hc => (List.mem_append.1 hc).elim (hother hl c) (hzero c)
  -- The octets are read off one after another, up to the last one.
  have htail (s t : List Char) (o : UInt8) (run : List Char) (hrun : ∀ c ∈ run, (c != '.') = true)
      (hst : V4.octetText o ++ '.' :: s = run ++ '.' :: t) : s = t :=
    (List.cons.inj (Text.run_append_inj (hoctet o) hrun (hstop s) (hstop t) hst).2).2
  have hlast := htail _ _ _ _ hzero (htail _ _ _ _ hzero (htail _ _ _ _ hfirst htext))
  have hdigits : V4.octetText a.o4 = ['0'] := Text.decimal_of_head? (by rw [← V4.octetText, hlast]; rfl)
  rw [hdigits] at hlast
  exact (List.cons.inj hlast).2.symm

/-! ## The passes -/

section Passes

variable {a : V4} {before after : Option Char} {s : List Char}

/-- The pass for IPv6 leaves an address only where it stood, or makes one that ends with the placeholder. -/
theorem occurs_of_v6 (hout : Outside isNumeric before after)
    (h : Occurs before after a.text (Text.replaceAll v6 placeholder.toList s)) :
    placeholder.toList <:+ a.text ∨ Occurs before after a.text s := by
  rcases h.of_replaceAll v6_fits placeholder_ne_nil isNumeric_of_mem_placeholder (fun _ => isNumeric_of_mem_text)
    (text_ne_nil a) hout with ⟨hthere, -⟩ | ⟨l, r, -, hsplit, -⟩
  · exact .inr hthere
  · obtain rfl := eq_nil_behind_placeholder hsplit
    exact .inl ⟨l, by rw [hsplit, List.append_nil]⟩

/-- An address that is no match where it starts is touched. -/
theorem touched_of_v4 {back : List Char} (h : v4 before (a.text ++ back) = none) : Touched before back.head? := by
  by_cases hstop : Text.Stops Text.isDigit back
  · rw [v4_text a before hstop] at h
    refine Decidable.byContradiction fun htouched => ?_
    rw [if_neg htouched] at h
    exact nomatch h
  · -- A digit of another script is a word character, too.
    obtain ⟨c, hc, hdigit⟩ : ∃ c, back.head? = some c ∧ Text.isDigit c = true := by
      simpa [Text.Stops] using hstop
    refine .inr ?_
    rw [hc, Option.any_some, isWord_of_isDigit hdigit]

/-- The pass for IPv4 leaves an address only where a word character touches it, unless it is the placeholder. -/
theorem occurs_of_v4 (hout : Outside isNumeric before after)
    (h : Occurs before after a.text (Text.replaceAll v4 placeholder.toList s)) :
    a.text = placeholder.toList ∨ Touched before after ∧ Occurs before after a.text s := by
  rcases h.of_replaceAll v4_fits placeholder_ne_nil isNumeric_of_mem_placeholder (fun _ => isNumeric_of_mem_text)
    (text_ne_nil a) hout with ⟨hthere, back, rfl, hnone⟩ | ⟨l, r, rest, hsplit, hmatch⟩
  · exact .inr ⟨touched_of_v4 hnone, hthere⟩
  · -- A match does not follow a digit, so the placeholder stands at the front.
    obtain ⟨n, hn⟩ := Option.isSome_iff_exists.1 hmatch
    obtain ⟨-, -, -, -, -, -, hword⟩ := v4_eq_some hn
    obtain rfl := eq_nil_behind_placeholder hsplit
    rcases List.eq_nil_or_concat l with rfl | ⟨l, c, rfl⟩
    · exact .inl (by rw [hsplit, List.nil_append, List.append_nil])
    · rw [List.concat_eq_append] at hsplit hword
      have hmem : c ∈ a.text := by simp [hsplit]
      have hdot : c ≠ '.' := by
        rintro rfl
        exact (no_dot_around hsplit).1 (by simp)
      have hdigit : Text.isAsciiDigit c = true := by simpa [isNumeric, hdot] using isNumeric_of_mem_text hmem
      rw [List.getLast?_concat, Option.some_or, Option.any_some,
        isWord_of_isDigit (Text.isDigit_of_isAsciiDigit hdigit)] at hword
      exact nomatch hword

theorem isDotted_of_mem_match {found rest : List Char} (h : v4 before (found ++ rest) = some found.length) :
    ∀ c ∈ found, isDotted c = true := by
  obtain ⟨found', rest', hsplit, hlength, hdotted, -⟩ := v4_eq_some h
  rw [(List.append_inj hsplit hlength.symm).1]
  exact hdotted

/-- No match starts inside an address: it would need three dots, and a dot or no digit in front of it. -/
theorem v4_inside {l r back : List Char} {c : Char} (hsplit : a.text = l ++ [c] ++ r)
    (hafter : Text.Stops isDotted back) : v4 (some c) (r ++ back) = none := by
  cases hv4 : v4 (some c) (r ++ back) with
  | none => rfl
  | some n =>
    obtain ⟨found, rest, hcut, -, hdotted, hdots, hword⟩ := v4_eq_some hv4
    have hr : ∀ d ∈ r, isDotted d = true := fun d hd =>
      isDotted_of_isNumeric (isNumeric_of_mem_text (a := a) (by rw [hsplit]; exact List.mem_append_right _ hd))
    -- The match ends with the address, as the character behind it is no part of a match.
    have hlead : found <+: r := by
      have hrun := Text.takeWhile_run hr hafter
      rw [hcut, List.takeWhile_append_of_pos hdotted] at hrun
      exact ⟨_, hrun⟩
    have hdot : c = '.' := by
      have hc : isNumeric c = true := isNumeric_of_mem_text (a := a) (by simp [hsplit])
      rcases Bool.or_eq_true_iff.1 hc with hdigit | hdot
      · rw [Option.any_some, isWord_of_isDigit (Text.isDigit_of_isAsciiDigit hdigit)] at hword
        exact nomatch hword
      · exact beq_iff_eq.1 hdot
    have hcount := count_dots a
    have hfound := hlead.sublist.count_le '.'
    rw [hsplit, List.count_append, List.count_append, hdot, List.count_singleton_self] at hcount
    omega

/-- An address that a word character touches stays in the pass for IPv4. -/
theorem occurs_v4 (hout : Outside isDotted before after) (htouched : Touched before after)
    (h : Occurs before after a.text s) : Occurs before after a.text (Text.replaceAll v4 placeholder.toList s) := by
  refine h.stays v4_fits (fun _ _ _ => isDotted_of_mem_match) hout ?_
  rintro back rfl l r hsplit hr
  rcases List.eq_nil_or_concat l with rfl | ⟨l, c, rfl⟩
  · have hstop : Text.Stops Text.isDigit back := fun c hc => (Bool.or_eq_false_iff.1 (hout.2 c hc)).1
    obtain rfl : a.text = r := hsplit
    rw [List.getLast?_nil, Option.none_or, v4_text a before hstop, if_pos htouched]
  · rw [List.concat_eq_append] at hsplit ⊢
    rw [List.getLast?_concat, Option.some_or]
    exact v4_inside hsplit hout.2

end Passes

/-! ## Texts without colons -/

theorem hostname_of_no_colon {before : Option Char} {s : List Char} (h : ':' ∉ s) : hostname before s = none := by
  rw [hostname]
  split
  · rfl
  · rename_i rest hlead
    obtain rfl := Text.dropLead?_eq_some_iff.1 hlead
    dsimp only
    split
    · rename_i t hcolon
      have hmem : ':' ∈ rest := List.mem_of_mem_drop (hcolon ▸ List.mem_cons_self)
      exact absurd (List.mem_append_right _ hmem) h
    · rfl

/-- Without colons only the pass for IPv4 changes a text. -/
theorem scrub_of_no_colon {s : List Char} (h : ':' ∉ s) : scrub s = Text.replaceAll v4 placeholder.toList s := by
  have hhostname : Text.replaceAll hostname hiddenHostname.toList s = s :=
    Text.replaceAll_eq_self fun _ _ hrest => hostname_of_no_colon fun hcolon => h (hrest.mem hcolon)
  have hcolon : ':' ∉ Text.replaceAll v4 placeholder.toList s := fun hmem =>
    ((Text.replaced_replaceAll v4_fits s).mem hmem).elim h (by decide)
  rw [scrub, hhostname]
  exact replaceAll_v6_of_no_colon hcolon _

theorem text_eq_placeholder_iff {a : V4} : a.text = placeholder.toList ↔ a = .unspecified := by
  have hplaceholder : V4.unspecified.text = placeholder.toList := by decide
  refine ⟨fun h => ?_, fun h => h ▸ hplaceholder⟩
  have hread := a.ofText?_text
  rw [h, ← hplaceholder, V4.ofText?_text] at hread
  exact (Option.some.inj hread).symm

/-- What is left of an address by scrubbing, between neighbours that are neither digits nor dots. -/
theorem occurs_of_scrub {a : V4} {before after : Option Char} (hout : Outside isNumeric before after) {t : List Char}
    (h : Occurs before after a.text (scrub t)) :
    placeholder.toList <:+ a.text ∨
      Touched before after ∧ Occurs before after a.text (Text.replaceAll hostname hiddenHostname.toList t) := by
  rcases occurs_of_v6 hout h with hsuffix | h
  · exact .inl hsuffix
  · rcases occurs_of_v4 hout h with hsame | htouched
    · exact .inl (hsame ▸ List.suffix_rfl)
    · exact .inr htouched

end Speedtest.Redaction

namespace Speedtest.Service

open Address (V4)
open Redaction (scrub scrubText placeholder hostname hiddenHostname isNumeric isDotted Touched)
open Text (Occurs Outside)

/-- An address between neighbours that are neither digits nor dots: scrubbing leaves it, if it does not end like the
placeholder, only where a word character touches it, and in a text without colons exactly there. A record of a service
that hides addresses has no other ones in it. -/
theorem scrubbed_quads (a : V4) (before after : Option Char) :
    (Outside isNumeric before after → ∀ t, Occurs before after a.text (scrub t) →
      placeholder.toList <:+ a.text ∨
        Touched before after ∧ Occurs before after a.text (Text.replaceAll hostname hiddenHostname.toList t)) ∧
    (Outside isDotted before after → a ≠ .unspecified → ∀ t, ':' ∉ t →
      (Occurs before after a.text (scrub t) ↔ Touched before after ∧ Occurs before after a.text t)) ∧
    (Outside isNumeric before after → ¬ Touched before after → ¬ placeholder.toList <:+ a.text →
      ∀ (s : Service) (m : Moment) (r : Http.Request) (rec : Telemetry.Record), s.redactAddresses = true →
        submitted? s m r = some rec → rec.ipAddress = "0.0.0.0" ∧
          ¬ Occurs before after a.text rec.log.toList ∧ ¬ Occurs before after a.text rec.ispInfo.toList) := by
  refine ⟨fun hout t => Redaction.occurs_of_scrub hout, ?_, ?_⟩
  · intro hout hne t hcolon
    have hnumeric : Outside isNumeric before after := hout.mono fun _ => Redaction.isDotted_of_isNumeric
    rw [Redaction.scrub_of_no_colon hcolon]
    constructor
    · intro h
      exact (Redaction.occurs_of_v4 hnumeric h).resolve_left (mt Redaction.text_eq_placeholder_iff.1 hne)
    · rintro ⟨htouched, h⟩
      exact Redaction.occurs_v4 hout htouched h
  · intro hout htouched hsuffix s m r rec hhides hrec
    have hscrubbed (text : String) : ¬ Occurs before after a.text (scrubText text).toList := by
      intro h
      rw [scrubText, String.toList_ofList] at h
      exact (Redaction.occurs_of_scrub hout h).elim hsuffix fun h => htouched h.1
    obtain ⟨client, form, -, -, rfl⟩ := submitted?_eq_some hrec
    simp only [record, hhides, if_true]
    exact ⟨rfl, hscrubbed _, hscrubbed _⟩

/-- A report over a network whose name ends in an underscore, with an address that stands apart in its log. -/
def wan : Http.Request where
  method := "POST"
  target := ⟨"/results/telemetry", none⟩
  headers := []
  body := .ofBytes (Bytes.ofAscii "log=wan_10.1.2.3+via+203.0.113.9")
  peer := some (.v4 ⟨203, 0, 113, 9⟩ 51000)

def discreet : Service := { plain "secret" with redactAddresses := true }

/-- An address behind an underscore stays, and one behind a blank is taken out. -/
theorem scrubbed_quads_wan :
    Occurs (some '_') (some ' ') "10.1.2.3".toList (scrub "wan_10.1.2.3 via 203.0.113.9".toList) ∧
    ¬ Occurs (some ' ') none "203.0.113.9".toList (scrub "wan_10.1.2.3 via 203.0.113.9".toList) ∧
    ∃ rec, submitted? discreet ⟨.epoch, "record", "request", .refused⟩ wan = some rec ∧
      ¬ Occurs (some ' ') none "203.0.113.9".toList rec.log.toList := by
  have hunderscore : Outside isDotted (some '_') (some ' ') := ⟨by rintro c ⟨⟩; decide, by rintro c ⟨⟩; decide⟩
  have hblank : Outside isNumeric (some ' ') none := ⟨by rintro c ⟨⟩; decide, nofun⟩
  have huntouched : ¬ Touched (some ' ') none := by decide
  have hsuffix : ¬ placeholder.toList <:+ (V4.mk 203 0 113 9).text := by decide
  obtain ⟨-, hkept, -⟩ := scrubbed_quads ⟨10, 1, 2, 3⟩ (some '_') (some ' ')
  obtain ⟨hleft, -, hrecord⟩ := scrubbed_quads ⟨203, 0, 113, 9⟩ (some ' ') none
  refine ⟨?_, ?_, ?_⟩
  · refine (hkept hunderscore (by decide) _ (by decide)).2 ⟨by decide, ?_⟩
    exact ⟨"wan_".toList, " via 203.0.113.9".toList, by decide, by decide, by decide⟩
  · exact fun h => (hleft hblank _ h).elim hsuffix fun h => huntouched h.1
  · obtain ⟨rec, hrec⟩ := Option.isSome_iff_exists.1
      (by decide +kernel : (submitted? discreet ⟨.epoch, "record", "request", .refused⟩ wan).isSome = true)
    obtain ⟨-, hlog, -⟩ := hrecord hblank huntouched hsuffix discreet _ wan rec rfl hrec
    exact ⟨rec, hrec, hlog⟩

/-- An address behind the letter of an escape stays where it stood. -/
theorem kept_behind_escape : ¬ ∀ (a : V4) (before after : Option Char) (t : List Char), a ≠ .unspecified →
    Outside isDotted before after → Occurs before after a.text t → ¬ Occurs before after a.text (scrub t) := by
  intro h
  have hscrub : scrub "started\\n203.0.113.9 end".toList = "started\\n203.0.113.9 end".toList := by decide +kernel
  have hthere : Occurs (some 'n') (some ' ') (V4.mk 203 0 113 9).text "started\\n203.0.113.9 end".toList :=
    ⟨"started\\n".toList, " end".toList, by decide +kernel, by decide, by decide⟩
  have hout : Outside isDotted (some 'n') (some ' ') := ⟨by rintro c ⟨⟩; decide, by rintro c ⟨⟩; decide⟩
  refine h ⟨203, 0, 113, 9⟩ (some 'n') (some ' ') _ (by decide) hout hthere ?_
  rw [hscrub]
  exact hthere

end Speedtest.Service
