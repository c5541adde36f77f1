import Speedtest.Proofs.Redaction.Walks
import Speedtest.Proofs.Service.Submissions

/-!
# Scrubbed documents

Scrubbing keeps a document a document, unless the pass for IPv6 meets a match that starts inside an escape. The pass for
host names puts a member in the place of a member, and the edge of a word keeps the pass for IPv4 off escapes. The text
of a provider that a record holds is scrubbed like any other.
-/
namespace Speedtest.Redaction

open Json (Stand Spot Accepts IsDocument next walk)
open Text (Pattern Meets Replaced)

/-! ## Passes over a document -/

/-- Where a pass finds something in a document, the new text leads to the same as what is found, unless it tears. Then
it leads nowhere. -/
structure Rewrites (p : Pattern) (new : List Char) (tears : Spot → Bool) : Prop where
  leads : ∀ before found rest q r, Led before q → found ≠ [] → p before (found ++ rest) = some found.length →
    Accepts q (found ++ rest) → walk q found = some r → tears q.spot = false → walk q new = some r
  tearing : ∀ q, tears q.spot = true → walk q new = none

/-- What a pass makes of a document is one exactly when nothing tears that it meets. -/
theorem accepts_replaced_iff {p : Pattern} {new : List Char} {tears : Spot → Bool} (hp : Rewrites p new tears)
    {before : Option Char} {s out : List Char} {q : Stand} (h : Replaced p new before s out) (hled : Led before q)
    (hs : Accepts q s) : Accepts q out ↔
      ∀ front found back r, Meets p before s front found back → walk q front = some r → tears r.spot = false := by
  -- The walks over the text and over the outcome stand at the same place wherever no match is under way.
  induction h generalizing q with
  | nil => exact ⟨fun _ _ _ _ _ hmeets _ => absurd rfl hmeets.ne_nil, fun _ => hs⟩
  | @keep before c s out hnone hrest ih =>
    obtain ⟨q', hnext, hs'⟩ := Json.next_of_accepts hs
    rw [Json.accepts_cons hnext, ih (led_next hnext) hs']
    constructor
    · intro hbehind front found back r hmeets hwalk
      obtain ⟨front', rfl, hmeets'⟩ := hmeets.of_none_cons hnone
      rw [Json.walk_step hnext] at hwalk
      exact hbehind front' found back r hmeets' hwalk
    · intro hall front found back r hmeets hwalk
      exact hall (c :: front) found back r (.kept hnone hmeets) (by rw [Json.walk_step hnext, hwalk])
  | @swap before taken rest out hne hmatch hrest ih =>
    obtain ⟨q', hwalkTaken, hs'⟩ := Json.walk_of_accepts hs
    cases htears : tears q.spot with
    | true =>
      constructor
      · intro hout
        obtain ⟨r, hr, -⟩ := Json.walk_of_accepts hout
        rw [hp.tearing q htears] at hr
        exact nomatch hr
      · intro hall
        rw [hall [] taken rest q (.here hne hmatch) rfl] at htears
        exact nomatch htears
    | false =>
      have hnew := hp.leads before taken rest q q' hled hne hmatch hs hwalkTaken htears
      rw [Json.accepts_append hnew, ih (led_walk hne hwalkTaken) hs']
      constructor
      · intro hbehind front found back r hmeets hwalk
        rcases hmeets.of_match hmatch with ⟨rfl, -, -⟩ | ⟨front', rfl, hmeets'⟩
        · obtain rfl := Option.some.inj hwalk
          exact htears
        · rw [Json.walk_append, hwalkTaken] at hwalk
          exact hbehind front' found back r hmeets' hwalk
      · intro hall front found back r hmeets hwalk
        refine hall (taken ++ front) found back r (.behind hne hmatch hmeets) ?_
        rw [Json.walk_append, hwalkTaken, Option.bind_some, hwalk]

theorem rewrites_hostname : Rewrites hostname hiddenHostname.toList fun _ => false where
  leads := by
    intro before found rest q r _ _ hmatch _ hwalk _
    obtain ⟨frames, hopen, rfl, -⟩ := passes_member (member_of_match hmatch) hwalk
    exact Json.walk_step hopen _
  tearing := nofun

theorem rewrites_v4 : Rewrites v4 placeholder.toList fun _ => false where
  leads := by
    intro before found rest q r hled hne hmatch hs hwalk _
    have hquoted := seeksAddresses_v4.quoted hmatch hs
    exact walk_placeholder hquoted (not_torn_of_v4 hled hmatch hs) hne (seeksAddresses_v4.mem_found hmatch) hwalk
  tearing := nofun

theorem rewrites_v6 : Rewrites v6 placeholder.toList torn where
  leads := by
    intro before found rest q r _ hne hmatch hs hwalk huntorn
    have hquoted := seeksAddresses_v6.quoted hmatch hs
    exact walk_placeholder hquoted huntorn hne (seeksAddresses_v6.mem_found hmatch) hwalk
  tearing := fun _ => walk_placeholder_of_torn

/-! ## Scrubbing a document -/

/-- The pass for IPv6 meets a match that starts inside an escape. -/
def Tears (t : List Char) : Prop :=
  ∃ front found back q,
    Meets v6 none (quadless t) front found back ∧ walk Json.start front = some q ∧ torn q.spot = true

/-- Host names and IPv4 addresses give way in a document without any harm to it. -/
theorem accepts_quadless {t : List Char} (h : Accepts Json.start t) : Accepts Json.start (quadless t) := by
  have hnames := (accepts_replaced_iff rewrites_hostname (Text.replaced_replaceAll hostname_fits t) led_start h).2
    fun _ _ _ _ _ _ => rfl
  exact (accepts_replaced_iff rewrites_v4 (seeksAddresses_v4.replaced _) led_start hnames).2
    fun _ _ _ _ _ _ => rfl

theorem accepts_scrub_iff {t : List Char} (h : Accepts Json.start t) : Accepts Json.start (scrub t) ↔ ¬ Tears t := by
  have hpass := seeksAddresses_v6.replaced (quadless t)
  rw [scrub_eq, accepts_replaced_iff rewrites_v6 hpass led_start (accepts_quadless h)]
  constructor
  · rintro hall ⟨front, found, back, q, hmeets, hwalk, htorn⟩
    rw [hall front found back q hmeets hwalk] at htorn
    exact nomatch htorn
  · intro hnot front found back q hmeets hwalk
    exact Bool.eq_false_iff.2 fun htorn => hnot ⟨front, found, back, q, hmeets, hwalk, htorn⟩

/-- Without backslashes there is no escape to tear. -/
theorem not_tears_of_no_slash {t : List Char} (h : '\\' ∉ t) : ¬ Tears t := by
  rintro ⟨front, found, back, q, hmeets, hwalk, htorn⟩
  have hslash : '\\' ∈ quadless t := by
    rw [hmeets.eq, List.append_assoc]
    exact List.mem_append_left _ (slash_of_torn rfl hwalk htorn)
  have hnames := ((seeksAddresses_v4.replaced _).mem hslash).resolve_right (by decide)
  exact h (((Text.replaced_replaceAll hostname_fits t).mem hnames).resolve_right (by decide))

end Speedtest.Redaction

namespace Speedtest.Service

open Json (IsDocument)
open Redaction (scrub scrubText Tears quadless)

theorem ispInfo_of_submitted {s : Service} {m : Moment} {r : Http.Request} {rec : Telemetry.Record}
    (h : submitted? s m r = some rec) : rec.ispInfo =
      if s.redactAddresses then scrubText (recordOf s (m, r)).ispInfo else (recordOf s (m, r)).ispInfo := by
  obtain ⟨client, form, -, hread, rfl⟩ := submitted?_eq_some h
  simp only [record, recordOf, textOf, lookup_readForm hread]
  rfl

/-- Of a document scrubbing makes a document again, unless the pass for IPv6 tears an escape, which takes a backslash in
the document. Where the text of a provider is a document, or is missing, so is what a record of it holds, under the same
condition. -/
theorem isDocument_scrub (t : List Char) (h : IsDocument t) :
    IsDocument (quadless t) ∧ (IsDocument (scrub t) ↔ ¬ Tears t) ∧ ('\\' ∉ t → IsDocument (scrub t)) ∧
    ∀ (s : Service) (m : Moment) (r : Http.Request) (rec : Telemetry.Record), submitted? s m r = some rec →
      (recordOf s (m, r)).ispInfo.toList = t →
        (IsDocument rec.ispInfo.toList ↔ (s.redactAddresses = true → ¬ Tears t)) := by
  have haccepts := Json.isDocument_iff.1 h
  have hscrub : IsDocument (scrub t) ↔ ¬ Tears t := Json.isDocument_iff.trans (Redaction.accepts_scrub_iff haccepts)
  refine ⟨Json.isDocument_iff.2 (Redaction.accepts_quadless haccepts), hscrub, ?_, ?_⟩
  · exact fun hslash => hscrub.2 (Redaction.not_tears_of_no_slash hslash)
  · intro s m r rec hrec htext
    rw [ispInfo_of_submitted hrec]
    cases s.redactAddresses with
    | true =>
      rw [if_pos rfl, scrubText, String.toList_ofList, htext, hscrub]
      exact ⟨fun hkept _ => hkept, fun hkept => hkept rfl⟩
    | false =>
      rw [if_neg Bool.false_ne_true, htext]
      exact ⟨nofun, fun _ => h⟩

/-- A name of a city with an escape behind which an address stands, and an address in a report. -/
theorem isDocument_scrub_torn : Tears "\"caf\\u00e9::1\"".toList ∧
    IsDocument (scrub "\x7b\"ip\":\"2001:db8::42\",\"loc\":[45.07,7.68]\x7d".toList) := by
  have hescaped : IsDocument "\"caf\\u00e9::1\"".toList := by decide +kernel
  have hlost : ¬ IsDocument (scrub "\"caf\\u00e9::1\"".toList) := by decide +kernel
  have hreport : IsDocument "\x7b\"ip\":\"2001:db8::42\",\"loc\":[45.07,7.68]\x7d".toList := by decide +kernel
  obtain ⟨-, htears, -⟩ := isDocument_scrub _ hescaped
  obtain ⟨-, -, hkept, -⟩ := isDocument_scrub _ hreport
  exact ⟨Classical.not_not.1 (mt htears.2 hlost), hkept (by decide)⟩

/-- Of the escape before an address only two digits are left. -/
theorem scrub_tears_escape : ¬ ∀ t, IsDocument t → IsDocument (scrub t) := by
  intro h
  have hescaped : IsDocument "\"caf\\u00e9::1\"".toList := by decide +kernel
  have hscrub : scrub "\"caf\\u00e9::1\"".toList = "\"caf\\u0.0.0.0\"".toList := by decide +kernel
  have hkept := h _ hescaped
  rw [hscrub] at hkept
  exact absurd hkept (by decide +kernel)

end Speedtest.Service
