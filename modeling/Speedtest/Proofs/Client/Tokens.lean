import Speedtest.Client.Query
import Speedtest.Proofs.Access.Passwords

/-!
# A password as a token and as a parameter

A password may be presented as a bearer's token or as a parameter. A parameter is any text, but a field is one only
where its bytes are visible ASCII, and a field loses the blanks at its end on the way to the server. So the two ways
part for the password that is set where it is not ASCII, and what the client sends is of no use where the password
ends in a blank either.
-/
namespace Speedtest

/-! ## Fields -/

namespace Http.Headers

/-- Among the bytes that a value may have, those of a text are the ASCII ones. -/
theorem isVisible_iff_ascii {b : UInt8} (h : isValueByte b = true) : isVisible b = true ↔ b.toNat < 0x80 := by
  have h20 : (0x20 : UInt8).toNat = 0x20 := rfl
  have h7F : (0x7F : UInt8).toNat = 0x7F := rfl
  have h09 : (0x09 : UInt8).toNat = 0x09 := rfl
  rw [isVisible_iff]
  simp only [isValueByte, Bool.or_eq_true, Bool.and_eq_true, decide_eq_true_eq, beq_iff_eq, bne_iff_ne, ne_eq,
    UInt8.le_iff_toNat_le, ← UInt8.toNat_inj] at h
  omega

/-- A value that starts with something else than a blank arrives whole where it does not end in a blank. -/
theorem carried_eq_self_iff {b : UInt8} {rest : Bytes} (hfirst : (b == 0x20 || b == 0x09) = false) :
    carried (b :: rest) = b :: rest ↔
      ∀ last, (b :: rest).getLast? = some last → (last == 0x20 || last == 0x09) = false := by
  have hdrop : (b :: rest).dropWhile (fun b => b == 0x20 || b == 0x09) = b :: rest := by
    rw [List.dropWhile_cons, hfirst]
    rfl
  rw [carried, Text.trimBy, hdrop]
  exact Text.dropBack_eq_self_iff

end Http.Headers

namespace Client

open Access (PasswordGate)
open Http.Headers (isValueByte isVisible carried)

def IsAscii (t : String) : Prop := ∀ c ∈ t.toList, c.toNat < 0x80

theorem ascii_bearer : IsAscii "Bearer " := Text.forall_of_all (by decide)

/-! ## Tokens -/

theorem bearerToken_inj {t u : String} (h : bearerToken t = bearerToken u) : t = u := by
  have hlist := Text.Utf8.encode_inj h
  rw [String.toList_append, String.toList_append] at hlist
  exact String.toList_inj.1 (List.append_cancel_left hlist)

/-- A token that may stand in a field is a text where the password is ASCII. -/
theorem visible_bearerToken_iff {t : String} (h : (bearerToken t).all isValueByte = true) :
    (∀ b ∈ bearerToken t, isVisible b = true) ↔ IsAscii t := by
  have hvalue (b : UInt8) (hb : b ∈ bearerToken t) :=
    Http.Headers.isVisible_iff_ascii (List.all_eq_true.1 h b hb)
  calc (∀ b ∈ bearerToken t, isVisible b = true)
      ↔ ∀ b ∈ bearerToken t, b.toNat < 0x80 := forall₂_congr hvalue
    _ ↔ ∀ c ∈ ("Bearer " ++ t).toList, c.toNat < 0x80 := Text.Utf8.ascii_encode_iff
    _ ↔ IsAscii t := by
      rw [String.toList_append, List.forall_mem_append]
      exact and_iff_right ascii_bearer

/-- An ASCII character is a blank where its byte is one. -/
theorem blank_ofNat_iff {c : Char} (h : c.toNat < 0x80) :
    (UInt8.ofNat c.toNat == 0x20 || UInt8.ofNat c.toNat == 0x09) = false ↔ c ≠ ' ' ∧ c ≠ '\t' := by
  have hbyte : (UInt8.ofNat c.toNat).toNat = c.toNat := UInt8.toNat_ofNat_of_lt' (Nat.lt_trans h (by decide))
  have hspace : c = ' ' ↔ c.toNat = 0x20 := Char.toNat_inj.symm
  have htab : c = '\t' ↔ c.toNat = 0x09 := Char.toNat_inj.symm
  rw [Bool.or_eq_false_iff, beq_eq_false_iff_ne, beq_eq_false_iff_ne, ne_eq, ne_eq, ne_eq, ne_eq, ← UInt8.toNat_inj,
    ← UInt8.toNat_inj, hbyte, hspace, htab]
  rfl

/-- A token of ASCII arrives whole where the password does not end in a blank. -/
theorem carried_bearerToken_iff {t : String} (hset : t ≠ "") (hascii : IsAscii t) :
    carried (bearerToken t) = bearerToken t ↔ ∀ c, t.toList.getLast? = some c → c ≠ ' ' ∧ c ≠ '\t' := by
  have hchars : ∀ c ∈ ("Bearer " ++ t).toList, c.toNat < 0x80 := by
    rw [String.toList_append]
    exact List.forall_mem_append.2 ⟨ascii_bearer, hascii⟩
  have hbytes : bearerToken t = ("Bearer ".toList ++ t.toList).map fun c => UInt8.ofNat c.toNat := by
    rw [← String.toList_append]
    exact Text.Utf8.encode_of_ascii hchars
  have hnonempty : t.toList ≠ [] := fun h => hset (String.toList_eq_nil_iff.1 h)
  have hlast : (bearerToken t).getLast? = some (UInt8.ofNat (t.toList.getLast hnonempty).toNat) := by
    rw [hbytes, List.getLast?_map, List.getLast?_append, List.getLast?_eq_some_getLast hnonempty]
    rfl
  have hend := blank_ofNat_iff (hascii _ (List.getLast_mem hnonempty))
  have hwhole : carried (bearerToken t) = bearerToken t ↔
      ∀ last, (bearerToken t).getLast? = some last → (last == 0x20 || last == 0x09) = false := by
    rw [hbytes]
    exact Http.Headers.carried_eq_self_iff (by decide)
  rw [hwhole, hlast, List.getLast?_eq_some_getLast hnonempty]
  constructor
  · rintro hbyte c hc
    obtain rfl := Option.some.inj hc
    exact hend.1 (hbyte _ rfl)
  · rintro hchar b hb
    obtain rfl := Option.some.inj hb
    exact hend.2 (hchar _ rfl)

/-! ## Gates -/

theorem authorize_parameter_iff {g : PasswordGate} {t : String} :
    g.authorize [] [("password", t)] = true ↔ g.isConfigured = true ∧ t = g.password := by
  rw [PasswordGate.authorize_cases]
  refine and_congr_right fun _ => ?_
  constructor
  · rintro (⟨value, hvalue, -⟩ | h)
    · exact nomatch hvalue
    · exact Option.some.inj h
  · rintro rfl
    exact .inr rfl

/-- A single field gets past the gate where it is the token of the password and a text. -/
theorem authorize_field_iff {g : PasswordGate} {value : Bytes} :
    g.authorize [("authorization", value)] [] = true ↔
      g.isConfigured = true ∧ (∀ b ∈ value, isVisible b = true) ∧ value = bearerToken g.password := by
  rw [PasswordGate.authorize_cases]
  refine and_congr_right fun _ => ?_
  constructor
  · rintro (⟨found, hfound, hvisible, htoken⟩ | h)
    · obtain rfl := Option.some.inj hfound
      exact ⟨hvisible, htoken⟩
    · exact nomatch h
  · rintro ⟨hvisible, htoken⟩
    exact .inl ⟨value, rfl, hvisible, htoken⟩

theorem authorize_token_iff {g : PasswordGate} {t : String} (h : (bearerToken t).all isValueByte = true) :
    g.authorize [("authorization", bearerToken t)] [] = true ↔
      g.isConfigured = true ∧ t = g.password ∧ IsAscii t := by
  rw [authorize_field_iff, visible_bearerToken_iff h]
  refine and_congr_right fun _ => ?_
  constructor
  · rintro ⟨hascii, htoken⟩
    exact ⟨bearerToken_inj htoken, hascii⟩
  · rintro ⟨rfl, hascii⟩
    exact ⟨hascii, rfl⟩

/-- A question that is built carries the token of its password, which may stand in a field. -/
theorem authorization_of_build {base password : String} {subject : CommandLine.Stats.Subject} {q : Query}
    (h : Query.build base password subject = .ok q) :
    q.authorization = bearerToken password ∧ (bearerToken password).all isValueByte = true := by
  unfold Query.build at h
  dsimp only at h
  split at h
  case isTrue hlegal =>
    cases hurl : locator base subject with
    | error fault =>
      rw [hurl] at h
      exact nomatch h
    | ok url =>
      rw [hurl] at h
      obtain rfl := Except.ok.inj h
      exact ⟨rfl, hlegal⟩
  case isFalse => exact nomatch h

theorem headers_of_arriving {q : Query} {peer : Option Address.Endpoint} {r : Http.Request}
    (h : q.arriving? peer = some r) : r.headers = [("authorization", carried q.authorization)] := by
  obtain ⟨target, -, rfl⟩ := Option.map_eq_some_iff.1 h
  rfl

/-- A password that may stand in a field is as good as a token as it is as a parameter, unless it is the one that is
set and not ASCII. The client gets in with the password that is set exactly where this is ASCII and does not end in a
blank. -/
theorem presented_alike_iff (g : PasswordGate) (t : String) (h : (bearerToken t).all isValueByte = true) :
    (g.authorize [("authorization", bearerToken t)] [] = g.authorize [] [("password", t)] ↔
      (g.isConfigured = true → t = g.password → IsAscii t)) ∧
    ∀ base subject q peer r, Query.build base g.password subject = .ok q → q.arriving? peer = some r →
      g.isConfigured = true →
      (g.authorize r.headers [] = true ↔
        IsAscii g.password ∧ ∀ c, g.password.toList.getLast? = some c → c ≠ ' ' ∧ c ≠ '\t') := by
  constructor
  · rw [Bool.eq_iff_iff, authorize_token_iff h, authorize_parameter_iff]
    constructor
    · intro hsame hset hpassword
      exact (hsame.2 ⟨hset, hpassword⟩).2.2
    · intro hascii
      constructor
      · rintro ⟨hset, hpassword, -⟩
        exact ⟨hset, hpassword⟩
      · rintro ⟨hset, hpassword⟩
        exact ⟨hset, hpassword, hascii hset hpassword⟩
  · intro base subject q peer r hbuild harrives hset
    obtain ⟨htoken, hlegal⟩ := authorization_of_build hbuild
    have hnonempty := (PasswordGate.isConfigured_iff.1 hset).1
    rw [headers_of_arriving harrives, htoken, authorize_field_iff]
    constructor
    · rintro ⟨-, hvisible, hwhole⟩
      rw [hwhole] at hvisible
      have hascii := (visible_bearerToken_iff hlegal).1 hvisible
      exact ⟨hascii, (carried_bearerToken_iff hnonempty hascii).1 hwhole⟩
    · rintro ⟨hascii, hlast⟩
      have hwhole := (carried_bearerToken_iff hnonempty hascii).2 hlast
      rw [hwhole]
      exact ⟨hset, (visible_bearerToken_iff hlegal).2 hascii, rfl⟩

theorem presented_alike_iff_words :
    let g : PasswordGate := ⟨"s3cret words"⟩
    (bearerToken "s3cret words").all isValueByte = true ∧
    g.authorize [("authorization", bearerToken "s3cret words")] [] = g.authorize [] [("password", "s3cret words")] ∧
    ∃ q r, Query.build "http://localhost:8989" "s3cret words" .last = .ok q ∧ q.arriving? none = some r ∧
      g.authorize r.headers [] = true := by
  intro g
  have hlegal : (bearerToken "s3cret words").all isValueByte = true := by decide +kernel
  have hascii : IsAscii "s3cret words" := Text.forall_of_all (by decide)
  have hlast : ∀ c, "s3cret words".toList.getLast? = some c → c ≠ ' ' ∧ c ≠ '\t' := by
    rintro c hc
    obtain rfl := Option.some.inj hc
    decide
  have hset : g.isConfigured = true := by decide
  have hgate := presented_alike_iff g "s3cret words" hlegal
  have hasked : ((Query.build "http://localhost:8989" "s3cret words" .last).toOption.bind
      (·.arriving? none)).isSome = true := by decide +kernel
  obtain ⟨r, hr⟩ := Option.isSome_iff_exists.1 hasked
  obtain ⟨q, hq, harrives⟩ := Option.bind_eq_some_iff.1 hr
  have hbuild : Query.build "http://localhost:8989" "s3cret words" .last = .ok q := by
    cases hbuilt : Query.build "http://localhost:8989" "s3cret words" .last with
    | error fault =>
      rw [hbuilt] at hq
      exact nomatch hq
    | ok built =>
      rw [hbuilt] at hq
      exact congrArg Except.ok (Option.some.inj hq)
  refine ⟨hlegal, hgate.1.2 fun _ _ => hascii, q, r, hbuild, harrives, ?_⟩
  exact (hgate.2 _ _ q none r hbuild harrives hset).2 ⟨hascii, hlast⟩

/-- A password with an umlaut may stand in a field, and is accepted as a parameter only. -/
theorem presented_unlike_umlaut :
    let g : PasswordGate := ⟨"pässword"⟩
    g.isConfigured = true ∧ (bearerToken "pässword").all isValueByte = true ∧
      g.authorize [("authorization", bearerToken "pässword")] [] = false ∧
      g.authorize [] [("password", "pässword")] = true := by
  decide +kernel

end Client
end Speedtest
