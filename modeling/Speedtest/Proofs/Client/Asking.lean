import Speedtest.Program
import Speedtest.Proofs.Client.Tokens
import Speedtest.Proofs.Form
import Speedtest.Proofs.Http.Mounting
import Speedtest.Proofs.Service.Retrieval
import Speedtest.Proofs.Url.Below

/-!
# Asking for one result

The client puts an identifier into the query of a locator, with whatever it takes to write it there, and the service
reads the query on its own. For every text the two are inverse to one another: the service is asked below any base that
leads to it, with any number of slashes at the end, it lets the client pass, and it sees the identifier as it was given
and no parameter besides.
-/
namespace Speedtest

/-! ## Characters of a request -/

theorem forall_byte {P : UInt8 → Bool} (h : ∀ n < 256, P (UInt8.ofNat n) = true) (b : UInt8) : P b = true := by
  have hb := h b.toNat b.toNat_lt
  rwa [UInt8.ofNat_toNat] at hb

namespace Http.Target

theorem isPathChar_of_isKept {segment : List Char} (h : Url.IsKept segment) :
    ∀ c ∈ segment, isPathChar c = true := by
  obtain ⟨s, rfl⟩ := h
  intro c hc
  obtain ⟨b, -, hb⟩ := List.mem_flatMap.1 hc
  have hall := forall_byte (P := fun b => (if Url.Escape.path b then [Char.ofNat b.toNat] else Text.Percent.escaped b).all
    isPathChar) (by decide +kernel) b
  exact List.all_eq_true.1 hall c hb

/-- What is written for a query may stand in one, and is ASCII. -/
theorem isQueryChar_of_written {p : String × String} :
    ∀ c ∈ Form.writePair p, isQueryChar c = true ∧ c.toNat < 0x80 := by
  have hpart (s : String) : ∀ c ∈ Form.encodePart s, isQueryChar c = true ∧ c.toNat < 0x80 := by
    intro c hc
    obtain ⟨b, -, hb⟩ := List.mem_flatMap.1 hc
    have hall := forall_byte (P := fun b => (if b == 0x20 then ['+'] else if Form.isPlain b then [Char.ofNat b.toNat]
      else Text.Percent.escaped b).all fun c => isQueryChar c && c.toNat < 0x80) (by decide +kernel) b
    simpa using List.all_eq_true.1 hall c hb
  intro c hc
  rcases List.mem_append.1 hc with hc | hc
  · exact hpart p.1 c hc
  · rcases List.mem_cons.1 hc with rfl | hc
    · decide
    · exact hpart p.2 c hc

/-- A path and a query are read back from their text. -/
theorem ofText?_of_parts {path query : List Char} (hstart : path.head? = some '/')
    (hpath : ∀ c ∈ path, isPathChar c = true) (hquery : ∀ c ∈ query, isQueryChar c = true)
    (hfits : (String.ofList (path ++ '?' :: query)).utf8ByteSize ≤ maxLength) :
    ofText? (String.ofList (path ++ '?' :: query)) = some ⟨String.ofList path, some (String.ofList query)⟩ := by
  have hmark : ∀ c ∈ path, (c != '?') = true := by
    intro c hc
    rw [bne_iff_ne]
    exact Text.ne_of_kind (hpath c hc) (by decide)
  have hhash : ∀ c ∈ path ++ '?' :: query, (c != '#') = true := by
    intro c hc
    rw [bne_iff_ne]
    rcases List.mem_append.1 hc with hc | hc
    · exact Text.ne_of_kind (hpath c hc) (by decide)
    · rcases List.mem_cons.1 hc with rfl | hc
      · decide
      · exact Text.ne_of_kind (hquery c hc) (by decide)
  have hwhole : (path ++ '?' :: query).takeWhile (· != '#') = path ++ '?' :: query := by
    have hrun := Text.takeWhile_run hhash (Text.stops_nil _)
    rwa [List.append_nil] at hrun
  have hstop : Text.Stops (· != '?') ('?' :: query) := Text.stops_cons (by decide) query
  have hall : path.all isPathChar = true ∧ query.all isQueryChar = true :=
    ⟨List.all_eq_true.2 hpath, List.all_eq_true.2 hquery⟩
  have hread : ofPathText? (path ++ '?' :: query) = some ⟨String.ofList path, some (String.ofList query)⟩ := by
    have hempty : path.isEmpty = false := by
      cases path with
      | nil => exact nomatch hstart
      | cons => rfl
    simp only [ofPathText?, hwhole, Text.takeWhile_run hmark hstop, Text.dropWhile_run hmark hstop, hempty]
    simp [hall]
  obtain ⟨rest, rfl⟩ := List.head?_eq_some_iff.1 hstart
  rw [ofText?, if_neg (Nat.not_lt.2 hfits), String.toList_ofList]
  exact hread

end Http.Target

namespace Form

/-- A pair is read back from what the writer makes of it. -/
theorem read_encode_writePair (p : String × String) : read (Text.Utf8.encode (writePair p)) = [p] := by
  rw [Text.Utf8.encode_of_ascii fun c hc => (Http.Target.isQueryChar_of_written c hc).2]
  exact read_of_writes (.one (writesPair_writePair p))

end Form

namespace Client

open Access (PasswordGate)
open Service (Asks Endpoint loginParameters)

/-! ## Bases -/

/-- A base of a service: a locator on the web, written without slashes at its end, whose path is where the service is
mounted, or where it answers older frontends. -/
structure IsBase (s : Service) (base : String) (u : Url) : Prop where
  bare : base.toList.getLast? ≠ some '/'
  read : Url.ofText (base.toList ++ ['/']) = .ok u
  web : schemes.contains u.scheme = true
  query : u.query = none
  fragment : u.fragment = none
  mounted : s.mount.under? (String.ofList u.path.text) = some "/" ∨
    s.mount.under? (String.ofList u.path.text) = some "/backend/"

theorem isWord_stats : Url.IsWord "stats".toList where
  visible := Text.forall_of_all (by decide)
  whole := Text.forall_of_all (by decide)
  kept := by decide
  dot := by decide
  doubleDot := by decide

theorem isWeb_of_schemes {scheme : List Char} (h : schemes.contains scheme = true) : Url.isWeb scheme = true := by
  have hall : ∀ scheme ∈ schemes, Url.isWeb scheme = true := by decide
  exact hall scheme (List.contains_iff_mem.1 h)

/-- Any number of slashes behind the base comes to the same locator. -/
theorem statsText_slashes {base : String} (hbare : base.toList.getLast? ≠ some '/') (slashes : Nat) :
    statsText (base ++ String.ofList (List.replicate slashes '/')) = base.toList ++ '/' :: "stats".toList := by
  have hslash : ∀ c ∈ List.replicate slashes '/', (c == '/') = true := by
    intro c hc
    rw [List.eq_of_mem_replicate hc]
    rfl
  have hbase : Text.dropBack (· == '/') base.toList = base.toList := by
    rw [Text.dropBack_eq_self_iff]
    rintro c hc
    rw [beq_eq_false_iff_ne]
    rintro rfl
    exact hbare hc
  have hdrop : Text.dropBack (· == '/') (base.toList ++ List.replicate slashes '/') =
      Text.dropBack (· == '/') base.toList := by
    rw [Text.dropBack, List.reverse_append, List.reverse_replicate, List.dropWhile_append_of_pos hslash]
    rfl
  rw [statsText, String.toList_append, String.toList_ofList, hdrop, hbase]
  rfl

/-- The locator of a question for an identifier, below segments on the server of a locator. -/
def question (u : Url) (segments : List (List Char)) (id : String) : Url :=
  { u with path := .segments (segments ++ ["stats".toList]), query := some (Form.writePair ("id", id)) }

theorem locator_of_isBase {s : Service} {base : String} {u : Url} (h : IsBase s base u) (slashes : Nat) (id : String) :
    ∃ segments, (∀ segment ∈ segments, Url.IsKept segment) ∧ u.path = .segments (segments ++ [[]]) ∧
      locator (base ++ String.ofList (List.replicate slashes '/')) (.single id) = .ok (question u segments id) := by
  obtain ⟨segments, hkept, hpath, hbelow⟩ := Url.ofText_below h.read (isWeb_of_schemes h.web) h.query h.fragment
  refine ⟨segments, hkept, hpath, ?_⟩
  rw [locator, statsText_slashes h.bare, hbelow _ isWord_stats]
  simp only [h.web, if_true, Url.withParameter, h.query]
  rfl

/-! ## Questions -/

/-- A password of visible ASCII, in which blanks may stand anywhere but at the end, where no field keeps them. -/
structure IsVisible (password : String) : Prop where
  visible : ∀ c ∈ password.toList, 0x20 ≤ c.toNat ∧ c.toNat < 0x7F
  last : password.toList.getLast? ≠ some ' '

theorem IsVisible.isAscii {password : String} (h : IsVisible password) : IsAscii password :=
  fun c hc => Nat.lt_trans (h.visible c hc).2 (by decide)

/-- The token of such a password may stand in a field. -/
theorem IsVisible.all_isValueByte {password : String} (h : IsVisible password) :
    (bearerToken password).all Http.Headers.isValueByte = true := by
  have hchars : ∀ c ∈ ("Bearer " ++ password).toList, 0x20 ≤ c.toNat ∧ c.toNat < 0x7F := by
    rw [String.toList_append]
    exact List.forall_mem_append.2 ⟨Text.forall_of_all (by decide), h.visible⟩
  rw [bearerToken, Text.Utf8.encode_of_ascii fun c hc => Nat.lt_trans (hchars c hc).2 (by decide), List.all_eq_true]
  intro b hb
  obtain ⟨c, hc, rfl⟩ := List.mem_map.1 hb
  obtain ⟨hlow, hhigh⟩ := hchars c hc
  have hbyte : (UInt8.ofNat c.toNat).toNat = c.toNat := UInt8.toNat_ofNat_of_lt' (Nat.lt_trans hhigh (by decide))
  have hlow' : 0x20 ≤ UInt8.ofNat c.toNat := by
    rw [UInt8.le_iff_toNat_le, hbyte]
    exact hlow
  have hne : UInt8.ofNat c.toNat ≠ 0x7F := by
    rw [Ne, ← UInt8.toNat_inj, hbyte]
    exact Nat.ne_of_lt hhigh
  simp [Http.Headers.isValueByte, hlow', hne]

theorem IsVisible.carried {password : String} (hset : password ≠ "") (h : IsVisible password) :
    Http.Headers.carried (bearerToken password) = bearerToken password := by
  refine (carried_bearerToken_iff hset h.isAscii).2 fun c hc => ⟨?_, ?_⟩
  · rintro rfl
    exact h.last hc
  · rintro rfl
    exact absurd (h.visible _ (List.mem_of_getLast? hc)).1 (by decide)

/-- A request is a question for the result under an identifier, and for nothing else. -/
structure AsksOnly (s : Service) (r : Http.Request) (id : String) : Prop where
  asks : Asks s r id
  only : loginParameters r = .ok [("id", id)]

def statsPath (segments : List (List Char)) : List Char := segments.flatMap ('/' :: ·) ++ '/' :: "stats".toList

theorem text_statsPath (segments : List (List Char)) :
    Url.Path.text (.segments (segments ++ ["stats".toList])) = statsPath segments := by
  rw [Url.Path.text, List.flatMap_append]
  rfl

theorem head?_statsPath (segments : List (List Char)) : (statsPath segments).head? = some '/' := by
  cases segments <;> rfl

theorem isPathChar_statsPath {segments : List (List Char)} (hkept : ∀ segment ∈ segments, Url.IsKept segment) :
    ∀ c ∈ statsPath segments, Http.Target.isPathChar c = true := by
  refine List.forall_mem_append.2 ⟨fun c hc => ?_, Text.forall_of_all (by decide)⟩
  obtain ⟨segment, hsegment, hmem⟩ := List.mem_flatMap.1 hc
  rcases List.mem_cons.1 hmem with rfl | hmem
  · decide
  · exact Http.Target.isPathChar_of_isKept (hkept segment hsegment) c hmem

/-- Below a base of a service are its statistics. -/
theorem find?_statsPath {s : Service} {base : String} {u : Url} (h : IsBase s base u) {segments : List (List Char)}
    (hpath : u.path = .segments (segments ++ [[]])) :
    Endpoint.find? s.mount (String.ofList (statsPath segments)) = some .stats := by
  have htext : u.path.text = segments.flatMap ('/' :: ·) ++ ['/'] := by
    rw [hpath, Url.Path.text, List.flatMap_append]
    rfl
  have hmounted (lead : List Char)
      (hlead : s.mount.under? (String.ofList u.path.text) = some (String.ofList (lead ++ ['/']))) :
      Endpoint.find? s.mount (String.ofList (statsPath segments)) =
        Endpoint.ofPath? (String.ofList (lead ++ '/' :: "stats".toList)) := by
    rw [Http.Mount.under?, String.toList_ofList, htext, Option.map_eq_some_iff] at hlead
    obtain ⟨found, hfound, hsame⟩ := hlead
    obtain rfl := String.ofList_inj.1 hsame
    have hrest := Http.Mount.rest?_slash hfound "stats".toList
    rw [Endpoint.find?, Http.Mount.under?, String.toList_ofList, statsPath, hrest]
    rfl
  rcases h.mounted with hroot | hlegacy
  · exact (hmounted [] hroot).trans (by decide)
  · exact (hmounted "/backend".toList hlegacy).trans (by decide)

theorem targetText_question (u : Url) (segments : List (List Char)) (id : String) :
    (question u segments id).targetText = statsPath segments ++ '?' :: Form.writePair ("id", id) := by
  rw [← text_statsPath]
  rfl

def asking (segments : List (List Char)) (id : String) (token : Bytes) (peer : Option Address.Endpoint) : Http.Request where
  method := "GET"
  target := ⟨String.ofList (statsPath segments), some (String.ofList (Form.writePair ("id", id)))⟩
  headers := [("authorization", Http.Headers.carried token)]
  body := .ofBytes []
  peer := peer

theorem arriving?_question {u : Url} {segments : List (List Char)} {id : String}
    (hkept : ∀ segment ∈ segments, Url.IsKept segment)
    (hfits : (String.ofList (question u segments id).targetText).utf8ByteSize ≤ Http.Target.maxLength) (token : Bytes)
    (peer : Option Address.Endpoint) :
    Query.arriving? ⟨question u segments id, token⟩ peer = some (asking segments id token peer) := by
  rw [targetText_question] at hfits
  rw [Query.arriving?, targetText_question, Http.Target.ofText?_of_parts (head?_statsPath segments)
    (isPathChar_statsPath hkept) (fun c hc => (Http.Target.isQueryChar_of_written c hc).1) hfits]
  rfl

theorem loginParameters_asking (segments : List (List Char)) (id : String) (token : Bytes) (peer : Option Address.Endpoint) :
    loginParameters (asking segments id token peer) = .ok [("id", id)] := by
  have hbytes : (asking segments id token peer).target.queryBytes =
      some (Text.Utf8.encode (Form.writePair ("id", id))) := by
    rw [Http.Target.queryBytes, asking, Option.map_some, String.toList_ofList]
  have hpairs : Form.collect [] (Text.Utf8.encode (Form.writePair ("id", id))) = [("id", id)] := by
    rw [Form.collect, Form.read_encode_writePair]
    rfl
  have hform : Service.hasContentType (asking segments id token peer) "application/x-www-form-urlencoded" = false := rfl
  simp only [loginParameters, hform, Bool.false_eq_true, if_false, Except.map, Service.withQuery, hbytes, hpairs]

/-- A question with the token of the password that is set is let pass, with its identifier as the only parameter. -/
theorem asksOnly_asking {s : Service} {g : PasswordGate} (hgate : s.gate = g.toGate) (hset : g.isConfigured = true)
    (hvisible : IsVisible g.password) {segments : List (List Char)}
    (hfind : Endpoint.find? s.mount (String.ofList (statsPath segments)) = some .stats) (id : String)
    (peer : Option Address.Endpoint) : AsksOnly s (asking segments id (bearerToken g.password) peer) id := by
  have honly := loginParameters_asking segments id (bearerToken g.password) peer
  have hnonempty := (PasswordGate.isConfigured_iff.1 hset).1
  have hascii := (visible_bearerToken_iff hvisible.all_isValueByte).2 hvisible.isAscii
  have hbears : PasswordGate.Bears (asking segments id (bearerToken g.password) peer).headers g.password :=
    ⟨_, congrArg some (hvisible.carried hnonempty), hascii, rfl⟩
  have hauthorized : s.gate.authorize (asking segments id (bearerToken g.password) peer).headers [("id", id)] = some true := by
    rw [hgate]
    exact congrArg some (PasswordGate.authorize_cases.2 ⟨hset, .inl hbears⟩)
  exact ⟨⟨hfind, rfl, _, honly, by simp, hauthorized⟩, honly⟩

/-- Whatever text the client is given as an identifier and however many slashes are behind the base of a service, it
asks the service; and as long as the question is not too long, the service lets it pass, sees the identifier as it was
given and no other parameter, and answers with what its store has under it. -/
theorem asked_as_given (s : Service) (g : PasswordGate) (hgate : s.gate = g.toGate) (hset : g.isConfigured = true)
    (hvisible : IsVisible g.password) {base : String} {u : Url} (hbase : IsBase s base u) (slashes : Nat) (id : String)
    {words : List String} {environment : List (String × String)}
    (hread : CommandLine.Stats.read words environment =
      .ok (.fetch (base ++ String.ofList (List.replicate slashes '/')) g.password (.single id))) :
    ∃ q, Program.stats words environment = .goesOn q ∧ q.url.scheme = u.scheme ∧ q.url.authority = u.authority ∧
      ((String.ofList q.url.targetText).utf8ByteSize ≤ Http.Target.maxLength →
        ∀ peer, ∃ r, q.arriving? peer = some r ∧ AsksOnly s r id ∧
          ∀ m st, s.statsEnabled = true →
            (s.exchange m r st).1.response.status = (Service.shown (Service.fetch st.store id)).status ∧
            (s.exchange m r st).1.response.body = (Service.shown (Service.fetch st.store id)).body) := by
  obtain ⟨segments, hkept, hpath, hlocator⟩ := locator_of_isBase hbase slashes id
  have hbuild : Query.build (base ++ String.ofList (List.replicate slashes '/')) g.password (.single id) =
      .ok ⟨question u segments id, bearerToken g.password⟩ := by
    rw [Query.build, if_pos hvisible.all_isValueByte, hlocator]
    rfl
  refine ⟨⟨question u segments id, bearerToken g.password⟩, ?_, rfl, rfl, fun hfits peer => ?_⟩
  · rw [Program.stats, hread]
    simp only [hbuild]
  · have hasks := asksOnly_asking hgate hset hvisible (find?_statsPath hbase hpath) id peer
    refine ⟨_, arriving?_question hkept hfits _ peer, hasks, fun m st hstats => ?_⟩
    have hconfigured : s.gate.configured = true := by
      rw [hgate]
      exact hset
    exact Service.response_of_asks hstats hconfigured hasks.asks m st

def mounted : Service := { Service.plain "s3cret words" with mount := ⟨"/speed".toList.map .letter⟩ }

def mountedUrl : Url :=
  ⟨"http".toList, some ⟨[], .name "localhost".toList, some 8989⟩, .segments ["speed".toList, []], none, none⟩

/-- A command line with slashes behind the base, and an identifier that would say more if it were not written for a
query. -/
def awkwardWords : List String :=
  ["--url", "http://localhost:8989/speed///", "-p", "s3cret words", "show", "a&password=%41+b #?é"]

/-- The identifier arrives as it was typed, and the service says that it has no result under it. -/
theorem asked_as_given_awkward :
    ∃ q r, Program.stats awkwardWords [] = .goesOn q ∧ q.arriving? none = some r ∧
      AsksOnly mounted r "a&password=%41+b #?é" ∧
      ∀ m, (mounted.exchange m r ⟨.recent (.empty 1), .start⟩).1.response.status = 500 := by
  have hurl : Url.ofText ("http://localhost:8989/speed".toList ++ ['/']) = .ok mountedUrl := by
    have hread : (Url.ofText ("http://localhost:8989/speed".toList ++ ['/'])).toOption = some mountedUrl := by
      decide +kernel
    cases hfound : Url.ofText ("http://localhost:8989/speed".toList ++ ['/']) with
    | error fault =>
      rw [hfound] at hread
      exact nomatch hread
    | ok found =>
      rw [hfound] at hread
      exact congrArg Except.ok (Option.some.inj hread)
  have hbase : IsBase mounted "http://localhost:8989/speed" mountedUrl :=
    ⟨by decide, hurl, by decide, rfl, rfl, .inl (by decide +kernel)⟩
  have hvisible : IsVisible "s3cret words" := ⟨Text.forall_of_all (by decide), by decide⟩
  have hread : CommandLine.Stats.read awkwardWords [] =
      .ok (.fetch ("http://localhost:8989/speed" ++ String.ofList (List.replicate 3 '/')) "s3cret words"
        (.single "a&password=%41+b #?é")) := rfl
  obtain ⟨q, hq, -, -, harrives⟩ := asked_as_given mounted ⟨"s3cret words"⟩ rfl (by decide) hvisible hbase 3
    "a&password=%41+b #?é" hread
  have hfits : (String.ofList q.url.targetText).utf8ByteSize ≤ Http.Target.maxLength := by
    have hshort : (match Program.stats awkwardWords [] with
      | .goesOn q => decide ((String.ofList q.url.targetText).utf8ByteSize ≤ Http.Target.maxLength)
      | .ends _ => false) = true := by decide +kernel
    rw [hq] at hshort
    exact of_decide_eq_true hshort
  obtain ⟨r, hr, hasks, hresponse⟩ := harrives hfits none
  exact ⟨q, r, hq, hr, hasks, fun m => (hresponse m _ rfl).1⟩

end Client
end Speedtest
