import Speedtest.Proofs.Service.Storing

/-!
# What a submission leaves and what it is told

The record of a result holds what the request gives as it gives it: the first text under each name, where the
body comes before the query. A store in memory takes every record, so whoever submits one over a known
connection and in a form that can be read is told the identifier of the record, and nobody else gets a response
that says so.
-/
namespace Speedtest.Service

/-! ## Texts -/

/-- The named texts of a body, in the order in which they are written. -/
def bodyTexts (r : Http.Request) : Form.Pairs :=
  let bytes := r.body.frames.flatten
  if isInParts r then
    let boundary? := (r.headers.text? "content-type").bind Http.Multipart.boundary?
    let parts? := boundary?.bind fun boundary => (Http.Multipart.read boundary bytes).toOption
    (parts?.getD []).filterMap fun part => part.name.map fun name => (name, part.text)
  else Form.read bytes

/-- The named texts of a request, those of its body before those of its query. -/
def texts (r : Http.Request) : Form.Pairs := bodyTexts r ++ r.target.queryBytes.elim [] Form.read

/-- The first text under a name, or nothing. -/
def textOf (r : Http.Request) (name : String) : String := ((texts r).lookup name).getD ""

theorem gather_eq_ok {limit : Nat} {body : Http.Body} {bytes : Bytes}
    (h : body.gather limit = .ok bytes) : bytes = body.frames.flatten := by
  unfold Http.Body.gather at h
  split at h
  · exact nomatch h
  · split at h
    · exact nomatch h
    · exact (Except.ok.inj h).symm

theorem lookup_readEncoded {r : Http.Request} {form : Form.Pairs} (hparts : isInParts r = false)
    (h : readEncoded r = .ok form) (name : String) : form.lookup name = (bodyTexts r).lookup name := by
  unfold readEncoded at h
  split at h
  · exact nomatch h
  · rename_i bytes hbytes
    obtain rfl := Except.ok.inj h
    obtain rfl := gather_eq_ok hbytes
    rw [Form.lookup_collect, bodyTexts, hparts]
    rfl

/-- A form in parts has the first text under each name. -/
theorem lookup_readParts {r : Http.Request} {form : Form.Pairs} (hparts : isInParts r = true)
    (h : readParts r = .ok form) (name : String) : form.lookup name = (bodyTexts r).lookup name := by
  unfold readParts at h
  split at h
  · exact nomatch h
  · rename_i boundary hboundary
    split at h
    · exact nomatch h
    · rename_i bytes hbytes
      obtain rfl := gather_eq_ok hbytes
      split at h
      · exact nomatch h
      · rename_i parts hread
        obtain rfl := Except.ok.inj h
        simp only [bodyTexts, hparts, if_true, hboundary, hread, Option.bind_some, Except.toOption,
          Option.getD_some]
        rw [Http.Multipart.collect, Form.lookup_foldl_keepFirst]
        rfl

theorem lookup_withQuery (known : Form.Pairs) (r : Http.Request) (name : String) :
    (withQuery known r).lookup name =
      (known ++ r.target.queryBytes.elim [] Form.read).lookup name := by
  unfold withQuery
  rw [List.lookup_append]
  cases r.target.queryBytes with
  | none => exact (Option.or_none).symm
  | some query => exact Form.lookup_collect known query name

/-- A form that was read has the first text that the request gives under each name. -/
theorem lookup_readForm {r : Http.Request} {form : Form.Pairs} (h : readForm r = .ok form)
    (name : String) : form.lookup name = (texts r).lookup name := by
  unfold readForm at h
  cases hread : (if isInParts r then readParts r else readEncoded r) with
  | error response =>
    rw [hread] at h
    exact nomatch h
  | ok fields =>
    rw [hread] at h
    obtain rfl := Except.ok.inj h
    have hbody : fields.lookup name = (bodyTexts r).lookup name := by
      cases hparts : isInParts r with
      | true =>
        rw [hparts, if_pos rfl] at hread
        exact lookup_readParts hparts hread name
      | false =>
        rw [hparts, if_neg Bool.false_ne_true] at hread
        exact lookup_readEncoded hparts hread name
    rw [lookup_withQuery, texts, List.lookup_append, List.lookup_append, hbody]

/-! ## Records -/

/-- The record of a submission, where nothing is hidden. -/
def recordOf (s : Service) (a : Arrival) : Telemetry.Record where
  timestamp := a.1.time
  ipAddress := (s.clientText? a.2).getD ""
  ispInfo := if textOf a.2 "ispinfo" = "" then "\x7b\x7d" else textOf a.2 "ispinfo"
  extra := textOf a.2 "extra"
  userAgent := fieldText a.2 "user-agent"
  language := fieldText a.2 "accept-language"
  download := textOf a.2 "dl"
  upload := textOf a.2 "ul"
  ping := textOf a.2 "ping"
  jitter := textOf a.2 "jitter"
  log := textOf a.2 "log"
  uuid := a.1.recordId

theorem eq_recordOf_of_submitted {s : Service} (hopen : s.redactAddresses = false) {a : Arrival}
    {rec : Telemetry.Record} (h : submitted? s a.1 a.2 = some rec) : rec = recordOf s a := by
  obtain ⟨client, form, hclient, hread, rfl⟩ := submitted?_eq_some h
  simp only [record, recordOf, textOf, hopen, hclient, lookup_readForm hread, Option.getD_some,
    Bool.false_eq_true, if_false]
  rfl

/-! ## Responses -/

/-- What an endpoint comes to is what goes out. -/
theorem response_exchange {s : Service} {r : Http.Request} {e : Endpoint} (m : Moment) (st : State)
    (hfind : Endpoint.find? s.mount r.target.path = some e) (hmethod : r.method ≠ "OPTIONS")
    (hanswers : e.answersTo r.method = true) :
    (s.exchange m r st).1.response.status = (handle s m e r st).outcome.status ∧
    (s.exchange m r st).1.response.body = (framed r.method (handle s m e r st).outcome).body := by
  simp [exchange, answer, route, hfind, hmethod, hanswers]

/-- A form that cannot be read is refused with the reason. -/
theorem refused_of_readForm_eq_error {r : Http.Request} {response : Http.Response}
    (h : readForm r = .error response) :
    ∃ status ∈ [400, 413, 500], ∃ reason, response = .text status reason := by
  have herror : (if isInParts r then readParts r else readEncoded r) = .error response := by
    unfold readForm at h
    cases hread : (if isInParts r then readParts r else readEncoded r) with
    | error found =>
      rw [hread] at h
      rw [Except.error.inj h]
    | ok fields =>
      rw [hread] at h
      exact nomatch h
  split at herror
  · unfold readParts at herror
    split at herror
    · obtain rfl := Except.error.inj herror
      exact ⟨400, by decide, _, rfl⟩
    · split at herror
      · rename_i fault _
        obtain rfl := Except.error.inj herror
        cases fault with
        | tooLong => exact ⟨413, by decide, _, rfl⟩
        | unreadable reason => exact ⟨500, by decide, _, rfl⟩
      · split at herror
        · obtain rfl := Except.error.inj herror
          exact ⟨400, by decide, _, rfl⟩
        · exact nomatch herror
  · unfold readEncoded at herror
    split at herror
    · rename_i fault _
      obtain rfl := Except.error.inj herror
      cases fault with
      | tooLong => exact ⟨413, by decide, _, rfl⟩
      | unreadable reason => exact ⟨400, by decide, _, rfl⟩
    · exact nomatch herror

theorem status_of_readForm_eq_error {r : Http.Request} {response : Http.Response}
    (h : readForm r = .error response) : response.status ≠ 200 := by
  obtain ⟨status, hstatus, reason, rfl⟩ := refused_of_readForm_eq_error h
  rintro rfl
  exact absurd hstatus (by decide)

/-- Where the store takes a record, its identifier is told; where it does not, an error is. -/
theorem outcome_keep (rec : Telemetry.Record) (st : State) :
    ((st.store.insert rec).1 = .ok () ∧ (keep rec st).outcome.status = 200 ∧
      (keep rec st).outcome.body = .bytes (Text.Utf8.encode ("id " ++ rec.uuid).toList)) ∨
    ((st.store.insert rec).1 ≠ .ok () ∧ (keep rec st).outcome.status = 500) := by
  unfold keep
  rcases st.store.insert rec with ⟨outcome, store⟩
  cases outcome with
  | ok => exact .inl ⟨rfl, rfl, rfl⟩
  | failed e => exact .inr ⟨nofun, rfl⟩
  | crashed => exact .inr ⟨nofun, rfl⟩

/-- A post is answered by its handler, and its response goes out with its body. -/
theorem response_of_isPost {s : Service} {r : Http.Request} (hpost : isPost s r = true) (m : Moment)
    (st : State) :
    (s.exchange m r st).1.response.status = (handle s m .telemetry r st).outcome.status ∧
    (s.exchange m r st).1.response.body = (handle s m .telemetry r st).outcome.body := by
  obtain ⟨hfind, hmethod⟩ := (isPost_iff s r).1 hpost
  obtain ⟨hstatus, hbody⟩ := response_exchange m st hfind (by rw [hmethod]; decide)
    ((answersTo_telemetry _).2 hmethod)
  rw [body_framed (by rw [hmethod]; decide) (by rw [hmethod]; decide)] at hbody
  exact ⟨hstatus, hbody⟩

/-- Whoever submits a record is told its identifier when the store takes it, and an error when it does not. -/
theorem response_of_submitted {s : Service} {m : Moment} {r : Http.Request} {rec : Telemetry.Record}
    (h : submitted? s m r = some rec) (st : State) :
    ((st.store.insert rec).1 = .ok () ∧ (s.exchange m r st).1.response.status = 200 ∧
      (s.exchange m r st).1.response.body = .bytes (Text.Utf8.encode ("id " ++ rec.uuid).toList)) ∨
    ((st.store.insert rec).1 ≠ .ok () ∧ (s.exchange m r st).1.response.status = 500) := by
  have hpost := isPost_of_submitted h
  obtain ⟨client, form, hclient, hread, rfl⟩ := submitted?_eq_some h
  have hhandle : handle s m .telemetry r st =
      keep (record s m client r form) (st.count (.requests .telemetry) 1) := by
    simp only [handle, hclient, submit, hread]
  have hkeep := outcome_keep (record s m client r form) (st.count (.requests .telemetry) 1)
  obtain ⟨hstatus, hbody⟩ := response_of_isPost hpost m st
  rw [hstatus, hbody, hhandle]
  rwa [State.store_count] at hkeep

/-- A post that submits no record is refused. -/
theorem status_of_not_submitted {s : Service} {m : Moment} {r : Http.Request} (hpost : isPost s r = true)
    (h : submitted? s m r = none) (st : State) : (s.exchange m r st).1.response.status ≠ 200 := by
  rw [submitted?, if_pos hpost] at h
  rw [(response_of_isPost hpost m st).1]
  cases hclient : s.clientText? r with
  | none => simp [handle, hclient, State.respond, Handled.outcome, unknownConnection, Http.Response.text]
  | some client =>
    cases hread : readForm r with
    | error response =>
      simp only [handle, hclient, submit, hread, State.respond, Handled.outcome, status_withFields]
      exact status_of_readForm_eq_error hread
    | ok form =>
      rw [hclient, hread] at h
      cases h

/-- What a post is told when the store is one in memory: the identifier of the record that it submits, or that
it submits none. -/
theorem response_post {s : Service} {r : Http.Request} {st : State} {store : Telemetry.Recent}
    (hstore : st.store = .recent store) (hpost : isPost s r = true) (m : Moment) :
    (∃ rec, submitted? s m r = some rec ∧ (s.exchange m r st).1.response.status = 200 ∧
      (s.exchange m r st).1.response.body =
        .bytes (Text.Utf8.encode ("id " ++ rec.uuid).toList)) ∨
    (submitted? s m r = none ∧ (s.exchange m r st).1.response.status ≠ 200) := by
  cases h : submitted? s m r with
  | none => exact .inr ⟨rfl, status_of_not_submitted hpost h st⟩
  | some rec =>
    rcases response_of_submitted h st with ⟨-, hstatus, hbody⟩ | ⟨hrefused, -⟩
    · exact .inl ⟨rec, rfl, hstatus, hbody⟩
    · rw [hstore] at hrefused
      exact absurd rfl hrefused

end Speedtest.Service
