import Speedtest.Proofs.Identifier
import Speedtest.Proofs.Service.Retrieval

/-!
# Whoever may not read results learns nothing of them

Only a request for results that the gate lets pass reads the store. Any other request gets the same response over
two stores in memory, whatever they hold: the same status, the same fields but for the identifier of the request,
and the same body but for the identifier of a record that it submits. A run of such requests leaves both stores in
memory, so it gets the same responses all the way.
-/
namespace Speedtest.Service

/-! ## Handlers -/

/-- A state whose store is one in memory. -/
def State.InMemory (st : State) : Prop := ∃ kept, st.store = .recent kept

theorem State.InMemory.exchange {s : Service} {st : State} (h : st.InMemory) (m : Moment) (r : Http.Request) :
    (s.exchange m r st).2.InMemory := by
  obtain ⟨kept, hkept⟩ := h
  exact ⟨_, store_exchange_recent hkept m r⟩

/-- A request for results that the gate lets pass. -/
structure MayRead (s : Service) (r : Http.Request) : Prop where
  endpoint : Endpoint.find? s.mount r.target.path = some .stats
  method : Endpoint.stats.answersTo r.method = true
  enabled : s.statsEnabled = true
  configured : s.gate.configured = true
  authorized : ∃ params, loginParameters r = .ok params ∧ s.gate.authorize r.headers params = some true

def acknowledgement (id : String) : Http.Response := .text 200 ("id " ++ id)

variable {s : Service} {r : Http.Request}

/-- Where the gate stands in the way, the store is not looked at. -/
theorem results_of_not_mayRead (hfind : Endpoint.find? s.mount r.target.path = some .stats)
    (hmethod : Endpoint.stats.answersTo r.method = true) (h : ¬ MayRead s r) :
    ∃ response, ∀ st, results s r st = ⟨response, st, []⟩ := by
  unfold results
  cases hstats : s.statsEnabled with
  | false => exact ⟨_, fun _ => rfl⟩
  | true =>
    cases hgate : s.gate.configured with
    | false => exact ⟨_, fun _ => rfl⟩
    | true =>
      cases hparams : loginParameters r with
      | error fault => exact ⟨_, fun _ => rfl⟩
      | ok params =>
        cases hleave : s.gate.authorize r.headers params with
        | none => exact ⟨none, fun _ => by simp [hleave]⟩
        | some leave =>
          cases leave with
          | false => exact ⟨some (turnedAway r params), fun _ => by simp [hleave, State.respond]⟩
          | true => exact absurd ⟨hfind, hmethod, hstats, hgate, params, hparams, hleave⟩ h

/-- A handler says the same over every store in memory, unless it acknowledges a record. -/
theorem handle_cases {e : Endpoint} (hfind : Endpoint.find? s.mount r.target.path = some e)
    (hmethod : e.answersTo r.method = true) (h : ¬ MayRead s r) (reply : Http.Reply) :
    (∃ response lookups, ∀ m st, m.reply = reply → st.InMemory →
      (handle s m e r st).response = response ∧ (handle s m e r st).lookups = lookups) ∨
    (e = .telemetry ∧ ∀ m st, st.InMemory →
      (handle s m e r st).response = some (acknowledgement m.recordId) ∧ (handle s m e r st).lookups = []) := by
  cases e with
  | empty =>
    refine .inl ?_
    simp only [handle, upload]
    cases r.body.failure with
    | none => exact ⟨_, _, fun _ _ _ _ => ⟨rfl, rfl⟩⟩
    | some reason => exact ⟨_, _, fun _ _ _ _ => ⟨rfl, rfl⟩⟩
  | garbage => exact .inl ⟨_, _, fun _ _ _ _ => ⟨rfl, rfl⟩⟩
  | stats =>
    obtain ⟨response, hresults⟩ := results_of_not_mayRead hfind hmethod h
    refine .inl ⟨response, [], fun m st _ _ => ?_⟩
    rw [handle, hresults]
    exact ⟨rfl, rfl⟩
  | getIp =>
    refine .inl ?_
    simp only [handle, tellAddress]
    cases s.clientText? r with
    | none => exact ⟨_, _, fun _ _ _ _ => ⟨rfl, rfl⟩⟩
    | some client => exact ⟨_, _, fun m st hreply _ => by rw [hreply]; exact ⟨rfl, rfl⟩⟩
  | telemetry =>
    simp only [handle, submit]
    cases s.clientText? r with
    | none => exact .inl ⟨_, _, fun _ _ _ _ => ⟨rfl, rfl⟩⟩
    | some client =>
      cases readForm r with
      | error response => exact .inl ⟨_, _, fun _ _ _ _ => ⟨rfl, rfl⟩⟩
      | ok form =>
        -- A store in memory takes every record, so nothing but the identifier depends on the moment.
        refine .inr ⟨trivial, ?_⟩
        rintro m ⟨store, counters⟩ ⟨kept, rfl⟩
        exact ⟨rfl, rfl⟩

/-! ## Exchanges -/

theorem outcome_eq (h : Handled) :
    h.outcome = h.response.elim crashed fun response => withFields response noCacheFields := by
  unfold Handled.outcome
  cases h.response <;> rfl

def sentAcknowledgement (id : String) : Http.Response :=
  (withFields (acknowledgement id) noCacheFields).withLength

/-- A request is led to the same response over every store in memory, unless it is acknowledged. -/
theorem route_cases (h : ¬ MayRead s r) (reply : Http.Reply) :
    (∃ said : Answer, ∀ m st, m.reply = reply → st.InMemory → (route s m r st).1 = said) ∨
    ∀ m st, st.InMemory → (route s m r st).1 = ⟨sentAcknowledgement m.recordId, []⟩ := by
  unfold route
  cases hfind : Endpoint.find? s.mount r.target.path with
  | none => exact .inl ⟨_, fun _ _ _ _ => rfl⟩
  | some e =>
    by_cases hoptions : r.method = "OPTIONS"
    · simp only [hoptions, if_true]
      exact .inl ⟨_, fun _ _ _ _ => rfl⟩
    by_cases hmethod : e.answersTo r.method = true
    · simp only [hoptions, hmethod, if_false, if_true, outcome_eq]
      rcases handle_cases hfind hmethod h reply with ⟨response, lookups, hsaid⟩ | ⟨rfl, hsaid⟩
      · refine .inl ⟨⟨framed r.method (response.elim crashed fun said => withFields said noCacheFields),
          lookups⟩, fun m st hreply hst => ?_⟩
        obtain ⟨hresponse, hlookups⟩ := hsaid m st hreply hst
        rw [hresponse, hlookups]
      · refine .inr fun m st hst => ?_
        obtain ⟨hresponse, hlookups⟩ := hsaid m st hst
        have hpost := (answersTo_telemetry r.method).1 hmethod
        rw [hresponse, hlookups, hpost]
        rfl
    · simp only [hoptions, hmethod, if_false]
      exact .inl ⟨_, fun _ _ _ _ => rfl⟩

/-- One request that meets two moments. They may differ in time and in the identifiers that were drawn, and the
lookup service does the same in both. -/
structure Twins where
  request : Http.Request
  first : Moment
  second : Moment
  reply_eq : first.reply = second.reply
  drawn_first : Identifier.IsDrawn first.recordId
  drawn_second : Identifier.IsDrawn second.recordId

/-- Two answers to one request that are the same but for the identifiers that were drawn for them. -/
structure Alike (t : Twins) (a b : Answer) : Prop where
  status : a.response.status = b.response.status
  headers : ∃ fields : Http.Headers,
    a.response.headers = fields.set "x-request-id" (requestId t.first t.request) ∧
    b.response.headers = fields.set "x-request-id" (requestId t.second t.request)
  body : a.response.body = b.response.body ∨
    (a.response.body = (acknowledgement t.first.recordId).body ∧
      b.response.body = (acknowledgement t.second.recordId).body)
  lookups : a.lookups = b.lookups

/-- Where the same identifiers were drawn there is no difference at all. -/
theorem Alike.eq {t : Twins} (hsame : t.first = t.second) {a b : Answer} (h : Alike t a b) : a = b := by
  obtain ⟨⟨status, headers, body⟩, lookups⟩ := a
  obtain ⟨⟨status', headers', body'⟩, lookups'⟩ := b
  obtain ⟨rfl, ⟨fields, rfl, rfl⟩, hbody, rfl⟩ := h
  rw [hsame] at hbody ⊢
  rcases hbody with rfl | ⟨rfl, rfl⟩ <;> rfl

theorem exchange_eq_route (m : Moment) (st : State) :
    (s.exchange m r st).1 = ⟨(withFields (route s m r st).1.response originFields).withField "x-request-id"
      (requestId m r), (route s m r st).1.lookups⟩ := rfl

theorem headers_withFields {a b : Http.Response} (h : a.headers = b.headers) (fields : List (String × String)) :
    (withFields a fields).headers = (withFields b fields).headers := by
  induction fields generalizing a b with
  | nil => exact h
  | cons field fields ih =>
    obtain ⟨name, value⟩ := field
    exact ih (congrArg (fun headers => Http.Headers.set headers name (Bytes.ofAscii value)) h)

theorem announced_acknowledgement {id : String} (h : Identifier.IsDrawn id) :
    (acknowledgement id).body.announced? = some 39 := by
  have hlead : (Text.Utf8.encode "id ".toList).length = 3 := by decide
  simp only [acknowledgement, Http.Response.text, Http.Payload.announced?, String.toList_append,
    Text.Utf8.encode_append, List.length_append, hlead, h.length_encode]

/-- The lengths of identifiers that were drawn agree, and with them all the fields that tell them. -/
theorem headers_sentAcknowledgement {id id' : String} (h : Identifier.IsDrawn id)
    (h' : Identifier.IsDrawn id') : (sentAcknowledgement id).headers = (sentAcknowledgement id').headers := by
  have hfields := headers_withFields (a := acknowledgement id) (b := acknowledgement id') rfl noCacheFields
  simp only [sentAcknowledgement, Http.Response.withLength, body_withFields, announced_acknowledgement h,
    announced_acknowledgement h', Http.Response.withField, hfields]

/-- A request that may not read results is answered alike over any two stores in memory. -/
theorem alike_exchange {t : Twins} (h : ¬ MayRead s t.request) {st st' : State} (hst : st.InMemory)
    (hst' : st'.InMemory) :
    Alike t (s.exchange t.first t.request st).1 (s.exchange t.second t.request st').1 := by
  rw [exchange_eq_route, exchange_eq_route]
  rcases route_cases h t.second.reply with ⟨said, hsaid⟩ | hsaid
  · rw [hsaid _ _ t.reply_eq hst, hsaid _ _ rfl hst']
    exact ⟨rfl, ⟨_, rfl, rfl⟩, .inl rfl, rfl⟩
  · rw [hsaid _ _ hst, hsaid _ _ hst']
    have hfields := headers_withFields (headers_sentAcknowledgement t.drawn_first t.drawn_second) originFields
    refine ⟨?_, ⟨_, rfl, ?_⟩, .inr ⟨?_, ?_⟩, rfl⟩
    · simp [sentAcknowledgement, acknowledgement, Http.Response.text]
    · rw [hfields]
      rfl
    · simp [sentAcknowledgement]
    · simp [sentAcknowledgement]

/-! ## Runs -/

/-- Answers to a run of requests that are alike one by one. -/
inductive AllAlike : List Twins → List Answer → List Answer → Prop where
  | nil : AllAlike [] [] []
  | cons {t : Twins} {a b : Answer} {twins : List Twins} {as bs : List Answer} (first : Alike t a b)
      (rest : AllAlike twins as bs) : AllAlike (t :: twins) (a :: as) (b :: bs)

/-- A run of requests none of which may read results is answered alike over any two stores in memory. -/
theorem allAlike_exchangeAll (s : Service) (twins : List Twins) (h : ∀ t ∈ twins, ¬ MayRead s t.request)
    (st st' : State) (hst : st.InMemory) (hst' : st'.InMemory) :
    AllAlike twins (s.exchangeAll (twins.map fun t => (t.first, t.request)) st).1
      (s.exchangeAll (twins.map fun t => (t.second, t.request)) st').1 := by
  induction twins generalizing st st' with
  | nil => exact .nil
  | cons t twins ih =>
    refine .cons (alike_exchange (h t List.mem_cons_self) hst hst') ?_
    exact ih (fun u hu => h u (List.mem_cons_of_mem _ hu)) _ _ (hst.exchange _ _) (hst'.exchange _ _)

theorem isDrawn_drawnId (byte : UInt8) : Identifier.IsDrawn (drawnId byte) :=
  ⟨List.replicate 16 byte, List.length_replicate, rfl⟩

/-- A question for the last results with a guess at the password. -/
def guessing : Http.Request :=
  { (asking "L100").2 with headers := [Http.Headers.ascii "authorization" "Bearer guess"] }

/-- A result that is posted, and a guess at the password, each at two moments. -/
def strangers : List Twins :=
  [⟨(posting 1 "dl=10").2, (posting 1 "").1, (posting 2 "").1, rfl, isDrawn_drawnId 1, isDrawn_drawnId 2⟩,
    ⟨guessing, (posting 3 "").1, (posting 4 "").1, rfl, isDrawn_drawnId 3, isDrawn_drawnId 4⟩]

def holdingOne : State := ⟨.recent ((Telemetry.Recent.empty 1).insert .blank), .start⟩

/-- A post and a guess at the password are answered alike by a store with a record and one without. -/
theorem allAlike_exchangeAll_strangers :
    (∀ t ∈ strangers, ¬ MayRead (plain "secret") t.request) ∧
    AllAlike strangers ((plain "secret").exchangeAll (strangers.map fun t => (t.first, t.request)) forOne).1
      ((plain "secret").exchangeAll (strangers.map fun t => (t.second, t.request)) holdingOne).1 := by
  have hposting : ¬ MayRead (plain "secret") (posting 1 "dl=10").2 := by
    intro h
    exact absurd h.endpoint (by decide +kernel)
  have hguessing : ¬ MayRead (plain "secret") guessing := by
    intro h
    obtain ⟨params, hparams, hleave⟩ := h.authorized
    obtain rfl := Except.ok.inj hparams
    exact absurd hleave (by decide +kernel)
  have hno : ∀ t ∈ strangers, ¬ MayRead (plain "secret") t.request := by
    intro t ht
    simp only [strangers, List.mem_cons, List.not_mem_nil, or_false] at ht
    rcases ht with rfl | rfl
    · exact hposting
    · exact hguessing
  exact ⟨hno, allAlike_exchangeAll (plain "secret") strangers hno forOne holdingOne ⟨_, rfl⟩ ⟨_, rfl⟩⟩

end Speedtest.Service
