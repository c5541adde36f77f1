import Speedtest.Service.Answer

/-!
# What an exchange stores

Only a readable form that is posted to the endpoint for results, over a connection that is known, reaches the
store; `submitted?` is the record that it brings. Every other request leaves the store as it was, so a run of
requests puts in the records that they submit, in order, and nothing else.
-/
namespace Speedtest.Service

def isPost (s : Service) (r : Http.Request) : Bool :=
  Endpoint.find? s.mount r.target.path == some .telemetry && r.method == "POST"

theorem isPost_iff (s : Service) (r : Http.Request) :
    isPost s r = true ↔
      Endpoint.find? s.mount r.target.path = some .telemetry ∧ r.method = "POST" := by
  simp [isPost]

def submitted? (s : Service) (m : Moment) (r : Http.Request) : Option Telemetry.Record :=
  if isPost s r then
    (s.clientText? r).bind fun client => (readForm r).toOption.map fun form => record s m client r form
  else none

def storing (store : Telemetry.Store) (rec : Telemetry.Record) : Telemetry.Store := (store.insert rec).2

theorem isPost_of_submitted {s : Service} {m : Moment} {r : Http.Request} {rec : Telemetry.Record}
    (h : submitted? s m r = some rec) : isPost s r = true := by
  by_cases hpost : isPost s r = true
  · exact hpost
  · rw [submitted?, if_neg hpost] at h
    exact nomatch h

/-- A record that is submitted is made of the client and the form of its request. -/
theorem submitted?_eq_some {s : Service} {m : Moment} {r : Http.Request} {rec : Telemetry.Record}
    (h : submitted? s m r = some rec) :
    ∃ client form, s.clientText? r = some client ∧ readForm r = .ok form ∧
      rec = record s m client r form := by
  unfold submitted? at h
  split at h
  · obtain ⟨client, hclient, h⟩ := Option.bind_eq_some_iff.1 h
    obtain ⟨form, hform, rfl⟩ := Option.map_eq_some_iff.1 h
    refine ⟨client, form, hclient, ?_, rfl⟩
    cases hread : readForm r with
    | error response =>
      rw [hread] at hform
      exact nomatch hform
    | ok known =>
      rw [hread] at hform
      rw [Option.some.inj hform]
  · exact nomatch h

/-! ## Handlers -/

theorem store_upload (r : Http.Request) (st : State) : (upload r st).state.store = st.store := by
  unfold upload
  split <;> rfl

theorem store_results (s : Service) (r : Http.Request) (st : State) :
    (results s r st).state.store = st.store := by
  unfold results
  split
  · rfl
  · split
    · rfl
    · split
      · rfl
      · split <;> rfl

theorem store_keep (rec : Telemetry.Record) (st : State) :
    (keep rec st).state.store = storing st.store rec := by
  unfold keep
  split
  rename_i outcome store heq
  have hstore : storing st.store rec = store := by rw [storing, heq]
  rw [hstore]
  cases outcome <;> rfl

theorem store_submit (s : Service) (m : Moment) (client : String) (r : Http.Request) (st : State) :
    (submit s m client r st).state.store =
      ((readForm r).toOption.map (record s m client r)).elim st.store (storing st.store) := by
  unfold submit
  cases h : readForm r with
  | error response => rfl
  | ok form => exact store_keep _ st

theorem answersTo_telemetry (method : String) :
    Endpoint.telemetry.answersTo method = true ↔ method = "POST" := by
  simp [Endpoint.answersTo, Endpoint.methods?]

/-- Of all handlers only the one for results touches the store, with the record that it makes. -/
theorem store_handle (s : Service) (m : Moment) (e : Endpoint) (r : Http.Request) (st : State) :
    (handle s m e r st).state.store =
      (if e = .telemetry then
        (s.clientText? r).bind fun client => (readForm r).toOption.map (record s m client r)
      else none).elim st.store (storing st.store) := by
  cases e with
  | empty => exact store_upload r _
  | garbage => rfl
  | stats => exact store_results s r _
  | getIp =>
    unfold handle
    cases s.clientText? r <;> rfl
  | telemetry =>
    unfold handle
    cases s.clientText? r with
    | none => rfl
    | some client => exact store_submit s m client r _

/-! ## Exchanges -/

theorem exchange_store_eq_route (s : Service) (m : Moment) (r : Http.Request) (st : State) :
    (s.exchange m r st).2.store = (route s m r st).2.store := by
  simp [exchange, answer]

/-- A request puts the record into the store that it submits, and nothing else. -/
theorem store_exchange (s : Service) (m : Moment) (r : Http.Request) (st : State) :
    (s.exchange m r st).2.store = (submitted? s m r).elim st.store (storing st.store) := by
  rw [exchange_store_eq_route]
  unfold route submitted?
  simp only [isPost_iff]
  cases hfind : Endpoint.find? s.mount r.target.path with
  | none => simp
  | some e =>
    by_cases hoptions : r.method = "OPTIONS"
    · simp [hoptions]
    · by_cases hanswers : e.answersTo r.method = true
      · have hpost : e = .telemetry → r.method = "POST" := by
          rintro rfl
          exact (answersTo_telemetry _).1 hanswers
        simp only [hoptions, if_false, hanswers, if_true, store_handle, Option.some.injEq]
        by_cases he : e = .telemetry
        · simp [he, hpost he]
        · simp [he]
      · have hpost : ¬ (e = .telemetry ∧ r.method = "POST") := by
          rintro ⟨rfl, h⟩
          exact hanswers ((answersTo_telemetry _).2 h)
        simp [hoptions, hanswers, hpost]

/-! ## Runs -/

/-- A run puts the records into the store that its requests submit, in order. -/
theorem store_exchangeAll (s : Service) (arrivals : List Arrival) (st : State) :
    (s.exchangeAll arrivals st).2.store =
      (arrivals.filterMap fun a => submitted? s a.1 a.2).foldl storing st.store := by
  induction arrivals generalizing st with
  | nil => rfl
  | cons a arrivals ih =>
    obtain ⟨m, r⟩ := a
    have hstep : (s.exchangeAll ((m, r) :: arrivals) st).2 =
        (s.exchangeAll arrivals (s.exchange m r st).2).2 := rfl
    rw [hstep, ih, store_exchange]
    cases h : submitted? s m r with
    | none => simp [h]
    | some rec => simp [h]

/-- A service at the root that shows results to whoever knows a password, and believes no forwarding fields. -/
def plain (password : String) : Service where
  mount := .root
  chunk := []
  defaultChunks := 0
  coordinate := .origin
  lookup := ⟨⟨"http".toList, none, .flat [], none, none⟩, none⟩
  gate := (Access.PasswordGate.mk password).toGate
  statsEnabled := true
  redactAddresses := false
  trustForwardedHeaders := false

end Speedtest.Service
