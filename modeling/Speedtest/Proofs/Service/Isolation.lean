import Speedtest.Proofs.Service.Acknowledging
import Speedtest.Proofs.Service.Fields
import Speedtest.Telemetry.Guarded

/-!
# Crashes stay where they are

A request crashes in one of two ways. The gate may crash inside the handler, and then there is nothing left of the
handler but the response that stands in for it. The store may crash on the side, and then the handler goes on and says
so itself. Neither leaves anything behind that a later request would meet. What a request meets of the state is the
store, and a crash does not touch that; so a run without the requests that crashed goes just as it went with them.
-/
namespace Speedtest

namespace Telemetry

def Outcome.isCrashed {α : Type} : Outcome α → Bool
  | .crashed => true
  | _ => false

theorem Outcome.isCrashed_iff {α : Type} {outcome : Outcome α} : outcome.isCrashed = true ↔ outcome = .crashed := by
  cases outcome <;> simp [isCrashed]

end Telemetry

namespace Service

/-! ## Where a request crashes -/

/-- What crashes while a request is handled. -/
inductive Crash where
  | gate
  | store
  deriving DecidableEq

/-- The parameters that the gate is asked about, when a request gets as far as that. -/
def presented? (s : Service) (r : Http.Request) : Option Form.Pairs :=
  if Endpoint.find? s.mount r.target.path = some .stats ∧ Endpoint.stats.answersTo r.method = true ∧
      s.statsEnabled = true ∧ s.gate.configured = true then
    (loginParameters r).toOption
  else none

/-- What crashes while a request is handled, if anything does: the gate that is asked, or the store that is called
for the results of whoever may pass or with the record that is submitted. -/
def crash? (s : Service) (m : Moment) (r : Http.Request) (store : Telemetry.Store) : Option Crash :=
  match presented? s r with
  | some params =>
    match s.gate.authorize r.headers params with
    | none => some .gate
    | some false => none
    | some true => if (fetch store ((params.lookup "id").getD "")).isCrashed then some .store else none
  | none =>
    match submitted? s m r with
    | some rec => if (store.insert rec).1.isCrashed then some .store else none
    | none => none

variable {s : Service} {m : Moment} {r : Http.Request} {st st' : State}

/-- A request for results that gets to the gate. -/
structure Presents (s : Service) (r : Http.Request) (params : Form.Pairs) : Prop where
  endpoint : Endpoint.find? s.mount r.target.path = some .stats
  method : Endpoint.stats.answersTo r.method = true
  enabled : s.statsEnabled = true
  configured : s.gate.configured = true
  read : loginParameters r = .ok params

/-- Parameters come before the gate exactly where a request presents them. -/
theorem presented?_eq_some_iff {params : Form.Pairs} : presented? s r = some params ↔ Presents s r params := by
  unfold presented?
  constructor
  · intro h
    split at h
    · rename_i hled
      obtain ⟨endpoint, method, enabled, configured⟩ := hled
      refine ⟨endpoint, method, enabled, configured, ?_⟩
      cases hread : loginParameters r with
      | error fault =>
        rw [hread] at h
        exact nomatch h
      | ok found =>
        rw [hread] at h
        exact congrArg _ (Option.some.inj h)
    · exact nomatch h
  · intro h
    rw [if_pos ⟨h.endpoint, h.method, h.enabled, h.configured⟩, h.read]
    rfl

theorem submitted?_of_presents {params : Form.Pairs} (h : Presents s r params) : submitted? s m r = none := by
  have hpost : isPost s r ≠ true := by
    intro hpost
    have hfind := h.endpoint.symm.trans ((isPost_iff s r).1 hpost).1
    exact absurd hfind (by decide)
  rw [submitted?, if_neg hpost]

theorem Presents.ne_options {params : Form.Pairs} (h : Presents s r params) : r.method ≠ "OPTIONS" :=
  Text.ne_of_kind h.method (by decide)

/-- What comes of a request for results that gets to the gate. -/
theorem response_of_presents {params : Form.Pairs} (h : Presents s r params) (m : Moment) (st : State) :
    (handle s m .stats r st).response =
      match s.gate.authorize r.headers params with
      | none => none
      | some false => some (turnedAway r params)
      | some true => some (shown (fetch st.store ((params.lookup "id").getD ""))) := by
  simp only [handle, results, h.enabled, h.configured, h.read, Bool.not_true, Bool.false_eq_true, if_false]
  cases s.gate.authorize r.headers params with
  | none => rfl
  | some leave => cases leave <;> rfl

/-- Only the gate makes a handler crash. -/
theorem exists_presents_of_response_eq_none {e : Endpoint} (hfind : Endpoint.find? s.mount r.target.path = some e)
    (hanswers : e.answersTo r.method = true) (h : (handle s m e r st).response = none) :
    ∃ params, Presents s r params ∧ s.gate.authorize r.headers params = none := by
  cases e with
  -- The other handlers come to a response whatever they meet, a store that crashes included.
  | empty =>
    simp only [handle, upload] at h
    split at h <;> cases h
  | garbage => cases h
  | getIp =>
    simp only [handle] at h
    split at h <;> cases h
  | telemetry =>
    simp only [handle, submit] at h
    split at h
    · split at h
      · cases h
      · unfold keep at h
        split at h
        split at h <;> cases h
    · cases h
  | stats =>
    cases henabled : s.statsEnabled with
    | false => simp [handle, results, henabled, State.respond] at h
    | true =>
      cases hconfigured : s.gate.configured with
      | false => simp [handle, results, henabled, hconfigured, State.respond] at h
      | true =>
        cases hread : loginParameters r with
        | error fault => simp [handle, results, henabled, hconfigured, hread, State.respond] at h
        | ok params =>
          have hpresents : Presents s r params := ⟨hfind, hanswers, henabled, hconfigured, hread⟩
          refine ⟨params, hpresents, ?_⟩
          rw [response_of_presents hpresents] at h
          cases hleave : s.gate.authorize r.headers params with
          | none => rfl
          | some leave =>
            rw [hleave] at h
            cases leave <;> cases h

theorem handled?_of_presents {params : Form.Pairs} (h : Presents s r params) (m : Moment) (st : State) :
    handled? s m r st = some (handle s m .stats r st) :=
  handled?_of_answers h.endpoint h.ne_options h.method m st

/-- A gate that crashes was shown parameters. -/
theorem presents_of_gate {store : Telemetry.Store} (h : s.crash? m r store = some .gate) :
    ∃ params, Presents s r params ∧ s.gate.authorize r.headers params = none := by
  unfold crash? at h
  split at h
  · rename_i params hpresented
    refine ⟨params, presented?_eq_some_iff.1 hpresented, ?_⟩
    split at h
    · assumption
    · exact nomatch h
    · split at h <;> exact nomatch h
  · split at h
    · split at h <;> exact nomatch h
    · exact nomatch h

/-- The store crashes under one of two calls. -/
theorem call_of_store {store : Telemetry.Store} (h : s.crash? m r store = some .store) :
    (∃ params, Presents s r params ∧ s.gate.authorize r.headers params = some true ∧
      fetch store ((params.lookup "id").getD "") = .crashed) ∨
    ∃ rec, submitted? s m r = some rec ∧ (store.insert rec).1 = .crashed := by
  unfold crash? at h
  split at h
  · rename_i params hpresented
    split at h
    · exact nomatch h
    · exact nomatch h
    · rename_i hleave
      split at h
      · rename_i hcrashed
        exact .inl ⟨params, presented?_eq_some_iff.1 hpresented, hleave, Telemetry.Outcome.isCrashed_iff.1 hcrashed⟩
      · exact nomatch h
  · split at h
    · rename_i rec hsubmitted
      split at h
      · rename_i hcrashed
        exact .inr ⟨rec, hsubmitted, Telemetry.Outcome.isCrashed_iff.1 hcrashed⟩
      · exact nomatch h
    · exact nomatch h

/-- A handler crashes exactly when the gate does. -/
theorem crashes_iff : crashes s m r st = true ↔ s.crash? m r st.store = some .gate := by
  constructor
  · intro h
    obtain ⟨handled, hhandled, hnone⟩ := (Option.any_eq_true _ _).1 h
    obtain ⟨e, hfind, -, hanswers, rfl⟩ := handled?_eq_some_iff.1 hhandled
    obtain ⟨params, hpresents, hleave⟩ :=
      exists_presents_of_response_eq_none hfind hanswers (Option.isNone_iff_eq_none.1 hnone)
    simp only [crash?, presented?_eq_some_iff.2 hpresents, hleave]
  · intro h
    obtain ⟨params, hpresents, hleave⟩ := presents_of_gate h
    rw [crashes, handled?_of_presents hpresents, Option.any_some, response_of_presents hpresents, hleave]
    rfl

/-! ## What a crash comes to -/

/-- The response that stands in for a handler that crashed. -/
structure StandsIn (r : Http.Request) (response : Http.Response) : Prop where
  status : response.status = 500
  body : response.body = if r.method = "HEAD" then .empty else .bytes (Text.Utf8.encode "Service panicked".toList)
  unset : response.headers.values "cache-control" = []

/-- The response of a handler that the store crashed on. -/
structure GivesUp (response : Http.Response) : Prop where
  status : response.status = 500
  body : response.body = .empty
  set : KeptOutOfCaches response

/-- A response stands in for one that a crashing gate did not give. -/
theorem standsIn_of_gate (h : s.crash? m r st.store = some .gate) : StandsIn r (s.exchange m r st).1.response := by
  obtain ⟨params, hpresents, hleave⟩ := presents_of_gate h
  have houtcome : (handle s m .stats r st).outcome = crashed := by
    rw [Handled.outcome, response_of_presents hpresents, hleave]
  have hroute : (route s m r st).1.response = framed r.method crashed := by
    rw [route_of_handled? (handled?_of_presents hpresents m st), houtcome]
  constructor
  case status => exact status_of_crashes (crashes_iff.2 h)
  case body =>
    rw [exchange_response, Http.Response.body_withField, body_withFields, hroute, body_framed_stats hpresents.method]
    rfl
  case unset =>
    rw [exchange_response, Http.Response.values_withField_other _ _ (by decide), values_withFields_other (by decide),
      hroute, values_framed _ _ (by decide)]
    rfl

theorem body_framed_of_empty {response : Http.Response} (h : response.body = .empty) (method : String) :
    (framed method response).body = .empty := by
  unfold framed
  split
  · rfl
  split
  · rfl
  · rw [Http.Response.body_withLength, h]

theorem response_keep_of_crashed {rec : Telemetry.Record} (h : (st.store.insert rec).1 = .crashed) :
    (keep rec st).response = some (.bare 500) := by
  unfold keep
  split
  rename_i outcome store hinsert
  obtain rfl : outcome = .crashed := by rw [← h, hinsert]
  rfl

/-- A handler that calls a store that crashes goes on to a response of its own. -/
theorem handled?_of_store (h : s.crash? m r st.store = some .store) :
    ∃ handled, handled? s m r st = some handled ∧ handled.response = some (.bare 500) := by
  rcases call_of_store h with ⟨params, hpresents, hleave, hfetch⟩ | ⟨rec, hsubmitted, hinsert⟩
  · refine ⟨_, handled?_of_presents hpresents m st, ?_⟩
    rw [response_of_presents hpresents, hleave, hfetch]
    rfl
  · obtain ⟨hfind, hpost⟩ := (isPost_iff s r).1 (isPost_of_submitted hsubmitted)
    refine ⟨_, handled?_of_answers hfind (by rw [hpost]; decide) ((answersTo_telemetry _).2 hpost) m st, ?_⟩
    obtain ⟨client, form, hclient, hread, rfl⟩ := submitted?_eq_some hsubmitted
    simp only [handle, hclient, submit, hread]
    exact response_keep_of_crashed hinsert

/-- A response gives up where the store does not come back. -/
theorem givesUp_of_store (h : s.crash? m r st.store = some .store) : GivesUp (s.exchange m r st).1.response := by
  obtain ⟨handled, hhandled, hresponse⟩ := handled?_of_store h
  have houtcome : handled.outcome = withFields (.bare 500) noCacheFields := by rw [Handled.outcome, hresponse]
  have hroute : (route s m r st).1.response = framed r.method (withFields (.bare 500) noCacheFields) := by
    rw [route_of_handled? hhandled, houtcome]
  have hcalm : crashes s m r st = false := by
    rw [crashes, hhandled, Option.any_some, hresponse]
    rfl
  obtain ⟨-, -, hmethod, -, -⟩ := handled?_eq_some_iff.1 hhandled
  constructor
  case status =>
    rw [exchange_response, Http.Response.status_withField, status_withFields, hroute, status_framed, status_withFields]
    rfl
  case body =>
    rw [exchange_response, Http.Response.body_withField, body_withFields, hroute]
    exact body_framed_of_empty (body_withFields _ _) _
  case set => exact keptOutOfCaches_exchange hmethod hcalm

/-- A crash leaves the store as it was. -/
theorem store_of_crash {crash : Crash} (h : s.crash? m r st.store = some crash) :
    (s.exchange m r st).2.store = st.store := by
  rw [store_exchange]
  cases crash with
  | gate =>
    obtain ⟨params, hpresents, -⟩ := presents_of_gate h
    rw [submitted?_of_presents hpresents]
    rfl
  | store =>
    rcases call_of_store h with ⟨params, hpresents, -, -⟩ | ⟨rec, hsubmitted, hinsert⟩
    · rw [submitted?_of_presents hpresents]
      rfl
    · rw [hsubmitted]
      refine Telemetry.Store.insert_refused ?_
      rw [hinsert]
      exact nofun

/-! ## What a request meets of the state -/

/-- A handler sees nothing of the state but the store. -/
theorem handle_of_store_eq (h : st.store = st'.store) (s : Service) (m : Moment) (e : Endpoint) (r : Http.Request) :
    (handle s m e r st).response = (handle s m e r st').response ∧
    (handle s m e r st).lookups = (handle s m e r st').lookups := by
  obtain ⟨store, counters⟩ := st
  obtain ⟨store', counters'⟩ := st'
  obtain rfl : store = store' := h
  cases e with
  | empty =>
    simp only [handle, upload]
    cases r.body.failure <;> exact ⟨rfl, rfl⟩
  | garbage => exact ⟨rfl, rfl⟩
  | getIp =>
    simp only [handle]
    cases s.clientText? r <;> exact ⟨rfl, rfl⟩
  | telemetry =>
    simp only [handle, submit]
    cases s.clientText? r with
    | none => exact ⟨rfl, rfl⟩
    | some client =>
      cases readForm r with
      | error response => exact ⟨rfl, rfl⟩
      | ok form =>
        simp only [keep, State.store_count]
        split <;> exact ⟨rfl, rfl⟩
  | stats =>
    simp only [handle, results]
    split
    · exact ⟨rfl, rfl⟩
    split
    · exact ⟨rfl, rfl⟩
    split
    · exact ⟨rfl, rfl⟩
    split <;> exact ⟨rfl, rfl⟩

/-- Answers depend on what is stored and not on what was counted. -/
theorem route_of_store_eq (h : st.store = st'.store) (s : Service) (m : Moment) (r : Http.Request) :
    (route s m r st).1 = (route s m r st').1 := by
  unfold route
  cases Endpoint.find? s.mount r.target.path with
  | none => rfl
  | some e =>
    obtain ⟨hresponse, hlookups⟩ := handle_of_store_eq h s m e r
    have houtcome : (handle s m e r st).outcome = (handle s m e r st').outcome := by
      rw [Handled.outcome, Handled.outcome, hresponse]
    dsimp only
    rw [houtcome, hlookups]
    split
    · rfl
    split <;> rfl

/-- Nor do an answer and the store behind it depend on anything else. -/
theorem exchange_of_store_eq (h : st.store = st'.store) (s : Service) (m : Moment) (r : Http.Request) :
    (s.exchange m r st).1 = (s.exchange m r st').1 ∧
    (s.exchange m r st).2.store = (s.exchange m r st').2.store := by
  constructor
  · have hroute := route_of_store_eq h s m r
    show (answer s m r st).1 = (answer s m r st').1
    simp only [answer, hroute]
  · rw [store_exchange, store_exchange, h]

/-! ## Trials -/

/-- A request with what it meets, the store among it: every call of it crashes before it gets to what is stored, or
none of them does. -/
structure Trial where
  moment : Moment
  request : Http.Request
  storeCrashes : Bool

/-- What became of a trial. -/
structure Episode where
  trial : Trial
  crash : Option Crash
  answer : Answer

def Trial.meets (t : Trial) (st : State) : State := if t.storeCrashes then st.withStore .crashing else st

/-- Answers the request of a trial. What was stored is still there when the calls did not get to it. -/
def undergo (s : Service) (t : Trial) (st : State) : Episode × State :=
  let (answer, after) := s.exchange t.moment t.request (t.meets st)
  (⟨t, s.crash? t.moment t.request (t.meets st).store, answer⟩,
    if t.storeCrashes then after.withStore st.store else after)

def undergoAll (s : Service) : List Trial → State → List Episode × State
  | [], st => ([], st)
  | t :: trials, st =>
    let (episode, st) := s.undergo t st
    let (episodes, st) := undergoAll s trials st
    (episode :: episodes, st)

variable {t : Trial}

theorem store_meets (h : st.store = st'.store) (t : Trial) : (t.meets st).store = (t.meets st').store := by
  unfold Trial.meets
  split
  · rfl
  · exact h

theorem store_undergo (s : Service) (t : Trial) (st : State) :
    (s.undergo t st).2.store =
      if t.storeCrashes then st.store else (s.exchange t.moment t.request st).2.store := by
  unfold undergo
  cases hcrashes : t.storeCrashes with
  | true => rfl
  | false =>
    rw [Trial.meets, hcrashes]
    rfl

theorem undergo_of_store_eq (h : st.store = st'.store) (s : Service) (t : Trial) :
    (s.undergo t st).1 = (s.undergo t st').1 ∧ (s.undergo t st).2.store = (s.undergo t st').2.store := by
  constructor
  · have hmet := store_meets h t
    simp only [undergo, (exchange_of_store_eq hmet s t.moment t.request).1, hmet]
  · rw [store_undergo, store_undergo, (exchange_of_store_eq h s t.moment t.request).2, h]

/-- A trial that crashes leaves what is stored as it was. -/
theorem store_undergo_of_crash {crash : Crash} (h : (s.undergo t st).1.crash = some crash) :
    (s.undergo t st).2.store = st.store := by
  rw [store_undergo]
  cases hcrashes : t.storeCrashes with
  | true => rfl
  | false =>
    have hmet : t.meets st = st := by rw [Trial.meets, hcrashes]; rfl
    have hcrash : s.crash? t.moment t.request (t.meets st).store = some crash := h
    rw [hmet] at hcrash
    exact store_of_crash hcrash

theorem undergoAll_cons (s : Service) (t : Trial) (trials : List Trial) (st : State) :
    s.undergoAll (t :: trials) st =
      ((s.undergo t st).1 :: (s.undergoAll trials (s.undergo t st).2).1,
        (s.undergoAll trials (s.undergo t st).2).2) := rfl

def Episode.calm (e : Episode) : Bool := e.crash.isNone

/-- A run without the trials that crashed goes as it went with them. -/
theorem undergoAll_calm (s : Service) (trials : List Trial) (h : st'.store = st.store) :
    (s.undergoAll (((s.undergoAll trials st).1.filter Episode.calm).map Episode.trial) st').1 =
      (s.undergoAll trials st).1.filter Episode.calm ∧
    (s.undergoAll (((s.undergoAll trials st).1.filter Episode.calm).map Episode.trial) st').2.store =
      (s.undergoAll trials st).2.store := by
  induction trials generalizing st st' with
  | nil => exact ⟨rfl, h⟩
  | cons t trials ih =>
    obtain ⟨hepisode, hstore⟩ := undergo_of_store_eq h s t
    rw [undergoAll_cons]
    cases hcrash : (s.undergo t st).1.crash with
    | some crash =>
      -- The trial is left out, and what is stored is what it would have been without it.
      have hcalm : (s.undergo t st).1.calm = false := by rw [Episode.calm, hcrash]; rfl
      rw [List.filter_cons_of_neg (by rw [hcalm]; exact Bool.false_ne_true)]
      exact ih (h.trans (store_undergo_of_crash hcrash).symm)
    | none =>
      have hcalm : (s.undergo t st).1.calm = true := by rw [Episode.calm, hcrash]; rfl
      have htrial : (s.undergo t st).1.trial = t := rfl
      obtain ⟨hepisodes, hafter⟩ := ih hstore
      rw [List.filter_cons_of_pos hcalm, List.map_cons, htrial, undergoAll_cons, hepisode]
      exact ⟨congrArg _ hepisodes, hafter⟩

theorem trials_undergoAll (s : Service) (trials : List Trial) (st : State) :
    (s.undergoAll trials st).1.map Episode.trial = trials := by
  induction trials generalizing st with
  | nil => rfl
  | cons t trials ih => exact congrArg (t :: ·) (ih _)

/-- Every episode of a run is what became of its trial at some state. -/
theorem mem_undergoAll {trials : List Trial} {e : Episode} (h : e ∈ (s.undergoAll trials st).1) :
    ∃ t st, e = (s.undergo t st).1 := by
  induction trials generalizing st with
  | nil => exact nomatch h
  | cons t trials ih =>
    rcases List.mem_cons.1 h with rfl | h
    · exact ⟨t, st, rfl⟩
    · exact ih h

theorem exchangeAll_cons (s : Service) (m : Moment) (r : Http.Request) (rest : List Arrival) (st : State) :
    s.exchangeAll ((m, r) :: rest) st =
      ((s.exchange m r st).1 :: (s.exchangeAll rest (s.exchange m r st).2).1,
        (s.exchangeAll rest (s.exchange m r st).2).2) := rfl

/-- Where no call of the store is made to crash, the run is an exchange of requests and answers. -/
theorem undergoAll_of_steady (trials : List Trial) (h : ∀ t ∈ trials, t.storeCrashes = false) (st : State) :
    ((s.undergoAll trials st).1.map Episode.answer, (s.undergoAll trials st).2) =
      s.exchangeAll (trials.map fun t => (t.moment, t.request)) st := by
  induction trials generalizing st with
  | nil => rfl
  | cons t trials ih =>
    have hstep : s.undergo t st =
        (⟨t, s.crash? t.moment t.request st.store, (s.exchange t.moment t.request st).1⟩,
          (s.exchange t.moment t.request st).2) := by
      simp only [undergo, Trial.meets, h t List.mem_cons_self]
      rfl
    have hrest := ih (fun t ht => h t (List.mem_cons_of_mem _ ht)) (s.exchange t.moment t.request st).2
    rw [undergoAll_cons, hstep, List.map_cons, List.map_cons, exchangeAll_cons, ← hrest]

/-- What is behind a lock that nobody poisoned stays there. -/
theorem exists_guarded_undergo {g : Telemetry.Guarded} (hg : g.poisoned = false) (h : st.store = g.toStore)
    (t : Trial) :
    ∃ g' : Telemetry.Guarded, g'.poisoned = false ∧ (s.undergo t st).2.store = g'.toStore := by
  rw [store_undergo]
  split
  · exact ⟨g, hg, h⟩
  · rw [store_exchange, h]
    cases submitted? s t.moment t.request with
    | none => exact ⟨g, hg, rfl⟩
    | some rec =>
      obtain ⟨-, hafter, hpoisoned⟩ := g.insert_eq rec
      exact ⟨_, hpoisoned.trans hg, hafter.symm⟩

theorem exists_guarded_undergoAll (trials : List Trial) {g : Telemetry.Guarded} (hg : g.poisoned = false)
    (h : st.store = g.toStore) :
    ∃ g' : Telemetry.Guarded, g'.poisoned = false ∧ (s.undergoAll trials st).2.store = g'.toStore := by
  induction trials generalizing st g with
  | nil => exact ⟨g, hg, h⟩
  | cons t trials ih =>
    obtain ⟨g', hg', h'⟩ := exists_guarded_undergo hg h t
    exact ih hg' h'

/-- A run in which crashes stay where they are: every trial has its one answer, crashes are told in it, and nothing
else of the run would be different without the trials that crashed. -/
structure Contained (s : Service) (trials : List Trial) (st : State) : Prop where
  answered : (s.undergoAll trials st).1.map Episode.trial = trials
  steady : (∀ t ∈ trials, t.storeCrashes = false) →
    ((s.undergoAll trials st).1.map Episode.answer, (s.undergoAll trials st).2) =
      s.exchangeAll (trials.map fun t => (t.moment, t.request)) st
  gate : ∀ e ∈ (s.undergoAll trials st).1, e.crash = some .gate → StandsIn e.trial.request e.answer.response
  store : ∀ e ∈ (s.undergoAll trials st).1, e.crash = some .store → GivesUp e.answer.response
  episodes : (s.undergoAll (((s.undergoAll trials st).1.filter Episode.calm).map Episode.trial) st).1 =
    (s.undergoAll trials st).1.filter Episode.calm
  stored : (s.undergoAll (((s.undergoAll trials st).1.filter Episode.calm).map Episode.trial) st).2.store =
    (s.undergoAll trials st).2.store
  lock : ∀ g : Telemetry.Guarded, g.poisoned = false → st.store = g.toStore →
    ∃ g' : Telemetry.Guarded, g'.poisoned = false ∧ (s.undergoAll trials st).2.store = g'.toStore

/-- Whatever crashes in a run of requests, it stays where it is. -/
theorem contained_undergoAll (s : Service) (trials : List Trial) (st : State) : Contained s trials st := by
  obtain ⟨hepisodes, hstored⟩ := undergoAll_calm s trials (rfl : st.store = st.store)
  constructor
  case answered => exact trials_undergoAll s trials st
  case steady => exact fun h => undergoAll_of_steady trials h st
  case gate =>
    intro e he hcrash
    obtain ⟨t, met, rfl⟩ := mem_undergoAll he
    exact standsIn_of_gate hcrash
  case store =>
    intro e he hcrash
    obtain ⟨t, met, rfl⟩ := mem_undergoAll he
    exact givesUp_of_store hcrash
  case episodes => exact hepisodes
  case stored => exact hstored
  case lock => exact fun g hg h => exists_guarded_undergoAll trials hg h

example :
    let s : Service := { plain "secret" with gate := ⟨true, fun _ _ => none⟩ }
    let run := s.undergoAll [⟨(asking "L100").1, (asking "L100").2, false⟩,
      ⟨(posting 1 "dl=10").1, (posting 1 "dl=10").2, true⟩, ⟨(posting 2 "dl=20").1, (posting 2 "dl=20").2, false⟩] forOne
    run.1.map Episode.crash = [some .gate, some .store, none] ∧ run.2.store.records.map (·.download) = ["20"] := by
  decide +kernel

end Service
end Speedtest
