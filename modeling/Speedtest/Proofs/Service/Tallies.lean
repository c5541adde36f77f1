import Mathlib
import Speedtest.Proofs.Service.Acknowledging
import Speedtest.Service.Streaming

/-!
# What the counters say

Every visit adds a known amount to each counter: one for the endpoint whose handler ran, the bytes of an upload that
arrived, the bytes of a download that went out, and one for a record that the store took or refused. So after a run
each counter is the sum of what its visits added, whatever was refused, broke off or was left half read in between.
-/
namespace Speedtest

def Telemetry.Outcome.isOk {α : Type} : Outcome α → Bool
  | .ok _ => true
  | _ => false

theorem Telemetry.Outcome.isOk_iff {outcome : Outcome Unit} : outcome.isOk = true ↔ outcome = .ok () := by
  cases outcome <;> simp [isOk]

namespace Service

/-! ## Values -/

/-- The value of a counter, which is zero as long as nothing was added to it. -/
def Counters.value (cs : Counters) (c : Counter) : Nat := (cs.value? c).getD 0

@[simp] theorem Counters.value_add (cs : Counters) (c d : Counter) (n : Nat) :
    (cs.add c n).value d = cs.value d + if d = c then n else 0 := by
  by_cases h : d = c
  · subst h
    simp [value]
  · simp [value, value?_add_other cs n h, h]

@[simp] theorem State.counters_count (st : State) (c : Counter) (n : Nat) :
    (st.count c n).counters = st.counters.add c n := rfl

/-- Polling a download adds the bytes of the pieces that it gives out to the counter of downloads. -/
theorem value_streamed (st : State) (stream : Download.ChunkStream) (polls : Nat) (c : Counter) :
    (st.streamed (.chunks stream) polls).counters.value c = st.counters.value c +
      if c = .downloaded then (Http.Payload.pieces (.chunks stream) polls).flatten.length else 0 := by
  simp only [State.streamed]
  generalize Http.Payload.pieces (.chunks stream) polls = pieces
  induction pieces generalizing st with
  | nil => simp
  | cons piece pieces ih =>
    rw [List.foldl_cons, ih, State.counters_count, Counters.value_add, List.flatten_cons, List.length_append]
    split <;> omega

/-! ## Handlers -/

def Endpoint.needsConnection : Endpoint → Bool
  | .getIp => true
  | .telemetry => true
  | _ => false

def reached? (s : Service) (r : Http.Request) : Option Endpoint :=
  (Endpoint.find? s.mount r.target.path).filter fun e =>
    r.method != "OPTIONS" && e.answersTo r.method && (!e.needsConnection || r.peer.isSome)

variable {s : Service} {r : Http.Request} {e : Endpoint}

theorem reached?_eq_some :
    reached? s r = some e ↔ Endpoint.find? s.mount r.target.path = some e ∧ r.method ≠ "OPTIONS" ∧
      e.answersTo r.method = true ∧ (e.needsConnection = true → r.peer.isSome = true) := by
  cases hneeds : e.needsConnection <;> simp [reached?, Option.filter_eq_some_iff, and_assoc, hneeds]

/-- A response that a handler wrote at once: it has a body of bytes, and says neither that there is no such path nor
that the method is a wrong one. -/
structure Written (response : Http.Response) : Prop where
  found : response.status ≠ 404 ∧ response.status ≠ 405
  body : ∃ b, response.body = .bytes b

theorem written_text {status : Nat} (h : status ≠ 404 ∧ status ≠ 405) (content : String) :
    Written (.text status content) := ⟨h, _, rfl⟩

theorem written_bare {status : Nat} (h : status ≠ 404 ∧ status ≠ 405) : Written (.bare status) := ⟨h, _, rfl⟩

theorem written_json (doc : Json) : Written (.json doc) := ⟨⟨nofun, nofun⟩, _, rfl⟩

theorem written_shown (fetched : Telemetry.Outcome (List Telemetry.Record)) : Written (shown fetched) := by
  cases fetched with
  | ok records => exact written_json _
  | failed e => exact written_bare (by decide)
  | crashed => exact written_bare (by decide)

theorem written_turnedAway (r : Http.Request) (params : Form.Pairs) : Written (turnedAway r params) := by
  refine ⟨?_, _, rfl⟩
  rw [turnedAway, Http.Response.status_withField]
  split <;> decide

/-- A handler wrote its response, if it did not crash. -/
def Handled.Writes (h : Handled) : Prop := ∀ response, h.response = some response → Written response

theorem Written.writes {h : Handled} {response : Http.Response} (hw : Written response)
    (hresponse : h.response = some response) : h.Writes := by
  intro found hfound
  rw [hresponse] at hfound
  obtain rfl := Option.some.inj hfound
  exact hw

theorem Handled.Writes.outcome {h : Handled} (hw : h.Writes) : Written h.outcome := by
  unfold Handled.outcome
  split
  · rename_i response hresponse
    obtain ⟨hfound, hbody⟩ := hw response hresponse
    constructor
    · rwa [status_withFields]
    · rwa [body_withFields]
  · exact written_text (by decide) _

theorem state_upload (r : Http.Request) (st : State) : (upload r st).state = st.count .uploaded r.body.received := by
  unfold upload
  split <;> rfl

theorem state_results (s : Service) (r : Http.Request) (st : State) : (results s r st).state = st := by
  unfold results
  split
  · rfl
  split
  · rfl
  split
  · rfl
  split <;> rfl

theorem counters_keep (rec : Telemetry.Record) (st : State) :
    (keep rec st).state.counters = st.counters.add (.inserts (st.store.insert rec).1.isOk) 1 := by
  unfold keep
  rcases st.store.insert rec with ⟨outcome, store⟩
  cases outcome <;> rfl

theorem writes_results (s : Service) (r : Http.Request) (st : State) : (results s r st).Writes := by
  unfold results
  split
  · exact (written_text (by decide) _).writes rfl
  split
  · exact (written_text (by decide) _).writes rfl
  split
  · exact (written_bare (by decide)).writes rfl
  split
  · exact fun _ h => nomatch h
  · exact (written_turnedAway r _).writes rfl
  · exact (written_shown _).writes rfl

theorem writes_keep (rec : Telemetry.Record) (st : State) : (keep rec st).Writes := by
  unfold keep
  split
  split
  · exact (written_text (by decide) _).writes rfl
  · exact (written_bare (by decide)).writes rfl

theorem writes_submit (s : Service) (m : Moment) (client : String) (r : Http.Request) (st : State) :
    (submit s m client r st).Writes := by
  unfold submit
  split
  · rename_i hrefused
    obtain ⟨status, hstatus, reason, rfl⟩ := refused_of_readForm_eq_error hrefused
    refine (written_text ?_ reason).writes rfl
    simp only [List.mem_cons, List.not_mem_nil, or_false] at hstatus
    omega
  · exact writes_keep _ _

/-- Only a download is not written at once. -/
theorem writes_handle (s : Service) (m : Moment) {e : Endpoint} (he : e ≠ .garbage) (r : Http.Request) (st : State) :
    (handle s m e r st).Writes := by
  cases e with
  | empty =>
    simp only [handle, upload]
    split
    · exact (written_bare (by decide)).writes rfl
    · exact Written.writes ⟨by decide, _, rfl⟩ rfl
  | garbage => exact absurd rfl he
  | stats => exact writes_results s r _
  | getIp =>
    simp only [handle]
    split
    · exact (written_json _).writes rfl
    · exact (written_text (by decide) _).writes rfl
  | telemetry =>
    simp only [handle]
    split
    · exact writes_submit s m _ r _
    · exact (written_text (by decide) _).writes rfl

/-! ## Routes -/

theorem body_framed_cases (method : String) (response : Http.Response) :
    (framed method response).body = response.body ∨ (framed method response).body = .bytes [] := by
  unfold framed
  split
  · exact .inr rfl
  split
  · exact .inr rfl
  · exact .inl (Http.Response.body_withLength response)

theorem bytes_framed (method : String) {response : Http.Response} (h : ∃ b, response.body = .bytes b) :
    ∃ b, (framed method response).body = .bytes b := by
  rcases body_framed_cases method response with hsame | hempty
  · rwa [hsame]
  · exact ⟨[], hempty⟩

theorem body_withAllowed (e : Endpoint) (response : Http.Response) :
    (withAllowed e response).body = response.body := by
  cases e <;> rfl

theorem handle_of_unknown (hneeds : e.needsConnection = true) (hpeer : r.peer.isSome = false) (m : Moment)
    (st : State) : handle s m e r st = st.respond unknownConnection := by
  have hclient : s.clientText? r = none := by
    rw [clientText?, Option.map_eq_none_iff]
    exact Option.not_isSome_iff_eq_none.1 (Bool.not_eq_true _ ▸ hpeer)
  cases e with
  | getIp => simp only [handle, hclient]
  | telemetry => simp only [handle, hclient]
  | empty => exact absurd hneeds (by decide)
  | garbage => exact absurd hneeds (by decide)
  | stats => exact absurd hneeds (by decide)

/-- A request that no handler runs for changes nothing, and its response is there at once. -/
theorem route_of_unreached (h : reached? s r = none) (m : Moment) (st : State) :
    (route s m r st).2 = st ∧ ∃ b, (route s m r st).1.response.body = .bytes b := by
  unfold route
  cases hfind : Endpoint.find? s.mount r.target.path with
  | none =>
    refine ⟨rfl, ?_⟩
    by_cases hoptions : r.method = "OPTIONS" <;> simp [hoptions, options, Http.Response.bare, Http.Payload.empty]
  | some e =>
    by_cases hoptions : r.method = "OPTIONS"
    · refine ⟨by simp [hoptions], [], ?_⟩
      simp [hoptions, body_withAllowed, options, Http.Response.bare, Http.Payload.empty]
    by_cases hanswers : e.answersTo r.method = true
    · have hconnection : ¬ (e.needsConnection = true → r.peer.isSome = true) := fun hknown =>
        nomatch h.symm.trans (reached?_eq_some.2 ⟨hfind, hoptions, hanswers, hknown⟩)
      rw [Classical.not_imp, Bool.not_eq_true] at hconnection
      simp only [hoptions, hanswers, if_false, if_true, handle_of_unknown hconnection.1 hconnection.2]
      exact ⟨rfl, bytes_framed _ ⟨_, body_withFields _ _⟩⟩
    · simp only [hoptions, hanswers, if_false]
      exact ⟨rfl, bytes_framed _ ⟨[], by rw [body_withAllowed, body_withFields]; rfl⟩⟩

theorem route_of_reached (h : reached? s r = some e) (m : Moment) (st : State) :
    route s m r st =
      (⟨framed r.method (handle s m e r st).outcome, (handle s m e r st).lookups⟩, (handle s m e r st).state) := by
  obtain ⟨hfind, hoptions, hanswers, -⟩ := reached?_eq_some.1 h
  simp only [route, hfind, hoptions, hanswers, if_false, if_true]

/-! ## Visits -/

def Event.sent (event : Event) : Bytes := (event.answer.response.body.pieces event.polls).flatten

/-- Whether the store did not take the record that was submitted. -/
def Event.refused (s : Service) (event : Event) : Bool :=
  (submitted? s event.moment event.request).any fun rec => !(event.before.store.insert rec).1.isOk

/-- What the handler of an endpoint adds to a counter, besides counting the request. -/
def Event.credit (s : Service) (event : Event) : Endpoint → Counter → Nat
  | .empty, .uploaded => event.request.body.received
  | .garbage, .downloaded => event.sent.length
  | .telemetry, .inserts true => if event.answer.response.status = 200 then 1 else 0
  | .telemetry, .inserts false => if event.answer.response.status = 500 ∧ event.refused s = true then 1 else 0
  | _, _ => 0

def Event.adds (s : Service) (event : Event) (c : Counter) : Nat :=
  match reached? s event.request with
  | none => 0
  | some e => (if c = .requests e then 1 else 0) + event.credit s e c

theorem body_visit (s : Service) (v : Visit) (st : State) :
    (s.visit v st).1.answer.response.body = (route s v.moment v.request st).1.response.body := by
  simp [visit, answer]

theorem status_visit (s : Service) (v : Visit) (st : State) :
    (s.visit v st).1.answer.response.status = (route s v.moment v.request st).1.response.status := by
  simp [visit, answer]

theorem state_visit (s : Service) (v : Visit) (st : State) :
    (s.visit v st).2 = (route s v.moment v.request st).2.streamed (s.visit v st).1.answer.response.body v.polls := rfl

/-- A response that is there at once adds nothing while it goes out. -/
theorem counters_visit_of_bytes {v : Visit} {st : State} {b : Bytes}
    (h : (route s v.moment v.request st).1.response.body = .bytes b) :
    (s.visit v st).2.counters = (route s v.moment v.request st).2.counters := by
  rw [state_visit, body_visit, h]
  rfl

theorem counters_visit_of_reached {v : Visit} (h : reached? s v.request = some e) (he : e ≠ .garbage) (st : State) :
    (s.visit v st).2.counters = (handle s v.moment e v.request st).state.counters := by
  have hroute := route_of_reached h v.moment st
  obtain ⟨b, hb⟩ := bytes_framed v.request.method (writes_handle s v.moment he v.request st).outcome.body
  rw [counters_visit_of_bytes (b := b) (by rw [hroute, hb]), hroute]

/-- What a visit adds to the counters is what its event says. -/
def Adds (s : Service) (v : Visit) (st : State) : Prop :=
  ∀ c, (s.visit v st).2.counters.value c = st.counters.value c + (s.visit v st).1.adds s c

theorem adds_unreached {v : Visit} (h : reached? s v.request = none) (st : State) : Adds s v st := by
  intro c
  have hadds : (s.visit v st).1.adds s c = 0 := by
    have hrequest : (s.visit v st).1.request = v.request := rfl
    rw [Event.adds, hrequest, h]
  obtain ⟨hstate, b, hb⟩ := route_of_unreached h v.moment st
  rw [counters_visit_of_bytes hb, hstate, hadds, Nat.add_zero]

/-- It is enough to look at what a handler adds besides counting the request. -/
theorem adds_of_credit {v : Visit} {st : State} (h : reached? s v.request = some e)
    (hcredit : ∀ c, (s.visit v st).2.counters.value c =
      (st.count (.requests e) 1).counters.value c + (s.visit v st).1.credit s e c) : Adds s v st := by
  intro c
  have hrequest : (s.visit v st).1.request = v.request := rfl
  rw [hcredit, State.counters_count, Counters.value_add, Event.adds, hrequest, h, Nat.add_assoc]

theorem adds_empty {v : Visit} (h : reached? s v.request = some .empty) (st : State) : Adds s v st := by
  refine adds_of_credit h fun c => ?_
  have hrequest : (s.visit v st).1.request = v.request := rfl
  rw [counters_visit_of_reached h (by decide), handle, state_upload, State.counters_count, Counters.value_add]
  cases c <;> simp [Event.credit, hrequest]

/-- A download adds what went out of it, which for its head alone is nothing. -/
theorem adds_garbage {v : Visit} (h : reached? s v.request = some .garbage) (st : State) : Adds s v st := by
  refine adds_of_credit h fun c => ?_
  have hpolls : (s.visit v st).1.polls = v.polls := rfl
  have hstate : (route s v.moment v.request st).2 = st.count (.requests .garbage) 1 := by
    rw [route_of_reached h]
    rfl
  have hbody : (∃ stream, (s.visit v st).1.answer.response.body = .chunks stream) ∨
      (s.visit v st).1.answer.response.body = .bytes [] := by
    rw [body_visit, route_of_reached h]
    rcases body_framed_cases v.request.method (handle s v.moment .garbage v.request st).outcome with hsame | hempty
    · exact .inl ⟨_, hsame⟩
    · exact .inr hempty
  rw [state_visit, hstate]
  rcases hbody with ⟨stream, hstream⟩ | hempty
  · rw [hstream, value_streamed]
    cases c <;> simp [Event.credit, Event.sent, hstream, hpolls]
  · rw [hempty]
    cases c <;> simp [Event.credit, Event.sent, hempty, State.streamed, Http.Payload.pieces]

theorem adds_stats {v : Visit} (h : reached? s v.request = some .stats) (st : State) : Adds s v st := by
  refine adds_of_credit h fun c => ?_
  rw [counters_visit_of_reached h (by decide), handle, state_results]
  rfl

theorem client_of_reached (h : reached? s r = some e) (hneeds : e.needsConnection = true) :
    ∃ client, s.clientText? r = some client := by
  obtain ⟨-, -, -, hknown⟩ := reached?_eq_some.1 h
  obtain ⟨peer, hpeer⟩ := Option.isSome_iff_exists.1 (hknown hneeds)
  exact ⟨_, by rw [clientText?, hpeer]; rfl⟩

theorem adds_getIp {v : Visit} (h : reached? s v.request = some .getIp) (st : State) : Adds s v st := by
  refine adds_of_credit h fun c => ?_
  obtain ⟨client, hclient⟩ := client_of_reached h rfl
  rw [counters_visit_of_reached h (by decide)]
  simp only [handle, hclient]
  rfl

theorem refused_visit (s : Service) (v : Visit) (st : State) :
    (s.visit v st).1.refused s =
      (submitted? s v.moment v.request).any fun rec => !(st.store.insert rec).1.isOk := rfl

/-- A submission adds to the one counter or the other as the store takes the record or not, and to neither when there
is no record. -/
theorem adds_telemetry {v : Visit} (h : reached? s v.request = some .telemetry) (st : State) : Adds s v st := by
  refine adds_of_credit h fun c => ?_
  obtain ⟨client, hclient⟩ := client_of_reached h rfl
  obtain ⟨hfind, -, hanswers, -⟩ := reached?_eq_some.1 h
  have hpost : isPost s v.request = true := (isPost_iff s v.request).2 ⟨hfind, (answersTo_telemetry _).1 hanswers⟩
  have hstatus : (s.visit v st).1.answer.response.status = (s.exchange v.moment v.request st).1.response.status := rfl
  rw [counters_visit_of_reached h (by decide)]
  simp only [handle, hclient, submit]
  cases hread : readForm v.request with
  | error response =>
    have hnone : submitted? s v.moment v.request = none := by
      simp [submitted?, hpost, hclient, hread, Except.toOption]
    have hnot := status_of_not_submitted hpost hnone st
    cases c with
    | inserts done => cases done <;> simp [Event.credit, hstatus, hnot, refused_visit, hnone, State.respond]
    | _ => rfl
  | ok form =>
    have hsome : submitted? s v.moment v.request = some (record s v.moment client v.request form) := by
      simp [submitted?, hpost, hclient, hread, Except.toOption]
    rw [counters_keep, Counters.value_add, State.store_count]
    rcases response_of_submitted hsome st with ⟨htaken, hok, -⟩ | ⟨hrefused, herror⟩
    · have hdone := Telemetry.Outcome.isOk_iff.2 htaken
      cases c with
      | inserts done => cases done <;> simp [Event.credit, hstatus, hok, hdone]
      | _ => simp [Event.credit]
    · have hdone := Bool.eq_false_iff.2 (mt Telemetry.Outcome.isOk_iff.1 hrefused)
      cases c with
      | inserts done => cases done <;> simp [Event.credit, hstatus, herror, refused_visit, hsome, hdone]
      | _ => simp [Event.credit]

theorem adds_visit (s : Service) (v : Visit) (st : State) : Adds s v st := by
  cases h : reached? s v.request with
  | none => exact adds_unreached h st
  | some e =>
    cases e with
    | empty => exact adds_empty h st
    | garbage => exact adds_garbage h st
    | getIp => exact adds_getIp h st
    | telemetry => exact adds_telemetry h st
    | stats => exact adds_stats h st

/-! ## Runs -/

/-- A run adds to each counter what its visits add, one after another. -/
theorem value_visitAll (s : Service) (visits : List Visit) (st : State) (c : Counter) :
    (s.visitAll visits st).2.counters.value c =
      st.counters.value c + ((s.visitAll visits st).1.map fun event => event.adds s c).sum := by
  induction visits generalizing st with
  | nil => rfl
  | cons v visits ih =>
    have hrun : s.visitAll (v :: visits) st =
        ((s.visit v st).1 :: (s.visitAll visits (s.visit v st).2).1, (s.visitAll visits (s.visit v st).2).2) := rfl
    rw [hrun, ih, adds_visit s v st c, List.map_cons, List.sum_cons, Nat.add_assoc]

/-! ### What events add, counter by counter -/

variable (s) (event : Event)

theorem adds_requests (e : Endpoint) :
    event.adds s (.requests e) = if reached? s event.request == some e then 1 else 0 := by
  unfold Event.adds
  cases reached? s event.request with
  | none => rfl
  | some found =>
    have hcredit : event.credit s found (.requests e) = 0 := by cases found <;> rfl
    simp only [hcredit, Nat.add_zero]
    by_cases he : e = found
    · simp [he]
    · simp [he, Ne.symm he]

theorem adds_uploaded :
    event.adds s .uploaded = if reached? s event.request == some .empty then event.request.body.received else 0 := by
  unfold Event.adds
  cases reached? s event.request with
  | none => rfl
  | some found => cases found <;> simp [Event.credit]

theorem adds_downloaded :
    event.adds s .downloaded = if reached? s event.request == some .garbage then event.sent.length else 0 := by
  unfold Event.adds
  cases reached? s event.request with
  | none => rfl
  | some found => cases found <;> simp [Event.credit]

theorem adds_inserted :
    event.adds s (.inserts true) =
      if reached? s event.request == some .telemetry && event.answer.response.status == 200 then 1 else 0 := by
  unfold Event.adds
  cases reached? s event.request with
  | none => rfl
  | some found => cases found <;> simp [Event.credit]

theorem adds_refused :
    event.adds s (.inserts false) =
      if reached? s event.request == some .telemetry && event.answer.response.status == 500 && event.refused s
      then 1 else 0 := by
  unfold Event.adds
  cases reached? s event.request with
  | none => rfl
  | some found => cases found <;> simp [Event.credit]

theorem adds_badHeaders : event.adds s .badHeaders = 0 := by
  unfold Event.adds
  cases reached? s event.request with
  | none => rfl
  | some found => cases found <;> simp [Event.credit]

theorem sum_map_ite_zero (p : Event → Bool) (f : Event → Nat) (events : List Event) :
    (events.map fun event => if p event then f event else 0).sum = ((events.filter p).map f).sum := by
  rw [List.sum_map_ite]
  simp

theorem sum_map_ite_one (p : Event → Bool) (events : List Event) :
    (events.map fun event => if p event then 1 else 0).sum = events.countP p := by
  rw [sum_map_ite_zero, List.countP_eq_length_filter]
  simp

variable {s} {event}

/-- Where a handler runs, the response says neither that there is no such path nor that the method is a wrong one. -/
theorem status_route_of_reached (h : reached? s r = some e) (m : Moment) (st : State) :
    (route s m r st).1.response.status ≠ 404 ∧ (route s m r st).1.response.status ≠ 405 := by
  rw [route_of_reached h, status_framed]
  by_cases he : e = .garbage
  · subst he
    exact ⟨nofun, nofun⟩
  · exact (writes_handle s m he r st).outcome.found

theorem unreached_visit {v : Visit} {st : State}
    (h : v.request.method = "OPTIONS" ∨ (s.visit v st).1.answer.response.status = 404 ∨
      (s.visit v st).1.answer.response.status = 405) : reached? s v.request = none := by
  rw [status_visit] at h
  by_contra hreached
  obtain ⟨e, he⟩ := Option.ne_none_iff_exists'.1 hreached
  obtain ⟨hfound, hallowed⟩ := status_route_of_reached he v.moment st
  rcases h with hoptions | h404 | h405
  · exact (reached?_eq_some.1 he).2.1 hoptions
  · exact hfound h404
  · exact hallowed h405

theorem mem_visitAll {visits : List Visit} {st : State} {event : Event}
    (h : event ∈ (s.visitAll visits st).1) : ∃ v st', event = (s.visit v st').1 := by
  induction visits generalizing st with
  | nil => exact nomatch h
  | cons v visits ih =>
    rcases List.mem_cons.1 h with rfl | h
    · exact ⟨v, st, rfl⟩
    · exact ih h

/-- What a visit finds is what those before it left behind. -/
theorem before_visitAll {visits : List Visit} {st : State} {front back : List Event} {event : Event}
    (h : (s.visitAll visits st).1 = front ++ event :: back) :
    event.before = (s.visitAll (front.map (·.toVisit)) st).2 := by
  induction visits generalizing st front with
  | nil => simp [visitAll] at h
  | cons v visits ih =>
    have hrun : (s.visitAll (v :: visits) st).1 = (s.visit v st).1 :: (s.visitAll visits (s.visit v st).2).1 := rfl
    rw [hrun] at h
    cases front with
    | nil =>
      obtain ⟨rfl, -⟩ := List.cons.inj h
      rfl
    | cons first front =>
      obtain ⟨rfl, hrest⟩ := List.cons.inj h
      have hbehind : event.before = (s.visitAll (front.map (·.toVisit)) (s.visit v st).2).2 := ih hrest
      exact hbehind

theorem toVisit_visitAll (visits : List Visit) (st : State) :
    (s.visitAll visits st).1.map (·.toVisit) = visits := by
  induction visits generalizing st with
  | nil => rfl
  | cons v visits ih => exact congrArg (v :: ·) (ih _)

/-- Events that happened at visits, one for each, over a store that nothing was counted for yet, and counters that agree
with them. -/
structure Tallied (s : Service) (store : Telemetry.Store) (visits : List Visit) (events : List Event)
    (counters : Counters) : Prop where
  visited : events.map (·.toVisit) = visits
  answered : ∀ event ∈ events, event.answer = (s.answer event.moment event.request event.before).1
  /-- Each visit found the state that those before it left. -/
  found : ∀ front event back, events = front ++ event :: back →
    event.before = (s.visitAll (front.map (·.toVisit)) ⟨store, .start⟩).2
  /-- Each endpoint was counted as often as its handler ran. -/
  requests : ∀ e, counters.value (.requests e) =
    events.countP fun event => reached? s event.request == some e
  /-- The bytes of all uploads that arrived, up to the end or to where the source failed. -/
  uploaded : counters.value .uploaded =
    ((events.filter fun event => reached? s event.request == some .empty).map fun event =>
      event.request.body.received).sum
  /-- The bytes of all downloads that went out. -/
  downloaded : counters.value .downloaded =
    ((events.filter fun event => reached? s event.request == some .garbage).map fun event =>
      event.sent.length).sum
  /-- The submissions that were acknowledged. -/
  inserted : counters.value (.inserts true) =
    events.countP fun event => reached? s event.request == some .telemetry && event.answer.response.status == 200
  /-- The submissions that got an error because the store did not take the record. -/
  refused : counters.value (.inserts false) =
    events.countP fun event =>
      reached? s event.request == some .telemetry && event.answer.response.status == 500 && event.refused s
  /-- No handler ran for a question about options, a path that is not there or a method that is not answered. -/
  unreached : ∀ event ∈ events, event.request.method = "OPTIONS" ∨ event.answer.response.status = 404 ∨
    event.answer.response.status = 405 → reached? s event.request = none

/-- Over whatever store and however much of each response goes out, each visit of a run is an event of it, and the
counters of the run agree with these. -/
theorem tallied_visitAll (s : Service) (visits : List Visit) (store : Telemetry.Store) :
    Tallied s store visits (s.visitAll visits ⟨store, .start⟩).1 (s.visitAll visits ⟨store, .start⟩).2.counters := by
  have hvalue : ∀ c, (s.visitAll visits ⟨store, .start⟩).2.counters.value c =
      ((s.visitAll visits ⟨store, .start⟩).1.map fun event => event.adds s c).sum := by
    intro c
    rw [value_visitAll]
    exact Nat.zero_add _
  constructor
  case visited => exact toVisit_visitAll visits _
  case answered =>
    intro event hevent
    obtain ⟨v, st, rfl⟩ := mem_visitAll hevent
    rfl
  case found => exact fun front event back h => before_visitAll h
  case requests =>
    intro e
    rw [hvalue, ← sum_map_ite_one]
    exact congrArg List.sum (List.map_congr_left fun event _ => adds_requests s event e)
  case uploaded =>
    rw [hvalue, ← sum_map_ite_zero]
    exact congrArg List.sum (List.map_congr_left fun event _ => adds_uploaded s event)
  case downloaded =>
    rw [hvalue, ← sum_map_ite_zero]
    exact congrArg List.sum (List.map_congr_left fun event _ => adds_downloaded s event)
  case inserted =>
    rw [hvalue, ← sum_map_ite_one]
    exact congrArg List.sum (List.map_congr_left fun event _ => adds_inserted s event)
  case refused =>
    rw [hvalue, ← sum_map_ite_one]
    exact congrArg List.sum (List.map_congr_left fun event _ => adds_refused s event)
  case unreached =>
    intro event hevent h
    obtain ⟨v, st, rfl⟩ := mem_visitAll hevent
    exact unreached_visit h

/-- A service whose downloads have three chunks of two bytes. -/
def busy : Service := { plain "secret" with chunk := [0xC0, 0xDE], defaultChunks := 3 }

/-- A request for a path, over a known connection. -/
def visiting (method path : String) (body : Http.Body) (polls : Nat) : Visit where
  moment := ⟨.epoch, "record", "request", .refused⟩
  request := { method, target := ⟨path, none⟩, headers := [], body, peer := some (.v4 ⟨192, 0, 2, 7⟩ 1024) }
  polls := polls

/-- An upload that breaks off after three bytes, a download that is dropped after two chunks, its head alone, a result,
another that breaks off, a question about options and a path that is not there. -/
def busyVisits : List Visit :=
  [visiting "POST" "/empty" ⟨[[1, 2], [3]], some "reset"⟩ 1, visiting "GET" "/garbage" (.ofBytes []) 2,
    visiting "HEAD" "/garbage" (.ofBytes []) 9, visiting "POST" "/results/telemetry" (.ofBytes (Bytes.ofAscii "dl=10")) 1,
    visiting "POST" "/results/telemetry" ⟨[[1]], some "reset"⟩ 1, visiting "OPTIONS" "/empty" (.ofBytes [1]) 1,
    visiting "GET" "/other" (.ofBytes []) 1]

theorem tallied_visitAll_busy :
    let counted : List Counter := [.requests .empty, .requests .garbage, .requests .telemetry, .uploaded, .downloaded,
      .inserts true, .inserts false]
    let kept := busy.visitAll busyVisits ⟨.recent (.empty 1), .start⟩
    let lost := busy.visitAll busyVisits ⟨.broken "down", .start⟩
    Tallied busy (.recent (.empty 1)) busyVisits kept.1 kept.2.counters ∧
    counted.map kept.2.counters.value = [1, 2, 2, 3, 4, 1, 0] ∧
    Tallied busy (.broken "down") busyVisits lost.1 lost.2.counters ∧
    counted.map lost.2.counters.value = [1, 2, 2, 3, 4, 0, 1] := by
  intro counted kept lost
  exact ⟨tallied_visitAll busy busyVisits _, by decide +kernel, tallied_visitAll busy busyVisits _, by decide +kernel⟩

end Service
end Speedtest
