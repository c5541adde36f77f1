import Speedtest.Identifier
import Speedtest.Proofs.Service.Submissions
import Speedtest.Proofs.Telemetry.Recent
import Speedtest.Proofs.Text.Scan

/-!
# Finding results again

A post that is answered with an identifier is acknowledged. Over a store in memory that was empty at first, the
acknowledged posts of a run are all that the store has seen, in their order, so whoever may ask is shown exactly
what was acknowledged: one result under its identifier, until as many others were acknowledged after it as the
store holds, and the newest ones under the identifier that stands for them.
-/
namespace Speedtest.Service

/-! ## Asking -/

/-- A request for the results under an identifier by someone who may see them. -/
structure Asks (s : Service) (r : Http.Request) (id : String) : Prop where
  endpoint : Endpoint.find? s.mount r.target.path = some .stats
  method : Endpoint.stats.answersTo r.method = true
  authorized : ∃ params, loginParameters r = .ok params ∧ params.lookup "id" = some id ∧
    s.gate.authorize r.headers params = some true

/-- A response that shows exactly some records; without its body where the method wants none. -/
structure Shows (r : Http.Request) (response : Http.Response) (recs : List Telemetry.Record) : Prop where
  status : response.status = 200
  body : response.body = if r.method = "HEAD" then .empty else .bytes (page recs).write

variable {s : Service}

theorem answersTo_stats (method : String) :
    Endpoint.stats.answersTo method = true ↔ method = "GET" ∨ method = "HEAD" ∨ method = "POST" := by
  simp [Endpoint.answersTo, Endpoint.methods?]

theorem body_framed_stats {method : String} (h : Endpoint.stats.answersTo method = true)
    (response : Http.Response) :
    (framed method response).body = if method = "HEAD" then .empty else response.body := by
  rcases (answersTo_stats method).1 h with rfl | rfl | rfl
  · exact body_framed (by decide) (by decide) response
  · rfl
  · exact body_framed (by decide) (by decide) response

/-- Whoever the gate lets pass is shown what the store has. -/
theorem response_of_authorized (hstats : s.statsEnabled = true) (hgate : s.gate.configured = true)
    {r : Http.Request} {params : Form.Pairs} (hfind : Endpoint.find? s.mount r.target.path = some .stats)
    (hanswers : Endpoint.stats.answersTo r.method = true) (hparams : loginParameters r = .ok params)
    (hauthorized : s.gate.authorize r.headers params = some true) (m : Moment) (st : State) :
    let fetched := fetch st.store ((params.lookup "id").getD "")
    (s.exchange m r st).1.response.status = (shown fetched).status ∧
    (s.exchange m r st).1.response.body = if r.method = "HEAD" then .empty else (shown fetched).body := by
  have hmethod : r.method ≠ "OPTIONS" := Text.ne_of_kind hanswers (by decide)
  obtain ⟨hstatus, hbody⟩ := response_exchange m st hfind hmethod hanswers
  have houtcome : (handle s m .stats r st).outcome =
      withFields (shown (fetch st.store ((params.lookup "id").getD ""))) noCacheFields := by
    simp [handle, results, hstats, hgate, hparams, hauthorized, State.respond, Handled.outcome]
  rw [hstatus, hbody, body_framed_stats hanswers, houtcome, status_withFields, body_withFields]
  exact ⟨rfl, rfl⟩

/-- Whoever may ask is shown what the store has. -/
theorem response_of_asks (hstats : s.statsEnabled = true) (hgate : s.gate.configured = true)
    {r : Http.Request} {id : String} (h : Asks s r id) (m : Moment) (st : State) :
    (s.exchange m r st).1.response.status = (shown (fetch st.store id)).status ∧
    (s.exchange m r st).1.response.body =
      if r.method = "HEAD" then .empty else (shown (fetch st.store id)).body := by
  obtain ⟨params, hparams, hid, hauthorized⟩ := h.authorized
  have hresponse := response_of_authorized hstats hgate h.endpoint h.method hparams hauthorized m st
  rwa [hid, Option.getD_some] at hresponse

theorem shows_of_fetch (hstats : s.statsEnabled = true) (hgate : s.gate.configured = true)
    {r : Http.Request} {id : String} (h : Asks s r id) (m : Moment) {st : State}
    {recs : List Telemetry.Record} (hfetch : fetch st.store id = .ok recs) :
    Shows r (s.exchange m r st).1.response recs := by
  obtain ⟨hstatus, hbody⟩ := response_of_asks hstats hgate h m st
  rw [hfetch] at hstatus hbody
  exact ⟨hstatus, hbody⟩

theorem status_of_fetch_failed (hstats : s.statsEnabled = true) (hgate : s.gate.configured = true)
    {r : Http.Request} {id : String} (h : Asks s r id) (m : Moment) {st : State}
    {e : Telemetry.StoreError} (hfetch : fetch st.store id = .failed e) :
    (s.exchange m r st).1.response.status = 500 := by
  rw [(response_of_asks hstats hgate h m st).1, hfetch]
  rfl

/-! ## Fetching -/

/-- A text that an identifier is written as: groups of digits with hyphens in between. -/
def IsIdentifier (id : String) : Prop := ∃ bytes, id = Identifier.text bytes

/-- An identifier has hyphens, so it is neither empty nor the one that stands for the last results. -/
theorem IsIdentifier.special {id : String} (h : IsIdentifier id) : id ≠ lastResultsId ∧ id ≠ "" := by
  obtain ⟨bytes, rfl⟩ := h
  have hhyphen : '-' ∈ (Identifier.text bytes).toList := by
    simp [Identifier.text, Identifier.grouped]
  constructor
  · intro hlast
    rw [hlast] at hhyphen
    exact absurd hhyphen (by decide)
  · intro hempty
    rw [hempty] at hhyphen
    exact absurd hhyphen (by decide)

/-- Under its identifier a record alone is found, until as many came after it as the store holds. -/
theorem fetch_identifier (capacity : Nat) (before : List Telemetry.Record) (rec : Telemetry.Record)
    {after : List Telemetry.Record} (hid : IsIdentifier rec.uuid)
    (hnew : ∀ other ∈ after, other.uuid ≠ rec.uuid) :
    fetch (.recent ((Telemetry.Recent.empty capacity).insertAll (before ++ rec :: after))) rec.uuid =
      if after.length < capacity then .ok [rec] else .failed (.notFound rec.uuid) := by
  rw [fetch, if_neg hid.special.1, if_neg hid.special.2, Telemetry.Store.find]
  rcases Nat.lt_or_ge after.length capacity with hroom | hfull
  · rw [Telemetry.Recent.find?_insertAll_of_lt hnew hroom, if_pos hroom]
  · rw [Telemetry.Recent.find?_insertAll_of_le hnew hfull, if_neg (Nat.not_lt.2 hfull)]

theorem fetch_last (capacity : Nat) (recs : List Telemetry.Record) :
    fetch (.recent ((Telemetry.Recent.empty capacity).insertAll recs)) "L100" =
      .ok (recs.reverse.take (min 100 (min capacity recs.length))) := by
  have hname : "L100" = lastResultsId := rfl
  rw [fetch, if_pos hname, Telemetry.Store.last, Telemetry.Recent.last_insertAll]
  rfl

/-! ## Acknowledged posts -/

/-- The requests of a run with the answers to them. -/
def log (s : Service) (arrivals : List Arrival) (st : State) : List (Arrival × Answer) :=
  arrivals.zip (s.exchangeAll arrivals st).1

def acknowledges (s : Service) (entry : Arrival × Answer) : Bool :=
  isPost s entry.1.2 && entry.2.response.status == 200

/-- The posts that were acknowledged, in their order. -/
def acknowledged (s : Service) (entries : List (Arrival × Answer)) : List Arrival :=
  (entries.filter (acknowledges s)).map Prod.fst

theorem acknowledged_append (front back : List (Arrival × Answer)) :
    acknowledged s (front ++ back) = acknowledged s front ++ acknowledged s back := by
  rw [acknowledged, List.filter_append, List.map_append]
  rfl

theorem acknowledged_cons (entry : Arrival × Answer) (entries : List (Arrival × Answer)) :
    acknowledged s (entry :: entries) =
      if acknowledges s entry then entry.1 :: acknowledged s entries else acknowledged s entries := by
  rw [acknowledged, List.filter_cons]
  split <;> rfl

theorem mem_of_mem_acknowledged {arrivals : List Arrival} {st : State} {a : Arrival}
    (h : a ∈ acknowledged s (s.log arrivals st)) : a ∈ arrivals := by
  obtain ⟨entry, hentry, rfl⟩ := List.mem_map.1 h
  exact (List.of_mem_zip (List.mem_filter.1 hentry).1).1

/-- A store in memory acknowledges exactly the posts that submit a record. -/
theorem acknowledges_exchange {st : State} {store : Telemetry.Recent} (hstore : st.store = .recent store)
    (a : Arrival) :
    acknowledges s (a, (s.exchange a.1 a.2 st).1) = (submitted? s a.1 a.2).isSome := by
  cases hpost : isPost s a.2 with
  | true =>
    rcases response_post hstore hpost a.1 with ⟨rec, hrec, hstatus, -⟩ | ⟨hrec, hstatus⟩
    · simp [acknowledges, hpost, hstatus, hrec]
    · simp [acknowledges, hpost, hstatus, hrec]
  | false => simp [acknowledges, hpost, submitted?]

/-- What an acknowledged post is told is the identifier of its record. -/
theorem body_of_acknowledges {st : State} {store : Telemetry.Recent} (hstore : st.store = .recent store)
    {a : Arrival} (h : acknowledges s (a, (s.exchange a.1 a.2 st).1) = true) :
    (s.exchange a.1 a.2 st).1.response.body =
      .bytes (Text.Utf8.encode ("id " ++ a.1.recordId).toList) := by
  obtain ⟨hpost, hdone⟩ := Bool.and_eq_true_iff.1 h
  rcases response_post hstore hpost a.1 with ⟨rec, hrec, -, hbody⟩ | ⟨-, hstatus⟩
  · obtain ⟨client, form, -, -, rfl⟩ := submitted?_eq_some hrec
    exact hbody
  · exact absurd (eq_of_beq hdone) hstatus

/-! ## Runs -/

theorem store_exchange_recent {st : State} {store : Telemetry.Recent} (hstore : st.store = .recent store)
    (m : Moment) (r : Http.Request) :
    (s.exchange m r st).2.store = .recent (store.insertAll (submitted? s m r).toList) := by
  rw [store_exchange, hstore]
  cases submitted? s m r <;> rfl

theorem log_cons (a : Arrival) (arrivals : List Arrival) (st : State) :
    s.log (a :: arrivals) st =
      (a, (s.exchange a.1 a.2 st).1) :: s.log arrivals (s.exchange a.1 a.2 st).2 := rfl

/-- A run over a store in memory puts the records of the acknowledged posts into it, in their order. -/
theorem store_exchangeAll_recent (hopen : s.redactAddresses = false) (arrivals : List Arrival) {st : State}
    {store : Telemetry.Recent} (hstore : st.store = .recent store) :
    (s.exchangeAll arrivals st).2.store =
      .recent (store.insertAll ((acknowledged s (s.log arrivals st)).map (recordOf s))) := by
  induction arrivals generalizing st store with
  | nil => exact hstore
  | cons a arrivals ih =>
    have hrun : (s.exchangeAll (a :: arrivals) st).2 =
        (s.exchangeAll arrivals (s.exchange a.1 a.2 st).2).2 := rfl
    have hnext := store_exchange_recent (s := s) hstore a.1 a.2
    rw [hrun, ih hnext, log_cons, acknowledged_cons, acknowledges_exchange hstore]
    cases hrec : submitted? s a.1 a.2 with
    | none => rfl
    | some rec =>
      rw [eq_recordOf_of_submitted hopen hrec]
      rfl

/-- What stands before an entry of a log is a run of its own, and the entry was answered after it. -/
theorem split_log {arrivals : List Arrival} {st : State} {before after : List (Arrival × Answer)}
    {a : Arrival} {answer : Answer} (h : s.log arrivals st = before ++ (a, answer) :: after) :
    ∃ front, s.log front st = before ∧ answer = (s.exchange a.1 a.2 (s.exchangeAll front st).2).1 := by
  induction before generalizing arrivals st with
  | nil =>
    cases arrivals with
    | nil => exact nomatch h
    | cons b arrivals =>
      obtain ⟨hentry, -⟩ := List.cons.inj h
      obtain ⟨rfl, rfl⟩ := Prod.mk.inj hentry
      exact ⟨[], rfl, rfl⟩
  | cons entry before ih =>
    cases arrivals with
    | nil => exact nomatch h
    | cons b arrivals =>
      rw [log_cons] at h
      obtain ⟨rfl, htail⟩ := List.cons.inj h
      obtain ⟨front, hfront, hanswer⟩ := ih htail
      exact ⟨b :: front, by rw [log_cons, hfront], hanswer⟩

/-- An entry of a log was answered over the records of the posts that were acknowledged before it. -/
theorem store_before (hopen : s.redactAddresses = false) {capacity : Nat} {st : State}
    (hstart : st.store = .recent (.empty capacity)) {arrivals : List Arrival}
    {before after : List (Arrival × Answer)} {a : Arrival} {answer : Answer}
    (h : s.log arrivals st = before ++ (a, answer) :: after) :
    ∃ st', answer = (s.exchange a.1 a.2 st').1 ∧
      st'.store = .recent ((Telemetry.Recent.empty capacity).insertAll
        ((acknowledged s before).map (recordOf s))) := by
  obtain ⟨front, rfl, hanswer⟩ := split_log h
  exact ⟨_, hanswer, store_exchangeAll_recent hopen front hstart⟩

theorem recordId_ne_of_distinct {front back : List Arrival} {a : Arrival}
    (h : ((front ++ a :: back).map (·.1.recordId)).Nodup) : ∀ b ∈ back, b.1.recordId ≠ a.1.recordId := by
  intro b hb hsame
  rw [List.map_append, List.map_cons] at h
  have hfresh := (List.nodup_cons.1 (List.nodup_append.1 h).2.1).1
  exact hfresh (List.mem_map.2 ⟨b, hb, hsame⟩)

/-- In a run over a store in memory that was empty at first, every acknowledged post was told the identifier of
its record. Whoever may ask for it later is shown that record alone while fewer posts were acknowledged in
between than the store holds, and gets an error from then on. Whoever asks for the last results is shown the
records of the posts that were acknowledged before, the newest first and at most a hundred of them. -/
theorem results_found (s : Service) (capacity : Nat) (arrivals : List Arrival) (st : State)
    (hstart : st.store = .recent (.empty capacity)) (hstats : s.statsEnabled = true)
    (hgate : s.gate.configured = true) (hopen : s.redactAddresses = false)
    (hids : ∀ a ∈ acknowledged s (s.log arrivals st), IsIdentifier a.1.recordId)
    (hdistinct : ((acknowledged s (s.log arrivals st)).map (·.1.recordId)).Nodup) :
    (∀ before a answer after, s.log arrivals st = before ++ (a, answer) :: after →
      acknowledges s (a, answer) = true →
      answer.response.body = .bytes (Text.Utf8.encode ("id " ++ a.1.recordId).toList) ∧
      ∀ between ask reply rest, after = between ++ (ask, reply) :: rest → Asks s ask.2 a.1.recordId →
        ((acknowledged s between).length < capacity → Shows ask.2 reply.response [recordOf s a]) ∧
        (capacity ≤ (acknowledged s between).length → reply.response.status = 500)) ∧
    ∀ before ask reply rest, s.log arrivals st = before ++ (ask, reply) :: rest → Asks s ask.2 "L100" →
      Shows ask.2 reply.response
        (((acknowledged s before).reverse.take
          (min 100 (min capacity (acknowledged s before).length))).map (recordOf s)) := by
  constructor
  · intro before a answer after hlog hack
    constructor
    · obtain ⟨st', rfl, hstore⟩ := store_before hopen hstart hlog
      exact body_of_acknowledges hstore hack
    · rintro between ask reply rest rfl hasks
      have hposts : acknowledged s (s.log arrivals st) =
          acknowledged s before ++ a :: (acknowledged s between ++ acknowledged s ((ask, reply) :: rest)) := by
        rw [hlog, acknowledged_append, acknowledged_cons, if_pos hack, acknowledged_append]
      rw [hposts] at hids hdistinct
      have hid : IsIdentifier a.1.recordId := hids a (List.mem_append_right _ List.mem_cons_self)
      have hnew : ∀ other ∈ (acknowledged s between).map (recordOf s), other.uuid ≠ a.1.recordId := by
        intro other hother
        obtain ⟨b, hb, rfl⟩ := List.mem_map.1 hother
        exact recordId_ne_of_distinct hdistinct b (List.mem_append_left _ hb)
      -- The question comes after both the posts before this one and those in between.
      have hask : s.log arrivals st = (before ++ (a, answer) :: between) ++ (ask, reply) :: rest := by
        rw [hlog, List.append_assoc, List.cons_append]
      obtain ⟨st', rfl, hstore⟩ := store_before hopen hstart hask
      rw [acknowledged_append, acknowledged_cons, if_pos hack, List.map_append, List.map_cons] at hstore
      have hfetch := fetch_identifier capacity ((acknowledged s before).map (recordOf s))
        (recordOf s a) hid hnew
      rw [← hstore, List.length_map] at hfetch
      constructor
      · intro hroom
        rw [if_pos hroom] at hfetch
        exact shows_of_fetch hstats hgate hasks ask.1 hfetch
      · intro hfull
        rw [if_neg (Nat.not_lt.2 hfull)] at hfetch
        exact status_of_fetch_failed hstats hgate hasks ask.1 hfetch
  · intro before ask reply rest hlog hasks
    obtain ⟨st', rfl, hstore⟩ := store_before hopen hstart hlog
    apply shows_of_fetch hstats hgate hasks ask.1
    rw [hstore, fetch_last, List.length_map, ← List.map_reverse, ← List.map_take]

/-- The identifier of a record from one byte that is drawn again and again. -/
def drawnId (byte : UInt8) : String := Identifier.text (Identifier.ofDrawn (List.replicate 16 byte))

def posting (byte : UInt8) (form : String) : Arrival :=
  (⟨.epoch, drawnId byte, "request", .refused⟩,
    { method := "POST"
      target := ⟨"/results/telemetry", some "dl=1&extra=late"⟩
      headers := []
      body := .ofBytes (Bytes.ofAscii form)
      peer := some (.v4 ⟨192, 0, 2, 1⟩ 51000) })

/-- The question for the results under an identifier, with the password. -/
def asking (id : String) : Arrival :=
  (⟨.epoch, drawnId 0, "request", .refused⟩,
    { method := "GET"
      target := ⟨"/stats", some ("id=" ++ id)⟩
      headers := [Http.Headers.ascii "authorization" "Bearer secret"]
      body := .ofBytes []
      peer := none })

/-- Two results, and then a question for each of them and one for the last results. -/
def twoPostings : List Arrival :=
  [posting 1 "dl=10", posting 2 "dl=20&ispinfo=", asking (drawnId 1), asking (drawnId 2), asking "L100"]

def forOne : State := ⟨.recent (.empty 1), .start⟩

/-- Two results in a store with room for one, of which the older is gone. -/
theorem results_found_twoPostings :
    ∃ before first second last, (plain "secret").log twoPostings forOne =
        before ++ [(asking (drawnId 1), first), (asking (drawnId 2), second), (asking "L100", last)] ∧
      first.response.status = 500 ∧
      Shows (asking (drawnId 2)).2 second.response
        [recordOf (plain "secret") (posting 2 "dl=20&ispinfo=")] ∧
      Shows (asking "L100").2 last.response
        [recordOf (plain "secret") (posting 2 "dl=20&ispinfo=")] := by
  have hids : ∀ a ∈ acknowledged (plain "secret") ((plain "secret").log twoPostings forOne),
      IsIdentifier a.1.recordId := by
    intro a ha
    have hmem := mem_of_mem_acknowledged ha
    simp only [twoPostings, List.mem_cons, List.not_mem_nil, or_false] at hmem
    rcases hmem with rfl | rfl | rfl | rfl | rfl <;> exact ⟨_, rfl⟩
  have hasks : ∀ id ∈ [drawnId 1, drawnId 2, "L100"], Asks (plain "secret") (asking id).2 id := by
    intro id hid
    simp only [List.mem_cons, List.not_mem_nil, or_false] at hid
    rcases hid with rfl | rfl | rfl
    · exact ⟨by decide +kernel, by decide, _, rfl, by decide +kernel, by decide +kernel⟩
    · exact ⟨by decide +kernel, by decide, _, rfl, by decide +kernel, by decide +kernel⟩
    · exact ⟨by decide +kernel, by decide, _, rfl, by decide +kernel, by decide +kernel⟩
  obtain ⟨hfound, hlast⟩ := results_found (plain "secret") 1 twoPostings forOne rfl rfl rfl rfl hids
    (by decide +kernel)
  refine ⟨[_, _], _, _, _, rfl, ?_, ?_, ?_⟩
  · have hlater := (hfound [] _ _ _ rfl (by decide +kernel)).2 [_] _ _ _ rfl (hasks _ (by simp))
    exact hlater.2 (by decide +kernel)
  · have hlater := (hfound [_] _ _ _ rfl (by decide +kernel)).2 [_] _ _ _ rfl (hasks _ (by simp))
    exact hlater.1 (by decide +kernel)
  · have hposts : acknowledged (plain "secret") (((plain "secret").log twoPostings forOne).take 4) =
        [posting 1 "dl=10", posting 2 "dl=20&ispinfo="] := by decide +kernel
    have hshown := hlast (((plain "secret").log twoPostings forOne).take 4) _ _ [] rfl (hasks _ (by simp))
    rw [hposts] at hshown
    exact hshown

end Speedtest.Service
