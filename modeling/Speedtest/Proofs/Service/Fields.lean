import Speedtest.Proofs.Service.Submissions

/-!
# The fields of every response

Setting a field leaves it there once, whatever was there before. What keeps a response out of caches is set on
whatever a path answers, then what opens it to every origin, and last the identifier of its request. A handler that
crashed leaves nothing to set the first of them on; the others are set on the response that stands in for it.
-/
namespace Speedtest

namespace Http

/-! ## The values of a name -/

/-- All values of a name, in order. -/
def Headers.values (h : Headers) (name : String) : List Bytes := (h.filter (·.1 == name)).map (·.2)

theorem Headers.values_set_same (h : Headers) (name : String) (value : Bytes) :
    (h.set name value).values name = [value] := by
  have hnone : (h.filter (·.1 != name)).filter (·.1 == name) = [] := by
    rw [List.filter_filter, List.filter_eq_nil_iff]
    intro field _
    simp
  rw [values, set, List.filter_append, hnone]
  simp

theorem Headers.values_set_other (h : Headers) {name other : String} (value : Bytes) (hne : other ≠ name) :
    (h.set name value).values other = h.values other := by
  have hsame : (h.filter (·.1 != name)).filter (·.1 == other) = h.filter (·.1 == other) := by
    rw [List.filter_filter]
    apply List.filter_congr
    intro field _
    by_cases hfield : field.1 = other
    · simp [hfield, hne]
    · simp [hfield]
  rw [values, set, List.filter_append, hsame]
  simp [Headers.values, Ne.symm hne]

theorem Response.values_withField_same (r : Response) (name : String) (value : Bytes) :
    (r.withField name value).headers.values name = [value] := r.headers.values_set_same name value

theorem Response.values_withField_other (r : Response) {name other : String} (value : Bytes) (hne : other ≠ name) :
    (r.withField name value).headers.values other = r.headers.values other := r.headers.values_set_other value hne

theorem Response.values_withLength (r : Response) {name : String} (hne : name ≠ "content-length") :
    r.withLength.headers.values name = r.headers.values name := by
  unfold withLength
  split
  · exact r.values_withField_other _ hne
  · rfl

end Http

namespace Service

/-! ## Fields that a response has once -/

/-- A response that has each of some fields once. -/
def HasOnce (response : Http.Response) (fields : List (String × String)) : Prop :=
  ∀ field ∈ fields, response.headers.values field.1 = [Bytes.ofAscii field.2]

theorem values_withFields_other {fields : List (String × String)} {name : String}
    (hother : ∀ field ∈ fields, name ≠ field.1) (response : Http.Response) :
    (withFields response fields).headers.values name = response.headers.values name := by
  induction fields generalizing response with
  | nil => rfl
  | cons field fields ih =>
    have hrest := ih (fun other hmem => hother other (List.mem_cons_of_mem _ hmem))
      (response.withField field.1 (Bytes.ofAscii field.2))
    exact hrest.trans (response.values_withField_other _ (hother field List.mem_cons_self))

/-- Fields of distinct names are all there once they were set, as none of them takes another one away. -/
theorem hasOnce_withFields {fields : List (String × String)} (hdistinct : (fields.map Prod.fst).Nodup)
    (response : Http.Response) : HasOnce (withFields response fields) fields := by
  induction fields generalizing response with
  | nil => exact fun _ hmem => nomatch hmem
  | cons field fields ih =>
    obtain ⟨hnew, hrest⟩ := List.nodup_cons.1 hdistinct
    intro found hmem
    rcases List.mem_cons.1 hmem with rfl | hmem
    -- None of the later fields has the name of the first one, so setting them leaves it.
    · have hother : ∀ other ∈ fields, found.1 ≠ other.1 := by
        intro other hmem hsame
        exact hnew (hsame ▸ List.mem_map_of_mem hmem)
      exact (values_withFields_other hother _).trans (response.values_withField_same _ _)
    · exact ih hrest _ found hmem

theorem HasOnce.of_values_eq {response response' : Http.Response} {fields : List (String × String)}
    (h : HasOnce response fields)
    (hsame : ∀ field ∈ fields, response'.headers.values field.1 = response.headers.values field.1) :
    HasOnce response' fields :=
  fun field hmem => (hsame field hmem).trans (h field hmem)

theorem values_withAllowed (e : Endpoint) (response : Http.Response) {name : String} (hne : name ≠ "allow") :
    (withAllowed e response).headers.values name = response.headers.values name := by
  unfold withAllowed
  split
  · exact response.values_withField_other _ hne
  · rfl

theorem values_framed (method : String) (response : Http.Response) {name : String}
    (hne : name ≠ "content-length") :
    (framed method response).headers.values name = response.headers.values name := by
  unfold framed
  split
  · rfl
  split
  · exact response.values_withLength hne
  · exact response.values_withLength hne

/-! ## Handlers that crash -/

/-- What the handler of a request comes to, when the request is led to one. -/
def handled? (s : Service) (m : Moment) (r : Http.Request) (st : State) : Option Handled :=
  ((Endpoint.find? s.mount r.target.path).filter fun e => r.method != "OPTIONS" && e.answersTo r.method).map
    fun e => handle s m e r st

def crashes (s : Service) (m : Moment) (r : Http.Request) (st : State) : Bool :=
  (handled? s m r st).any fun h => h.response.isNone

variable {s : Service} {r : Http.Request}

theorem handled?_eq_some_iff {m : Moment} {st : State} {h : Handled} :
    handled? s m r st = some h ↔ ∃ e, Endpoint.find? s.mount r.target.path = some e ∧ r.method ≠ "OPTIONS" ∧
      e.answersTo r.method = true ∧ handle s m e r st = h := by
  simp only [handled?, Option.map_eq_some_iff, Option.filter_eq_some_iff, Bool.and_eq_true, bne_iff_ne, and_assoc]

theorem handled?_of_answers {e : Endpoint} (hfind : Endpoint.find? s.mount r.target.path = some e)
    (hmethod : r.method ≠ "OPTIONS") (hanswers : e.answersTo r.method = true) (m : Moment) (st : State) :
    handled? s m r st = some (handle s m e r st) :=
  handled?_eq_some_iff.2 ⟨e, hfind, hmethod, hanswers, rfl⟩

theorem route_of_handled? {m : Moment} {st : State} {h : Handled} (hhandled : handled? s m r st = some h) :
    route s m r st = (⟨framed r.method h.outcome, h.lookups⟩, h.state) := by
  obtain ⟨e, hfind, hmethod, hanswers, rfl⟩ := handled?_eq_some_iff.1 hhandled
  simp only [route, hfind, hmethod, hanswers, if_false, if_true]

/-- Whatever a path answers is kept out of caches, unless a handler crashed. -/
theorem hasOnce_route {m : Moment} {st : State} (hmethod : r.method ≠ "OPTIONS")
    (hcalm : crashes s m r st = false) : HasOnce (route s m r st).1.response noCacheFields := by
  have hset (response : Http.Response) : HasOnce (withFields response noCacheFields) noCacheFields :=
    hasOnce_withFields (by decide) response
  have hframed {response : Http.Response} (h : HasOnce response noCacheFields) :
      HasOnce (framed r.method response) noCacheFields :=
    h.of_values_eq fun field hmem => values_framed _ _ ((by decide :
      ∀ field ∈ noCacheFields, field.1 ≠ "content-length") field hmem)
  cases hhandled : handled? s m r st with
  | some h =>
    rw [crashes, hhandled, Option.any_some] at hcalm
    obtain ⟨response, hresponse⟩ := Option.isSome_iff_exists.1 (Option.isNone_eq_false_iff.1 hcalm)
    have houtcome : h.outcome = withFields response noCacheFields := by rw [Handled.outcome, hresponse]
    rw [route_of_handled? hhandled, houtcome]
    exact hframed (hset response)
  | none =>
    unfold route
    cases hfind : Endpoint.find? s.mount r.target.path with
    | none =>
      simp only [hmethod, if_false]
      exact hset _
    | some e =>
      by_cases hanswers : e.answersTo r.method = true
      · have hsome := handled?_of_answers hfind hmethod hanswers m st
        rw [hhandled] at hsome
        cases hsome
      · simp only [hmethod, hanswers, if_false]
        refine hframed ((hset _).of_values_eq fun field hmem => values_withAllowed e _ ?_)
        exact (by decide : ∀ field ∈ noCacheFields, field.1 ≠ "allow") field hmem

/-! ## Responses -/

theorem exchange_response (s : Service) (m : Moment) (r : Http.Request) (st : State) :
    (s.exchange m r st).1.response =
      (withFields (route s m r st).1.response originFields).withField "x-request-id" (requestId m r) := rfl

/-- A response is kept out of caches by four fields, each of which it has once. -/
structure KeptOutOfCaches (response : Http.Response) : Prop where
  cacheControl : response.headers.values "cache-control" =
    [Bytes.ofAscii "no-cache, no-store, no-transform, must-revalidate, private, max-age=0"]
  pragma : response.headers.values "pragma" = [Bytes.ofAscii "no-cache"]
  expires : response.headers.values "expires" = [Bytes.ofAscii "Thu, 01 Jan 1970 00:00:00 UTC"]
  accelExpires : response.headers.values "x-accel-expires" = [Bytes.ofAscii "0"]

theorem HasOnce.keptOutOfCaches {response : Http.Response} (h : HasOnce response noCacheFields) :
    KeptOutOfCaches response := by
  simp only [HasOnce, noCacheFields, List.forall_mem_cons] at h
  obtain ⟨hcontrol, hpragma, hexpires, haccel, -⟩ := h
  exact ⟨hcontrol, hpragma, hexpires, haccel⟩

theorem keptOutOfCaches_exchange {m : Moment} {st : State} (hmethod : r.method ≠ "OPTIONS")
    (hcalm : crashes s m r st = false) : KeptOutOfCaches (s.exchange m r st).1.response := by
  refine ((hasOnce_route hmethod hcalm).of_values_eq fun field hmem => ?_).keptOutOfCaches
  obtain ⟨hrequestId, horigin⟩ := (by decide : ∀ field ∈ noCacheFields,
    field.1 ≠ "x-request-id" ∧ ∀ other ∈ originFields, field.1 ≠ other.1) field hmem
  rw [exchange_response, Http.Response.values_withField_other _ _ hrequestId, values_withFields_other horigin]

/-- A response is open to every origin, and tells the identifier of its request once: the first one that the request
came with, or else the one that was drawn for it. -/
structure Marked (m : Moment) (r : Http.Request) (response : Http.Response) : Prop where
  origin : response.headers.values "access-control-allow-origin" = [Bytes.ofAscii "*"]
  own : ∀ id, r.headers.first? "x-request-id" = some id → response.headers.values "x-request-id" = [id]
  drawn : r.headers.first? "x-request-id" = none →
    response.headers.values "x-request-id" = [Text.Utf8.encode m.requestId.toList]

/-- Every response is open to every origin and tells the identifier of its request once. -/
theorem marked_exchange (s : Service) (m : Moment) (r : Http.Request) (st : State) :
    Marked m r (s.exchange m r st).1.response := by
  have hid := (withFields (route s m r st).1.response originFields).values_withField_same "x-request-id"
    (requestId m r)
  rw [← exchange_response] at hid
  constructor
  case origin =>
    have horigin := hasOnce_withFields (by decide : (originFields.map Prod.fst).Nodup) (route s m r st).1.response _
      List.mem_cons_self
    rw [exchange_response, Http.Response.values_withField_other _ _ (by decide)]
    exact horigin
  case own =>
    intro id hown
    rw [hid, requestId, hown]
    rfl
  case drawn =>
    intro hnone
    rw [hid, requestId, hnone]
    rfl

theorem status_of_crashes {m : Moment} {st : State} (h : crashes s m r st = true) :
    (s.exchange m r st).1.response.status = 500 := by
  obtain ⟨handled, hhandled, hnone⟩ := (Option.any_eq_true _ _).1 h
  have houtcome : handled.outcome = crashed := by rw [Handled.outcome, Option.isNone_iff_eq_none.1 hnone]
  rw [exchange_response, Http.Response.status_withField, status_withFields, route_of_handled? hhandled, status_framed,
    houtcome]
  rfl

/-- Whatever is asked for, unless it is the options of a path, the response is open to every origin and tells the
identifier of its request. It is kept out of caches too, unless the handler crashed, and then it says so. -/
theorem marked_and_keptOutOfCaches (s : Service) (m : Moment) (r : Http.Request) (st : State)
    (hmethod : r.method ≠ "OPTIONS") :
    Marked m r (s.exchange m r st).1.response ∧
    (crashes s m r st = false → KeptOutOfCaches (s.exchange m r st).1.response) ∧
    (crashes s m r st = true → (s.exchange m r st).1.response.status = 500) :=
  ⟨marked_exchange s m r st, keptOutOfCaches_exchange hmethod, status_of_crashes⟩

/-- A service whose gate is set up and crashes whenever it is asked. -/
def gateless : Service := { plain "secret" with gate := ⟨true, fun _ _ => none⟩ }

def someMoment : Moment := ⟨.epoch, "record", "drawn", .refused⟩

def forgetting : State := ⟨.forgetful, .start⟩

/-- A question that comes with identifiers of its own. -/
def numbered (path : String) (ids : List String) : Http.Request where
  method := "GET"
  target := ⟨path, none⟩
  headers := ids.map (Http.Headers.ascii "x-request-id")
  body := .ofBytes []
  peer := none

/-- A question under two identifiers for a path that is not there, and one under none that makes the gate crash. -/
theorem marked_and_keptOutOfCaches_numbered :
    (Marked someMoment (numbered "/nowhere" ["first", "second"])
        (gateless.exchange someMoment (numbered "/nowhere" ["first", "second"]) forgetting).1.response ∧
      KeptOutOfCaches
        (gateless.exchange someMoment (numbered "/nowhere" ["first", "second"]) forgetting).1.response) ∧
    (gateless.exchange someMoment (numbered "/stats" []) forgetting).1.response.headers.values "x-request-id" =
      [Bytes.ofAscii "drawn"] ∧
    (gateless.exchange someMoment (numbered "/stats" []) forgetting).1.response.status = 500 := by
  obtain ⟨hmarked, hkept, -⟩ := marked_and_keptOutOfCaches gateless someMoment
    (numbered "/nowhere" ["first", "second"]) forgetting (by decide)
  obtain ⟨hdrawn, -, hcrashed⟩ := marked_and_keptOutOfCaches gateless someMoment (numbered "/stats" []) forgetting
    (by decide)
  exact ⟨⟨hmarked, hkept rfl⟩, hdrawn.drawn rfl, hcrashed rfl⟩

end Service
end Speedtest
