import Speedtest.Proofs.Service.Isolation
import Speedtest.Proofs.Service.Streaming
import Speedtest.Proofs.Serving.ClientSeen
import Speedtest.Serving.Traffic

/-!
# Connections that are dropped for their header

The first turn of a connection takes its header off, and a bad one ends it there. All that is left of it is a count.
Answers depend on what is stored and not on what was counted, so by induction over the turns every other connection
gets the answers that it would have got alone with those that were not dropped, whatever the order of the turns.
-/
namespace Speedtest.Serving

open Service (State Counter)

/-- What is wrong in front of a stream. One that is over before its first byte has nothing wrong with it. -/
inductive BadHeader (f : Relay.Feed) : Relay.HeaderError → Prop where
  | malformed {e : Relay.HeaderError} (settled : Relay.Settles f.bytes (.error e)) : BadHeader f e
  | truncated (unsettled : ∀ o, ¬ Relay.Settles f.bytes o) (started : f.bytes ≠ []) (closed : f.ending = .closed) :
      BadHeader f .truncated
  | unreadable {reason : String} (unsettled : ∀ o, ¬ Relay.Settles f.bytes o) (failed : f.ending = .failure reason) :
      BadHeader f (.unreadable reason)
  | late (unsettled : ∀ o, ¬ Relay.Settles f.bytes o) (silent : f.ending = .silence) : BadHeader f .timeout

/-- Whether a connection is dropped for its header. -/
def Server.rejects (s : Server) (c : Connection) : Bool :=
  match s.unwrap c.peer c.feed with
  | .ok _ => false
  | .error _ => true

/-- What becomes of connections that take turns in an order. -/
def Server.course (s : Server) (decode : Decoder) (conn : Nat → Connection) (order : List Nat) (st : State) :
    Traffic := s.turns decode conn order (.start st)

/-- Connections with a bad header are dropped and counted, and have no other part in what becomes of connections that
take turns. -/
structure DroppedAlone (s : Server) (decode : Decoder) (conn : Nat → Connection) (order : List Nat) (st : State) :
    Prop where
  bad : ∀ n e, s.unwrap (conn n).peer (conn n).feed = .error e ↔ BadHeader (conn n).feed e
  closed : ∀ n, (conn n).feed.bytes = [] → (conn n).feed.ending = .closed → s.rejects (conn n) = false
  /-- A dropped connection never comes to its requests, and nothing goes out on it. -/
  silent : ∀ n, s.rejects (conn n) = true →
    (s.course decode conn order st).stage n = (if n ∈ order then .dropped else .opened) ∧
    ((s.course decode conn order st).stage n).answers = []
  /-- Its first turn leaves a count behind, and no other turn leaves anything. -/
  untouched : ∀ before n rest, order = before ++ n :: rest → s.rejects (conn n) = true →
    (s.course decode conn (before ++ [n]) st).state =
      if n ∈ before then (s.course decode conn before st).state
      else (s.course decode conn before st).state.count .badHeaders 1
  counted : (s.course decode conn order st).state.counters.value .badHeaders =
    st.counters.value .badHeaders + (order.toFinset.filter fun n => s.rejects (conn n) = true).card
  /-- The others come as far, with the same answers, as if those had never been opened. -/
  others : ∀ n, s.rejects (conn n) = false →
    (s.course decode conn order st).stage n =
      (s.course decode conn (order.filter fun k => !s.rejects (conn k)) st).stage n
  stored : (s.course decode conn order st).state.store =
    (s.course decode conn (order.filter fun k => !s.rejects (conn k)) st).state.store

variable {s : Server} {decode : Decoder} {conn : Nat → Connection} {c : Connection}

/-! ## Bad headers -/

/-- What a stream comes to is an error exactly if something is wrong in front of it. -/
theorem getD_eq_error_iff {f : Relay.Feed} {e : Relay.HeaderError} :
    (Relay.whole (Relay.await f)).getD (.error .timeout) = .error e ↔ BadHeader f e := by
  obtain ⟨hsettled, hopen⟩ := Relay.whole_settled f
  by_cases hany : ∃ o, Relay.Settles f.bytes o
  · obtain ⟨o, ho⟩ := hany
    rw [hsettled o ho, Option.getD_some]
    constructor
    · rintro rfl
      exact .malformed ho
    · intro h
      cases h with
      | malformed h => exact ho.unique h
      | truncated h => exact absurd ho (h o)
      | unreadable h => exact absurd ho (h o)
      | late h => exact absurd ho (h o)
  · have hnone : ∀ o, ¬ Relay.Settles f.bytes o := not_exists.1 hany
    rw [hopen hnone]
    constructor
    · intro h
      cases hending : f.ending with
      | closed =>
        rw [hending, Relay.unsettled, Option.getD_some] at h
        split at h
        · cases h
        · rename_i hstarted
          obtain rfl := Except.error.inj h
          exact .truncated hnone hstarted hending
      | failure reason =>
        rw [hending] at h
        obtain rfl := Except.error.inj h
        exact .unreadable hnone hending
      | silence =>
        rw [hending] at h
        obtain rfl := Except.error.inj h
        exact .late hnone hending
    · intro h
      cases h with
      | malformed h => exact absurd h (hnone _)
      | truncated _ hstarted hending => rw [hending, Relay.unsettled, if_neg hstarted, Option.getD_some]
      | unreadable _ hending => rw [hending]; rfl
      | late _ hending => rw [hending]; rfl

theorem unwrap_eq_error_iff {list : Address.AllowList} (hrelays : s.relays = some list) {peer : Address.Endpoint}
    {f : Relay.Feed} {e : Relay.HeaderError} : s.unwrap peer f = .error e ↔ BadHeader f e := by
  rw [unwrap_of_relays hrelays, ← getD_eq_error_iff]
  rcases Relay.unwrap_cases f with ⟨e', hwhole, herror⟩ | ⟨h, left, hwhole, -, hok⟩
  · rw [hwhole, herror]
    exact ⟨fun h => congrArg _ (Except.error.inj h), fun h => congrArg _ (Except.error.inj h)⟩
  · rw [hwhole, hok]
    constructor
    · intro h
      cases h
    · intro h
      cases h

theorem rejects_iff : s.rejects c = true ↔ ∃ e, s.unwrap c.peer c.feed = .error e := by
  unfold Server.rejects
  cases s.unwrap c.peer c.feed with
  | ok found => simp
  | error e => simp

theorem arrivals_of_rejects (h : s.rejects c = true) (decode : Decoder) : ∃ e, s.arrivals decode c = .error e := by
  obtain ⟨e, he⟩ := rejects_iff.1 h
  exact ⟨e, by rw [Server.arrivals, he]; rfl⟩

theorem arrivals_of_not_rejects (h : s.rejects c = false) (decode : Decoder) :
    ∃ arrivals, s.arrivals decode c = .ok arrivals := by
  cases hunwrap : s.unwrap c.peer c.feed with
  | error e => exact absurd (rejects_iff.2 ⟨e, hunwrap⟩) (Bool.eq_false_iff.1 h)
  | ok found => exact ⟨_, by rw [Server.arrivals, hunwrap]; rfl⟩

theorem not_settles_nil (o : Relay.Outcome) : ¬ Relay.Settles [] o := by
  intro h
  cases h with
  | line lead => exact lead.ne_nil (by decide) rfl
  | tooLong lead => exact lead.ne_nil (by decide) rfl
  | binary lead => exact lead.ne_nil (by decide) rfl
  | plain noText => exact noText.2 List.nil_prefix

theorem not_rejects_of_closed {list : Address.AllowList} (hrelays : s.relays = some list) (hempty : c.feed.bytes = [])
    (hclosed : c.feed.ending = .closed) : s.rejects c = false := by
  refine Bool.eq_false_iff.2 fun h => ?_
  obtain ⟨e, he⟩ := rejects_iff.1 h
  cases (unwrap_eq_error_iff hrelays).1 he with
  | malformed h => exact not_settles_nil _ (hempty ▸ h)
  | truncated _ hstarted => exact hstarted hempty
  | unreadable _ hfailed => exact nomatch hclosed.symm.trans hfailed
  | late _ hsilent => exact nomatch hclosed.symm.trans hsilent

/-! ## Turns -/

theorem course_append (order : List Nat) (n : Nat) (st : State) :
    s.course decode conn (order ++ [n]) st = s.turn decode conn (s.course decode conn order st) n := by
  rw [Server.course, Server.turns, List.foldl_append]
  rfl

theorem turns_cons (n : Nat) (order : List Nat) (t : Traffic) :
    s.turns decode conn (n :: order) t = s.turns decode conn order (s.turn decode conn t n) := rfl

theorem stage_turn_same (s : Server) (decode : Decoder) (conn : Nat → Connection) (t : Traffic) (n : Nat) :
    (s.turn decode conn t n).stage n = (s.advance decode (conn n) (t.stage n) t.state).1 := if_pos rfl

theorem state_turn (s : Server) (decode : Decoder) (conn : Nat → Connection) (t : Traffic) (n : Nat) :
    (s.turn decode conn t n).state = (s.advance decode (conn n) (t.stage n) t.state).2 := rfl

theorem stage_turn_other {t : Traffic} {n k : Nat} (h : k ≠ n) : (s.turn decode conn t n).stage k = t.stage k :=
  if_neg h

/-- A turn of a connection that is dropped for its header. -/
theorem advance_of_rejects (h : s.rejects c = true) (decode : Decoder) {stage : Stage}
    (hstage : stage = .opened ∨ stage = .dropped) (st : State) :
    s.advance decode c stage st =
      (.dropped, match stage with | .opened => st.count .badHeaders 1 | _ => st) := by
  rcases hstage with rfl | rfl
  · obtain ⟨e, he⟩ := arrivals_of_rejects h decode
    simp only [Server.advance, he]
  · rfl

/-- What a turn comes to depends on what is stored, and not on what was counted. -/
theorem advance_of_store_eq {st st' : State} (h : st.store = st'.store) (s : Server) (decode : Decoder) (c : Connection)
    (stage : Stage) :
    (s.advance decode c stage st).1 = (s.advance decode c stage st').1 ∧
    (s.advance decode c stage st).2.store = (s.advance decode c stage st').2.store := by
  cases stage with
  | opened =>
    simp only [Server.advance]
    cases s.arrivals decode c with
    | ok arrivals => exact ⟨rfl, h⟩
    | error e => exact ⟨rfl, h⟩
  | talking answers waiting =>
    cases waiting with
    | nil => exact ⟨rfl, h⟩
    | cons arrival waiting =>
      obtain ⟨m, r⟩ := arrival
      obtain ⟨hanswer, hstore⟩ := Service.exchange_of_store_eq h s.service m r
      simp only [Server.advance]
      exact ⟨by rw [hanswer], hstore⟩
  | dropped => exact ⟨rfl, h⟩

theorem badHeaders_advance (h : s.rejects c = false) (decode : Decoder) (stage : Stage) (st : State) :
    (s.advance decode c stage st).2.counters.value .badHeaders = st.counters.value .badHeaders := by
  cases stage with
  | opened =>
    obtain ⟨arrivals, harrivals⟩ := arrivals_of_not_rejects h decode
    simp only [Server.advance, harrivals]
  | talking answers waiting =>
    cases waiting with
    | nil => rfl
    | cons arrival waiting => exact Service.badHeaders_exchange s.service arrival.1 arrival.2 st
  | dropped => rfl

/-! ## Connections alone -/

/-- Turns of one connection on which requests are waiting answer them one after another. -/
theorem turns_of_talking {n : Nat} (waiting : List Service.Arrival) {answers : List Service.Answer} {t : Traffic}
    (hstage : t.stage n = .talking answers waiting) {k : Nat} (hlong : waiting.length ≤ k) :
    (s.turns decode conn (List.replicate k n) t).stage n =
      .talking (answers ++ (s.service.exchangeAll waiting t.state).1) [] ∧
    (s.turns decode conn (List.replicate k n) t).state = (s.service.exchangeAll waiting t.state).2 := by
  induction k generalizing answers waiting t with
  | zero =>
    obtain rfl := List.eq_nil_of_length_eq_zero (Nat.le_zero.1 hlong)
    refine ⟨?_, rfl⟩
    rw [Service.exchangeAll, List.append_nil]
    exact hstage
  | succ k ih =>
    rw [List.replicate_succ, turns_cons]
    have hsame := stage_turn_same s decode conn t n
    have hstate := state_turn s decode conn t n
    rw [hstage] at hsame hstate
    cases waiting with
    | nil =>
      have hrest := ih [] hsame (Nat.zero_le k)
      rwa [hstate] at hrest
    | cons arrival waiting =>
      obtain ⟨m, r⟩ := arrival
      have hrest := ih waiting hsame (Nat.le_of_succ_le_succ hlong)
      rw [hstate, List.append_assoc] at hrest
      exact hrest

/-- Further turns of a dropped connection change nothing. -/
theorem turns_of_dropped {n : Nat} {t : Traffic} (hstage : t.stage n = .dropped) (k : Nat) :
    (s.turns decode conn (List.replicate k n) t).stage n = .dropped ∧
    (s.turns decode conn (List.replicate k n) t).state = t.state := by
  induction k generalizing t with
  | zero => exact ⟨hstage, rfl⟩
  | succ k ih =>
    have hsame := stage_turn_same s decode conn t n
    have hstate := state_turn s decode conn t n
    rw [hstage] at hsame hstate
    have hrest := ih hsame
    rw [hstate] at hrest
    exact hrest

/-- A connection that has all turns to itself is served as it is alone. -/
theorem turns_eq_serve {n : Nat} {t : Traffic} (hstage : t.stage n = .opened) {k : Nat}
    (hlong : ∀ arrivals, s.arrivals decode (conn n) = .ok arrivals → arrivals.length ≤ k) :
    ((s.turns decode conn (List.replicate (k + 1) n) t).stage n).answers = (s.serve decode (conn n) t.state).1 ∧
    (s.turns decode conn (List.replicate (k + 1) n) t).state = (s.serve decode (conn n) t.state).2 := by
  have hsame := stage_turn_same s decode conn t n
  have hstate := state_turn s decode conn t n
  rw [hstage] at hsame hstate
  rw [List.replicate_succ, turns_cons]
  cases harrivals : s.arrivals decode (conn n) with
  | ok arrivals =>
    simp only [Server.advance, harrivals] at hsame hstate
    obtain ⟨hanswers, hafter⟩ := turns_of_talking arrivals hsame (hlong arrivals harrivals)
    rw [hanswers, hafter, hstate, Server.serve, harrivals]
    exact ⟨rfl, rfl⟩
  | error e =>
    simp only [Server.advance, harrivals] at hsame hstate
    obtain ⟨hdropped, hafter⟩ := turns_of_dropped hsame k
    rw [hdropped, hafter, hstate, Server.serve, harrivals]
    exact ⟨rfl, rfl⟩

/-! ## Courses -/

/-- A connection with a bad header is dropped at its first turn and stays so. -/
theorem stage_course_of_rejects {n : Nat} (h : s.rejects (conn n) = true) (decode : Decoder) (order : List Nat)
    (st : State) : (s.course decode conn order st).stage n = if n ∈ order then .dropped else .opened := by
  induction order using List.reverseRecOn with
  | nil => rfl
  | append_singleton order k ih =>
    rw [course_append]
    by_cases hk : n = k
    · subst hk
      have hstage : (s.course decode conn order st).stage n = .opened ∨
          (s.course decode conn order st).stage n = .dropped := by
        rw [ih]
        split
        · exact .inr rfl
        · exact .inl rfl
      simp [Server.turn, advance_of_rejects h decode hstage]
    · rw [stage_turn_other hk, ih]
      simp [hk]

/-- The first turn of such a connection is counted, and no later one. -/
theorem state_course_of_rejects {n : Nat} (h : s.rejects (conn n) = true) (decode : Decoder) (before : List Nat)
    (st : State) :
    (s.course decode conn (before ++ [n]) st).state =
      if n ∈ before then (s.course decode conn before st).state
      else (s.course decode conn before st).state.count .badHeaders 1 := by
  have hstage := stage_course_of_rejects h decode before st
  rw [course_append]
  simp only [Server.turn]
  split
  · rename_i hmem
    rw [if_pos hmem] at hstage
    rw [hstage, advance_of_rejects h decode (.inr rfl)]
  · rename_i hmem
    rw [if_neg hmem] at hstage
    rw [hstage, advance_of_rejects h decode (.inl rfl)]

/-- As many bad headers are counted as connections with one have had a turn. -/
theorem counted_course (s : Server) (decode : Decoder) (conn : Nat → Connection) (order : List Nat) (st : State) :
    (s.course decode conn order st).state.counters.value .badHeaders =
      st.counters.value .badHeaders + (order.toFinset.filter fun n => s.rejects (conn n) = true).card := by
  induction order using List.reverseRecOn with
  | nil => rfl
  | append_singleton order n ih =>
    have hset : (order ++ [n]).toFinset = insert n order.toFinset := by
      ext k
      simp
    rw [hset, Finset.filter_insert]
    cases h : s.rejects (conn n) with
    | false =>
      rw [if_neg Bool.false_ne_true, ← ih, course_append]
      exact badHeaders_advance h decode _ _
    | true =>
      rw [if_pos rfl, state_course_of_rejects h]
      by_cases hmem : n ∈ order
      · have hin : n ∈ order.toFinset.filter fun n => s.rejects (conn n) = true := by simp [hmem, h]
        rw [if_pos hmem, Finset.insert_eq_of_mem hin, ih]
      · have hout : n ∉ order.toFinset.filter fun n => s.rejects (conn n) = true := by simp [hmem]
        rw [if_neg hmem, Finset.card_insert_of_notMem hout, Service.State.counters_count,
          Service.Counters.value_add, ih]
        simp [Nat.add_assoc]

/-- Two courses stand alike: what is stored is the same, and so is how far every connection came that is not
dropped. -/
structure StandAlike (s : Server) (conn : Nat → Connection) (t t' : Traffic) : Prop where
  stored : t.state.store = t'.state.store
  stage : ∀ n, s.rejects (conn n) = false → t.stage n = t'.stage n

/-- Leaving the turns of the dropped connections out changes nothing for the others. -/
theorem standAlike_course (s : Server) (decode : Decoder) (conn : Nat → Connection) (order : List Nat) (st : State) :
    StandAlike s conn (s.course decode conn order st)
      (s.course decode conn (order.filter fun k => !s.rejects (conn k)) st) := by
  induction order using List.reverseRecOn with
  | nil => exact ⟨rfl, fun _ _ => rfl⟩
  | append_singleton order n ih =>
    cases h : s.rejects (conn n) with
    | true =>
      have hfilter : (order ++ [n]).filter (fun k => !s.rejects (conn k)) =
          order.filter fun k => !s.rejects (conn k) := by simp [h]
      rw [hfilter]
      constructor
      · rw [state_course_of_rejects h, ← ih.stored]
        split <;> rfl
      · intro k hk
        have hne : k ≠ n := fun hkn => Bool.false_ne_true (hk.symm.trans (hkn ▸ h))
        rw [course_append, stage_turn_other hne, ih.stage k hk]
    | false =>
      have hfilter : (order ++ [n]).filter (fun k => !s.rejects (conn k)) =
          (order.filter fun k => !s.rejects (conn k)) ++ [n] := by simp [h]
      rw [hfilter, course_append, course_append]
      have hturn := advance_of_store_eq ih.stored s decode (conn n)
        ((s.course decode conn order st).stage n)
      constructor
      · show (s.advance decode (conn n) _ _).2.store = (s.advance decode (conn n) _ _).2.store
        rw [hturn.2, ih.stage n h]
      · intro k hk
        by_cases hkn : k = n
        · subst hkn
          simp only [Server.turn, if_true]
          rw [hturn.1, ih.stage k hk]
        · rw [stage_turn_other hkn, stage_turn_other hkn, ih.stage k hk]

/-- Where headers are looked for, whatever order the turns of connections come in, those with a bad header are dropped
alone. -/
theorem bad_headers_dropped_alone (s : Server) {list : Address.AllowList} (hrelays : s.relays = some list)
    (decode : Decoder) (conn : Nat → Connection) (order : List Nat) (st : State) :
    DroppedAlone s decode conn order st where
  bad _ _ := unwrap_eq_error_iff hrelays
  closed _ hempty hclosed := not_rejects_of_closed hrelays hempty hclosed
  silent n h := by
    have hstage := stage_course_of_rejects h decode order st
    refine ⟨hstage, ?_⟩
    rw [hstage]
    split <;> rfl
  untouched before n _ _ h := state_course_of_rejects h decode before st
  counted := counted_course s decode conn order st
  others := (standAlike_course s decode conn order st).stage
  stored := (standAlike_course s decode conn order st).stored

/-- A connection whose header is a line that names nothing, one that ends inside a signature, one that is closed at
once, and beside them one that a relay passes on. -/
def mixed : Nat → Connection
  | 0 => { fromRelay with feed := ⟨[Bytes.ofAscii "PROXY TCP4 x\r\n"], .closed⟩ }
  | 1 => { fromRelay with feed := ⟨[[0x0D, 0x0A]], .closed⟩ }
  | 2 => { fromRelay with feed := ⟨[], .closed⟩ }
  | _ => fromRelay

theorem bad_headers_dropped_alone_mixed :
    (List.range 4).map (fun n => (relayedFrom (.v4 ⟨198, 51, 100, 0⟩ 24)).rejects (mixed n)) =
      [true, true, false, false] ∧
    DroppedAlone (relayedFrom (.v4 ⟨198, 51, 100, 0⟩ 24)) claiming mixed [3, 0, 2, 3, 1, 0]
      ⟨.recent (.empty 2), .start⟩ :=
  ⟨by decide +kernel, bad_headers_dropped_alone _ rfl claiming mixed _ _⟩

end Speedtest.Serving
