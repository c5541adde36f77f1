import Speedtest.Proofs.Download.Counts
import Speedtest.Proofs.Service.Tallies

/-!
# Visits that reach the end

A download gives its chunk out once at each poll until none is left. Whoever polls it to the end has received the
whole response, so visits that poll often enough are exchanges: the answers and the state after them are the same.
-/
namespace Speedtest

/-- A download gives out as many chunks as it was polled for, and no more than it has left. -/
theorem Download.ChunkStream.reduceOption_polls (stream : ChunkStream) (polls : Nat) :
    (stream.polls polls).1.reduceOption = List.replicate (min polls stream.remaining) stream.chunk := by
  rw [stream.items_polls, List.reduceOption_append, List.reduceOption_replicate_none, List.append_nil]
  exact List.filterMap_replicate_of_some rfl

namespace Service

/-! ## Counting in one step or in several -/

theorem Counters.add_add (cs : Counters) (c : Counter) (n k : Nat) : (cs.add c n).add c k = cs.add c (n + k) := by
  have hraise : ∀ vs, raise c k (raise c n vs) = raise c (n + k) vs := by
    intro vs
    induction vs with
    | nil => simp [raise]
    | cons v vs ih =>
      obtain ⟨d, m⟩ := v
      by_cases h : c = d
      · simp [raise, h, Nat.add_assoc]
      · simp [raise, h, ih]
  rw [add, add, add, hraise]

theorem State.count_count (st : State) (c : Counter) (n k : Nat) :
    (st.count c n).count c k = st.count c (n + k) := by
  rw [State.count, State.count, State.count, Counters.add_add]

/-- Counting pieces one after another is counting their bytes at once, if there is a piece. -/
theorem foldl_count (st : State) (c : Counter) (pieces : List Bytes) :
    pieces.foldl (fun st piece => st.count c piece.length) st =
      if pieces = [] then st else st.count c pieces.flatten.length := by
  induction pieces generalizing st with
  | nil => rfl
  | cons piece pieces ih =>
    rw [List.foldl_cons, ih]
    split
    · rename_i hnil
      simp [hnil]
    · simp [State.count_count]

/-! ## Whole responses -/

/-- A body that is polled often enough to reach its end. -/
def ReadToEnd (body : Http.Payload) (polls : Nat) : Prop :=
  ∀ stream, body = .chunks stream → stream.remaining ≤ polls

theorem streamed_eq_delivered {response : Http.Response} {polls : Nat} (h : ReadToEnd response.body polls)
    (st : State) : st.streamed response.body polls = st.delivered response := by
  unfold State.streamed State.delivered
  cases hbody : response.body with
  | bytes b => rfl
  | chunks stream =>
    have hpieces : Http.Payload.pieces (.chunks stream) polls = List.replicate stream.remaining stream.chunk := by
      rw [Http.Payload.pieces, stream.reduceOption_polls, Nat.min_eq_right (h stream hbody)]
    have hlength : (List.replicate stream.remaining stream.chunk).flatten.length = stream.totalLength := by
      simp [Download.ChunkStream.totalLength, Nat.mul_comm]
    simp only [hpieces, foldl_count, List.replicate_eq_nil_iff, hlength]

theorem readToEnd_of_bytes {body : Http.Payload} (h : ∃ b, body = .bytes b) (polls : Nat) : ReadToEnd body polls := by
  obtain ⟨b, rfl⟩ := h
  exact fun _ hstream => nomatch hstream

/-- No response has more chunks than its request asks for. -/
theorem readToEnd_visit {s : Service} {v : Visit} (h : s.chunksAsked v.request ≤ v.polls) (st : State) :
    ReadToEnd (s.visit v st).1.answer.response.body v.polls := by
  rw [body_visit]
  cases hreached : reached? s v.request with
  | none => exact readToEnd_of_bytes (route_of_unreached hreached v.moment st).2 _
  | some e =>
    rw [route_of_reached hreached]
    by_cases he : e = .garbage
    · subst he
      rcases body_framed_cases v.request.method (handle s v.moment .garbage v.request st).outcome with hbody | hbody
      · rw [hbody]
        intro stream hstream
        obtain rfl := Http.Payload.chunks.inj hstream
        exact h
      · exact readToEnd_of_bytes ⟨[], hbody⟩ _
    · exact readToEnd_of_bytes (bytes_framed _ (writes_handle s v.moment he v.request st).outcome.body) _

/-- A visit that polls as often as there are chunks is an exchange. -/
theorem state_visit_of_polls {s : Service} {v : Visit} (h : s.chunksAsked v.request ≤ v.polls) (st : State) :
    (s.visit v st).2 = (s.exchange v.moment v.request st).2 :=
  streamed_eq_delivered (readToEnd_visit h st) _

/-- No request has anything to do with the count of bad headers. -/
theorem badHeaders_exchange (s : Service) (m : Moment) (r : Http.Request) (st : State) :
    (s.exchange m r st).2.counters.value .badHeaders = st.counters.value .badHeaders := by
  have hvisit := state_visit_of_polls (s := s) (v := ⟨m, r, s.chunksAsked r⟩) (Nat.le_refl _) st
  rw [← hvisit, adds_visit, adds_badHeaders, Nat.add_zero]

/-- Visits that poll as often as there are chunks are exchanges. -/
theorem visitAll_eq_exchangeAll (s : Service) {visits : List Visit}
    (h : ∀ v ∈ visits, s.chunksAsked v.request ≤ v.polls) (st : State) :
    s.exchangeAll (visits.map fun v => (v.moment, v.request)) st =
      ((s.visitAll visits st).1.map (·.answer), (s.visitAll visits st).2) := by
  induction visits generalizing st with
  | nil => rfl
  | cons v visits ih =>
    have hstate := state_visit_of_polls (h v List.mem_cons_self) st
    have hrest := ih (fun w hw => h w (List.mem_cons_of_mem _ hw)) (s.visit v st).2
    have hexchanges : s.exchangeAll ((v :: visits).map fun v => (v.moment, v.request)) st =
        ((s.exchange v.moment v.request st).1 ::
            (s.exchangeAll (visits.map fun v => (v.moment, v.request)) (s.exchange v.moment v.request st).2).1,
          (s.exchangeAll (visits.map fun v => (v.moment, v.request)) (s.exchange v.moment v.request st).2).2) := rfl
    rw [hexchanges, ← hstate, hrest]
    rfl

end Service
end Speedtest
