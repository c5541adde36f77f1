import Speedtest.Proofs.Service.Streaming

/-!
# The books of a download

A download counts down: every poll that gives its chunk out takes one off what is left, and the counter of what was
sent grows by the chunk. So what it has given, what it says of the rest and what the counter says agree after every
poll, whether the download is polled beyond its end, dropped halfway or never polled at all.
-/
namespace Speedtest.Download.ChunkStream

open Service (State)

/-- The bytes still to come, multiplied as words. -/
def totalWord (stream : ChunkStream) : UInt64 := .ofNat stream.chunk.length * .ofNat stream.remaining

/-- The product of the words wraps around where the bytes are too many for one. -/
theorem toNat_totalWord (stream : ChunkStream) : stream.totalWord.toNat = stream.totalLength % 2 ^ 64 := by
  rw [totalWord, ← UInt64.ofNat_mul, UInt64.toNat_ofNat']
  rfl

/-- A poll takes one off what is left, if something is, and from then on the download has started. -/
theorem stream_poll (stream : ChunkStream) :
    stream.poll.2 = ⟨stream.chunk, stream.remaining - 1, stream.started || 0 < stream.remaining⟩ := by
  obtain ⟨chunk, remaining, started⟩ := stream
  cases remaining with
  | zero => simp [poll]
  | succ remaining => simp [poll]

/-- What is left of a download after so many polls. -/
theorem stream_polls (stream : ChunkStream) (polls : Nat) :
    (stream.polls polls).2 =
      ⟨stream.chunk, stream.remaining - polls, stream.started || (0 < polls && 0 < stream.remaining)⟩ := by
  induction polls generalizing stream with
  | zero => simp [ChunkStream.polls]
  | succ polls ih =>
    have hnext : (stream.polls (polls + 1)).2 = (stream.poll.2.polls polls).2 := rfl
    have hstarted : (0 < stream.remaining || (0 < polls && 0 < stream.remaining - 1)) = decide (0 < stream.remaining) := by
      by_cases hleft : 0 < stream.remaining
      · simp [hleft]
      · simp [Nat.eq_zero_of_not_pos hleft]
    rw [hnext, ih, stream_poll]
    simp only [Nat.sub_sub, Nat.add_comm 1, Bool.or_assoc, hstarted, Nat.succ_pos, decide_true, Bool.true_and]

/-- Polling adds the chunks that are given out to the counter, and where none is given out nothing changes. -/
theorem state_streamed (st : State) (stream : ChunkStream) (polls : Nat) :
    st.streamed (.chunks stream) polls =
      if min polls stream.remaining = 0 then st
      else st.count .downloaded (min polls stream.remaining * stream.chunk.length) := by
  have hlength : (List.replicate (min polls stream.remaining) stream.chunk).flatten.length =
      min polls stream.remaining * stream.chunk.length := by
    rw [List.length_flatten, List.map_replicate, List.sum_replicate, smul_eq_mul]
  rw [State.streamed, Service.foldl_count, Http.Payload.pieces, reduceOption_polls, hlength]
  simp only [List.replicate_eq_nil_iff]

/-- A download of so many chunks gives as many as it is polled for and then nothing, however often it is polled. What it
says of the rest is what it has not given, it has ended early where it has given some chunks and not all, and the
counter of what was sent has grown by what it gave, and nothing else has changed. -/
theorem countdown (chunk : Bytes) (count : UInt32) (polls : Nat) (st : State) :
    let whole := ofCount chunk count.toNat
    let given := min polls count.toNat
    let stream := (whole.polls polls).2
    let after := st.streamed (.chunks whole) polls
    (whole.polls polls).1 = List.replicate given (some chunk) ++ List.replicate (polls - count.toNat) none ∧
    stream.totalLength = chunk.length * (count.toNat - given) ∧
    stream.totalWord.toNat = chunk.length * (count.toNat - given) % 2 ^ 64 ∧
    stream.sizeHint = (count.toNat - given, some (count.toNat - given)) ∧
    (stream.endedEarly = true ↔ 0 < polls ∧ polls < count.toNat) ∧
    after.counters.value .downloaded = st.counters.value .downloaded + given * chunk.length ∧
    after = if given = 0 then st else st.count .downloaded (given * chunk.length) := by
  intro whole given stream after
  have hstream : stream = ⟨chunk, count.toNat - polls, 0 < polls && 0 < count.toNat⟩ := stream_polls whole polls
  have hleft : count.toNat - polls = count.toNat - given := by omega
  have htotal : stream.totalLength = chunk.length * (count.toNat - given) := by rw [hstream, totalLength, hleft]
  have hafter : after = if given = 0 then st else st.count .downloaded (given * chunk.length) :=
    state_streamed st whole polls
  refine ⟨items_polls whole polls, htotal, ?_, ?_, ?_, ?_, hafter⟩
  · rw [toNat_totalWord, htotal]
  · rw [hstream, sizeHint, hleft]
  · simp only [hstream, endedEarly, Bool.and_eq_true, decide_eq_true_eq]
    omega
  · rw [hafter]
    split
    case isTrue hnone => rw [hnone, Nat.zero_mul, Nat.add_zero]
    case isFalse => rw [Service.State.counters_count, Service.Counters.value_add, if_pos rfl]

/-- A download of three chunks that is dropped after two of them. -/
theorem countdown_dropped :
    let whole := ofCount [0xC0, 0xDE] 3
    let st : State := ⟨.forgetful, .start⟩
    2 * 3 < 2 ^ 64 ∧ (whole.polls 2).1 = [some [0xC0, 0xDE], some [0xC0, 0xDE]] ∧
      (whole.polls 2).2.totalWord.toNat = 2 ∧ (whole.polls 2).2.sizeHint = (1, some 1) ∧
      (whole.polls 2).2.endedEarly = true ∧
      (st.streamed (.chunks whole) 2).counters.value .downloaded = 4 := by
  intro whole st
  obtain ⟨hitems, -, htotal, hhint, hearly, hcounted, -⟩ := countdown [0xC0, 0xDE] 3 2 st
  exact ⟨by decide, hitems, htotal, hhint, hearly.2 (by decide), hcounted⟩

end Speedtest.Download.ChunkStream
