import Speedtest.Relay.Replay

/-!
# A stream with bytes ahead of it is one stream

Reading goes through the bytes ahead and then through those of the stream underneath, as if they had come from one
stream: none is lost, none comes twice, and the end is not seen before the last of them. Writing and closing in between
make no difference to that, and reading makes none to what the stream underneath gets.
-/
namespace Speedtest.Relay

/-! ## What is read and what is taken up -/

def Reply.read : Reply → Bytes
  | .bytes read => read
  | _ => []

/-- The bytes that the replies hand out, one after the other. -/
def delivered (replies : List Reply) : Bytes := (replies.map Reply.read).flatten

def Operation.handed : Operation → Bytes
  | .write bytes _ => bytes
  | .writeAll parts _ => parts.flatten
  | _ => []

def accepted (operation : Operation) : Reply → Bytes
  | .wrote count => operation.handed.take count
  | _ => []

/-! ## One use -/

theorem takeChunk?_eq_none {count : Nat} {chunks : List Bytes} (h : takeChunk? count chunks = none) :
    chunks.flatten = [] := by
  fun_induction takeChunk? count chunks with
  | case1 => rfl
  | case2 chunks ih => exact ih h
  | case3 chunk chunks _ => cases h

/-- What a read takes is the front of what is left, within the count, and not empty where there is room. -/
theorem takeChunk?_eq_some {count : Nat} {chunks rest : List Bytes} {b : Bytes}
    (h : takeChunk? count chunks = some (b, rest)) :
    b ++ rest.flatten = chunks.flatten ∧ b.length ≤ count ∧ (0 < count → b ≠ []) := by
  fun_induction takeChunk? count chunks with
  | case1 => cases h
  | case2 chunks ih => exact ih h
  | case3 chunk chunks hne =>
    obtain ⟨rfl, rfl⟩ := Prod.mk.inj (Option.some.inj h)
    refine ⟨?_, List.length_take_le _ _, fun hcount htake => ?_⟩
    · split
      · rw [List.flatten_cons, List.flatten_cons, ← List.append_assoc, List.take_append_drop]
      · rw [List.take_of_length_le (by omega), List.flatten_cons]
    · rcases List.take_eq_nil_iff.1 htake with rfl | rfl
      · exact Nat.lt_irrefl 0 hcount
      · exact hne rfl

namespace Replay

/-- What a use of a stream can come to, with the reply and the stream after it: a read of the front of what remains, one
of a stream that has failed or is over behind that, or a use that reads nothing. -/
inductive Comes (r : Replay) : Operation → Reply → Replay → Prop where
  | front {count : Nat} {b : Bytes} {after : Replay} (all : b ++ after.remaining = r.remaining)
    (within : b.length ≤ count) (room : 0 < count → b ≠ []) (ending : after.inner.ending = r.inner.ending)
    (written : after.written = r.written) : Comes r (.read count) (.bytes b) after
  | failed {count : Nat} {reason : String} (spent : r.remaining = []) (ending : r.inner.ending = .failure reason) :
    Comes r (.read count) .failed r
  | ended {count : Nat} (spent : r.remaining = []) (sound : ∀ reason, r.inner.ending ≠ .failure reason) :
    Comes r (.read count) (.bytes []) r
  | aside {operation : Operation} {reply : Reply} {after : Replay} (other : ∀ count, operation ≠ .read count)
    (read : reply.read = []) (remaining : after.remaining = r.remaining)
    (ending : after.inner.ending = r.inner.ending)
    (written : after.written = r.written ++ accepted operation reply) : Comes r operation reply after

/-- A read hands out what is ahead before it turns to the stream underneath. -/
theorem comes_read (r : Replay) (count : Nat) :
    Comes r (.read count) (r.step (.read count)).1 (r.step (.read count)).2 := by
  obtain ⟨ahead, ⟨chunks, ending⟩, written, flushes, closed⟩ := r
  cases ahead with
  | cons first ahead =>
    refine .front ?_ (List.length_take_le _ _) (fun hcount htake => ?_) rfl rfl
    · exact (List.append_assoc _ _ _).symm.trans (congrArg (· ++ _) (List.take_append_drop _ _))
    · rcases List.take_eq_nil_iff.1 htake with rfl | h
      · exact Nat.lt_irrefl 0 hcount
      · cases h
  | nil =>
    rw [step, read, Feed.take]
    cases htake : takeChunk? count chunks with
    | some found =>
      obtain ⟨b, rest⟩ := found
      obtain ⟨hall, hwithin, hroom⟩ := takeChunk?_eq_some htake
      exact .front hall hwithin hroom rfl rfl
    | none =>
      have hspent := takeChunk?_eq_none htake
      cases ending with
      | closed => exact .ended hspent nofun
      | failure reason => exact .failed hspent rfl
      | silence => exact .ended hspent nofun

theorem comes_handOver (r : Replay) (operation : Operation) (other : ∀ count, operation ≠ .read count)
    (uptake : Option Nat) :
    Comes r operation (r.handOver operation.handed uptake).1 (r.handOver operation.handed uptake).2 := by
  cases uptake with
  | none => exact .aside other rfl rfl rfl (List.append_nil _).symm
  | some most =>
    -- No more is taken up than there is, so what is reported cuts the bytes where the uptake does.
    have htake : operation.handed.take (min most operation.handed.length) = operation.handed.take most := by
      rw [← List.take_take, List.take_length]
    exact .aside other rfl rfl rfl (congrArg (r.written ++ ·) htake.symm)

theorem comes_step (r : Replay) (operation : Operation) :
    Comes r operation (r.step operation).1 (r.step operation).2 := by
  cases operation with
  | read count => exact comes_read r count
  | write bytes uptake => exact comes_handOver r (.write bytes uptake) nofun uptake
  | writeAll parts uptake => exact comes_handOver r (.writeAll parts uptake) nofun uptake
  | flush => exact .aside nofun rfl rfl rfl (List.append_nil _).symm
  | close => exact .aside nofun rfl rfl rfl (List.append_nil _).symm

variable {r after : Replay} {operation : Operation} {reply : Reply}

theorem Comes.remaining (h : Comes r operation reply after) : reply.read ++ after.remaining = r.remaining := by
  cases h with
  | front all _ _ _ _ => exact all
  | failed _ _ => rfl
  | ended _ _ => rfl
  | aside _ read remaining _ _ => rw [read, remaining, List.nil_append]

theorem Comes.ending (h : Comes r operation reply after) : after.inner.ending = r.inner.ending := by
  cases h with
  | front _ _ _ ending _ => exact ending
  | failed _ _ => rfl
  | ended _ _ => rfl
  | aside _ _ _ ending _ => exact ending

theorem Comes.written (h : Comes r operation reply after) :
    after.written = r.written ++ accepted operation reply := by
  cases h with
  | front _ _ _ _ written => exact written.trans (List.append_nil _).symm
  | failed _ _ => exact (List.append_nil _).symm
  | ended _ _ => exact (List.append_nil _).symm
  | aside _ _ _ _ written => exact written

theorem Comes.progress {count : Nat} (h : Comes r (.read count) reply after) (hcount : 0 < count)
    (hremains : r.remaining ≠ []) : ∃ b, reply = .bytes b ∧ b ≠ [] := by
  cases h with
  | front _ _ room _ _ => exact ⟨_, rfl, room hcount⟩
  | failed spent _ => exact absurd spent hremains
  | ended spent _ => exact absurd spent hremains
  | aside other _ _ _ _ => exact absurd rfl (other count)

theorem Comes.within {count : Nat} {b : Bytes} (h : Comes r (.read count) (.bytes b) after) : b.length ≤ count := by
  cases h with
  | front _ within _ _ _ => exact within
  | ended _ _ => exact Nat.zero_le count
  | aside other _ _ _ _ => exact absurd rfl (other count)

theorem Comes.last {count : Nat} (h : Comes r (.read count) reply after) (hcount : 0 < count)
    (hspent : r.remaining = []) :
    (r.inner.ending = .closed → reply = .bytes []) ∧ ∀ reason, r.inner.ending = .failure reason → reply = .failed := by
  cases h with
  | front all _ room _ _ => exact absurd (List.append_eq_nil_iff.1 (all.trans hspent)).1 (room hcount)
  | failed _ ending => exact ⟨fun h => absurd (h.symm.trans ending) nofun, fun _ _ => rfl⟩
  | ended _ sound => exact ⟨fun _ => rfl, fun reason h => absurd h (sound reason)⟩
  | aside other _ _ _ _ => exact absurd rfl (other count)

theorem Comes.spent_of_end {count : Nat} (h : Comes r (.read count) (.bytes []) after) (hcount : 0 < count) :
    r.remaining = [] := by
  cases h with
  | front _ _ room _ _ => exact absurd rfl (room hcount)
  | ended spent _ => exact spent
  | aside other _ _ _ _ => exact absurd rfl (other count)

theorem Comes.spent_of_failed {count : Nat} (h : Comes r (.read count) .failed after) : r.remaining = [] := by
  cases h with
  | failed spent _ => exact spent
  | aside other _ _ _ _ => exact absurd rfl (other count)

/-! ## One use after the other -/

variable (r : Replay)

theorem length_run (operations : List Operation) : (r.run operations).1.length = operations.length := by
  induction operations generalizing r with
  | nil => rfl
  | cons operation operations ih => exact congrArg (· + 1) (ih (r.step operation).2)

/-- A use in a run is one of the stream that the uses before it have left. -/
theorem run_at {operations : List Operation} {i : Nat} {operation : Operation}
    (h : operations[i]? = some operation) :
    (r.run operations).1.take i = (r.run (operations.take i)).1 ∧
    (r.run operations).1[i]? = some ((r.run (operations.take i)).2.step operation).1 := by
  induction operations generalizing r i with
  | nil => cases h
  | cons first operations ih =>
    cases i with
    | zero =>
      obtain rfl := Option.some.inj h
      exact ⟨rfl, rfl⟩
    | succ i =>
      obtain ⟨htake, hget⟩ := ih (r.step first).2 h
      exact ⟨congrArg (_ :: ·) htake, hget⟩

/-- What a run hands out is off the front of what remains. -/
theorem delivered_append_remaining (operations : List Operation) :
    delivered (r.run operations).1 ++ (r.run operations).2.remaining = r.remaining := by
  induction operations generalizing r with
  | nil => rfl
  | cons operation operations ih =>
    calc delivered (r.run (operation :: operations)).1 ++ (r.run (operation :: operations)).2.remaining
        = (r.step operation).1.read ++ (delivered ((r.step operation).2.run operations).1 ++
            ((r.step operation).2.run operations).2.remaining) := List.append_assoc _ _ _
      _ = (r.step operation).1.read ++ (r.step operation).2.remaining := by rw [ih]
      _ = r.remaining := (comes_step r operation).remaining

theorem ending_run (operations : List Operation) : (r.run operations).2.inner.ending = r.inner.ending := by
  induction operations generalizing r with
  | nil => rfl
  | cons operation operations ih => exact (ih (r.step operation).2).trans (comes_step r operation).ending

/-- What is written in a run is what its replies accept, in order. -/
theorem written_run (operations : List Operation) :
    (r.run operations).2.written =
      r.written ++ (List.zipWith accepted operations (r.run operations).1).flatten := by
  induction operations generalizing r with
  | nil => exact (List.append_nil _).symm
  | cons operation operations ih =>
    calc (r.run (operation :: operations)).2.written
        = (r.step operation).2.written ++
            (List.zipWith accepted operations ((r.step operation).2.run operations).1).flatten := ih _
      _ = r.written ++ (accepted operation (r.step operation).1 ++
            (List.zipWith accepted operations ((r.step operation).2.run operations).1).flatten) := by
        rw [(comes_step r operation).written, List.append_assoc]

end Replay

/-! ## The stream as a whole -/

/-- What the replies to a run of uses, and what is written in it, have to be for a stream that starts with the bytes
ahead and goes on with those of the stream underneath. -/
structure ReadsOn (ahead : Bytes) (inner : Feed) (operations : List Operation) (replies : List Reply)
    (written : Bytes) : Prop where
  answered : replies.length = operations.length
  reads : delivered replies <+: ahead ++ inner.bytes
  within : ∀ (i count : Nat) (b : Bytes), operations[i]? = some (.read count) → replies[i]? = some (.bytes b) → b.length ≤ count
  /-- As long as not all of them have been read, a read that has room gets some. -/
  progress : ∀ i count, operations[i]? = some (.read count) → 0 < count →
    delivered (replies.take i) ≠ ahead ++ inner.bytes → ∃ b, replies[i]? = some (.bytes b) ∧ b ≠ []
  /-- Neither the end nor a failure is seen before the last of them. -/
  ends : ∀ i count, operations[i]? = some (.read count) → 0 < count → replies[i]? = some (.bytes []) →
    delivered (replies.take i) = ahead ++ inner.bytes
  fails : ∀ i count, operations[i]? = some (.read count) → replies[i]? = some .failed →
    delivered (replies.take i) = ahead ++ inner.bytes
  /-- After the last of them, a read that has room sees how the stream underneath ends. -/
  last : ∀ i count, operations[i]? = some (.read count) → 0 < count →
    delivered (replies.take i) = ahead ++ inner.bytes →
    (inner.ending = .closed → replies[i]? = some (.bytes [])) ∧
    ∀ reason, inner.ending = .failure reason → replies[i]? = some .failed
  /-- The stream underneath gets what is written by the replies, in order. -/
  writes : written = (List.zipWith accepted operations replies).flatten

/-- A read in a run is a read of a stream of which nothing remains if all the bytes have been read. -/
theorem read_at (ahead : Bytes) (inner : Feed) {operations : List Operation} {i count : Nat}
    (h : operations[i]? = some (.read count)) :
    ∃ before reply after, ((Replay.ofFeed ahead inner).run operations).1[i]? = some reply ∧
      Replay.Comes before (.read count) reply after ∧ before.inner.ending = inner.ending ∧
      (before.remaining = [] ↔
        delivered (((Replay.ofFeed ahead inner).run operations).1.take i) = ahead ++ inner.bytes) := by
  obtain ⟨htake, hget⟩ := Replay.run_at (Replay.ofFeed ahead inner) h
  refine ⟨_, _, _, hget, Replay.comes_step _ _, Replay.ending_run _ _, ?_⟩
  have hall := (Replay.ofFeed ahead inner).delivered_append_remaining (operations.take i)
  rw [htake]
  constructor
  · intro hspent
    rwa [hspent, List.append_nil] at hall
  · intro hread
    rw [hread] at hall
    exact List.append_cancel_left (hall.trans (List.append_nil _).symm)

/-- A stream with bytes ahead of it hands out these and then those of the stream underneath, without a gap and to the
last, and passes on what is written, whatever the order in which it is read and written. -/
theorem readsOn_run (ahead : Bytes) (inner : Feed) (operations : List Operation) :
    ReadsOn ahead inner operations ((Replay.ofFeed ahead inner).run operations).1
      ((Replay.ofFeed ahead inner).run operations).2.written := by
  constructor
  case answered => exact Replay.length_run _ operations
  case reads => exact ⟨_, Replay.delivered_append_remaining _ operations⟩
  case within =>
    intro i count b hi hb
    obtain ⟨before, reply, after, hreply, hcomes, -⟩ := read_at ahead inner hi
    obtain rfl := Option.some.inj (hreply.symm.trans hb)
    exact hcomes.within
  case progress =>
    intro i count hi hcount hmore
    obtain ⟨before, reply, after, hreply, hcomes, -, hspent⟩ := read_at ahead inner hi
    obtain ⟨b, rfl, hne⟩ := hcomes.progress hcount fun h => hmore (hspent.1 h)
    exact ⟨b, hreply, hne⟩
  case ends =>
    intro i count hi hcount hend
    obtain ⟨before, reply, after, hreply, hcomes, -, hspent⟩ := read_at ahead inner hi
    obtain rfl := Option.some.inj (hreply.symm.trans hend)
    exact hspent.1 (hcomes.spent_of_end hcount)
  case fails =>
    intro i count hi hfailed
    obtain ⟨before, reply, after, hreply, hcomes, -, hspent⟩ := read_at ahead inner hi
    obtain rfl := Option.some.inj (hreply.symm.trans hfailed)
    exact hspent.1 hcomes.spent_of_failed
  case last =>
    intro i count hi hcount hread
    obtain ⟨before, reply, after, hreply, hcomes, hending, hspent⟩ := read_at ahead inner hi
    obtain ⟨hclosed, hfailed⟩ := hcomes.last hcount (hspent.2 hread)
    rw [hreply]
    exact ⟨fun h => congrArg some (hclosed (hending.trans h)),
      fun reason h => congrArg some (hfailed reason (hending.trans h))⟩
  case writes => exact Replay.written_run _ operations

/-- A short read, one without room and writes that are taken up in part, in turn. -/
def conversation : List Operation :=
  [.read 2, .write (Bytes.ofAscii "HTTPS") (some 4), .read 0, .read 9, .writeAll [[0x2F], [0x31, 0x32]] (some 2),
    .flush, .read 9, .read 9, .write [0x0A] none, .read 9, .close]

/-- A stream that was read ahead by three bytes and hands over three more. -/
def readAhead : Replay := .ofFeed (Bytes.ofAscii "GET") ⟨[Bytes.ofAscii " /", Bytes.ofAscii "x"], .failure "gone"⟩

theorem readsOn_run_conversation :
    conversation[7]? = some (.read 9) ∧ conversation[9]? = some (.read 9) ∧
    delivered ((readAhead.run conversation).1.take 7) = Bytes.ofAscii "GET /" ∧
    (∃ b, (readAhead.run conversation).1[7]? = some (.bytes b) ∧ b ≠ []) ∧
    (readAhead.run conversation).1[9]? = some .failed ∧
    (readAhead.run conversation).2.written = Bytes.ofAscii "HTTP/1" := by
  have h := readsOn_run (Bytes.ofAscii "GET") ⟨[Bytes.ofAscii " /", Bytes.ofAscii "x"], .failure "gone"⟩ conversation
  refine ⟨rfl, rfl, by decide, h.progress 7 9 rfl (by decide) (by decide), ?_, ?_⟩
  · exact (h.last 9 9 rfl (by decide) (by decide)).2 "gone" rfl
  · exact h.writes.trans (by decide)

end Speedtest.Relay
