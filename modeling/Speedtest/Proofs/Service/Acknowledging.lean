import Speedtest.Proofs.Service.Retrieval

/-!
# What is acknowledged is stored, and nothing else

The response to a request and the store after it tell the same: a post is acknowledged exactly when the store took
its record in, and behind every other response the store is what it was before. This holds whatever the store is,
so a store that fails or crashes never acknowledges anything.
-/
namespace Speedtest.Telemetry

/-- A store that does not take a record in is left as it was. -/
theorem Store.insert_refused {store : Store} {rec : Record} (h : (store.insert rec).1 ≠ .ok ()) :
    (store.insert rec).2 = store := by
  cases store with
  | recent s => exact absurd rfl h
  | forgetful => rfl
  | broken reason => rfl
  | crashing => rfl

/-- Where there is room for one record, the one that comes in stands in front. -/
theorem Recent.records_insert_of_pos {s : Recent} (hroom : 0 < s.capacity) (rec : Record) :
    (s.insert rec).records = rec :: s.records.take (s.capacity - 1) := by
  obtain ⟨room, hcapacity⟩ : ∃ room, s.capacity = room + 1 := ⟨s.capacity - 1, by omega⟩
  rw [records_insert, hcapacity, List.take_succ_cons, Nat.add_sub_cancel]

end Speedtest.Telemetry

namespace Speedtest.Service

/-- A response that tells the identifier of a record, and a store that differs from the one before by one insertion
of that record. -/
structure Stored (rec : Telemetry.Record) (before after : Telemetry.Store) (response : Http.Response) :
    Prop where
  told : response.body = .bytes (Text.Utf8.encode ("id " ++ rec.uuid).toList)
  taken : before.insert rec = (.ok (), after)
  inFront : ∀ store, before = .recent store → 0 < store.capacity →
    after.records = rec :: store.records.take (store.capacity - 1)

theorem Stored.of_taken {rec : Telemetry.Record} {before after : Telemetry.Store} {response : Http.Response}
    (told : response.body = .bytes (Text.Utf8.encode ("id " ++ rec.uuid).toList))
    (taken : before.insert rec = (.ok (), after)) : Stored rec before after response := by
  refine ⟨told, taken, ?_⟩
  rintro store rfl hroom
  obtain rfl : after = .recent (store.insert rec) := (Prod.mk.inj taken).2.symm
  exact store.records_insert_of_pos hroom rec

theorem acknowledges_iff {s : Service} {a : Arrival} {answer : Answer} :
    acknowledges s (a, answer) = true ↔ isPost s a.2 = true ∧ answer.response.status = 200 := by
  simp [acknowledges]

/-- An exchange acknowledges a result exactly where a record was submitted and taken. -/
theorem acknowledges_exchange_iff (s : Service) (m : Moment) (r : Http.Request) (st : State) :
    acknowledges s ((m, r), (s.exchange m r st).1) = true ↔
      ∃ rec, submitted? s m r = some rec ∧ (st.store.insert rec).1 = .ok () := by
  rw [acknowledges_iff]
  constructor
  · rintro ⟨hpost, hstatus⟩
    cases h : submitted? s m r with
    | none => exact absurd hstatus (status_of_not_submitted hpost h st)
    | some rec =>
      rcases response_of_submitted h st with ⟨htaken, -⟩ | ⟨-, hrefused⟩
      · exact ⟨rec, rfl, htaken⟩
      · exact absurd (hrefused.symm.trans hstatus) (by decide)
  · rintro ⟨rec, h, htaken⟩
    rcases response_of_submitted h st with ⟨-, hstatus, -⟩ | ⟨hrefused, -⟩
    · exact ⟨isPost_of_submitted h, hstatus⟩
    · exact absurd htaken hrefused

/-- A post is acknowledged exactly when it submits a record that the store takes. Behind its acknowledgement the
record was put into the store once, and the response tells the identifier of that record. Behind every other response
the store is as it was. -/
theorem stored_of_acknowledges (s : Service) (m : Moment) (r : Http.Request) (st : State) :
    (acknowledges s ((m, r), (s.exchange m r st).1) = true ↔
      ∃ rec, submitted? s m r = some rec ∧ (st.store.insert rec).1 = .ok ()) ∧
    if acknowledges s ((m, r), (s.exchange m r st).1) then
      ∃ rec, submitted? s m r = some rec ∧
        Stored rec st.store (s.exchange m r st).2.store (s.exchange m r st).1.response
    else (s.exchange m r st).2.store = st.store := by
  have hack := acknowledges_exchange_iff s m r st
  have hstore := store_exchange s m r st
  refine ⟨hack, ?_⟩
  split
  · rename_i hyes
    obtain ⟨rec, h, htaken⟩ := hack.1 hyes
    rw [h, Option.elim_some, storing] at hstore
    rcases response_of_submitted h st with ⟨-, -, hbody⟩ | ⟨hrefused, -⟩
    · exact ⟨rec, h, .of_taken hbody (Prod.ext htaken hstore.symm)⟩
    · exact absurd htaken hrefused
  · rename_i hno
    cases h : submitted? s m r with
    | none =>
      rw [h] at hstore
      exact hstore
    | some rec =>
      have hrefused : (st.store.insert rec).1 ≠ .ok () := fun htaken => hno (hack.2 ⟨rec, h, htaken⟩)
      rw [h, Option.elim_some, storing, Telemetry.Store.insert_refused hrefused] at hstore
      exact hstore

theorem stored_of_acknowledges_posting : ∃ rec,
    submitted? (plain "secret") (posting 1 "dl=10").1 (posting 1 "dl=10").2 = some rec ∧
    Stored rec forOne.store
      ((plain "secret").exchange (posting 1 "dl=10").1 (posting 1 "dl=10").2 forOne).2.store
      ((plain "secret").exchange (posting 1 "dl=10").1 (posting 1 "dl=10").2 forOne).1.response := by
  have h := (stored_of_acknowledges (plain "secret") (posting 1 "dl=10").1 (posting 1 "dl=10").2 forOne).2
  rwa [if_pos (by decide +kernel)] at h

end Speedtest.Service
