import Speedtest.Telemetry.Store

/-!
# The last records

What is kept of a run of inserted records is a prefix of their list, newest first, as long as the capacity. So
a record is found by its identifier until as many others have come after it as the store holds.
-/
namespace Speedtest.Telemetry.Recent

def insertAll (s : Recent) (recs : List Record) : Recent := recs.foldl insert s

variable (s : Recent) (recs : List Record)

/-- Cutting a list off early does not change what stands at the front of it behind another list. -/
theorem take_append_take {α : Type} (n : Nat) (front back : List α) :
    (front ++ back.take n).take n = (front ++ back).take n := by
  have hshort : min (n - front.length) n = n - front.length := by omega
  rw [List.take_append, List.take_append, List.take_take, hshort]

theorem records_insertAll :
    (s.insertAll recs).records = (recs.reverse ++ s.records).take s.capacity := by
  induction recs generalizing s with
  | nil => exact (List.take_of_length_le s.length_le).symm
  | cons rec recs ih =>
    have hstep : s.insertAll (rec :: recs) = (s.insert rec).insertAll recs := rfl
    have hcapacity : (s.insert rec).capacity = s.capacity := rfl
    rw [hstep, ih, hcapacity, records_insert, take_append_take, List.reverse_cons, List.append_assoc]
    rfl

theorem records_insertAll_empty (capacity : Nat) :
    ((empty capacity).insertAll recs).records = recs.reverse.take capacity := by
  rw [records_insertAll]
  simp [empty]

/-- The last records of a run are the newest of those that were inserted. -/
theorem last_insertAll (capacity limit : Nat) :
    ((empty capacity).insertAll recs).last limit =
      recs.reverse.take (min limit (min capacity recs.length)) := by
  have hall : recs.reverse.take capacity = recs.reverse.take (min capacity recs.length) := by
    rw [List.take_eq_take_iff, List.length_reverse]
    omega
  rw [last, records_insertAll_empty, hall, List.take_take]

theorem find?_append_of_new {before after : List Record} {uuid : String}
    (hbefore : ∀ rec ∈ before, rec.uuid ≠ uuid) :
    (before ++ after).find? (·.uuid == uuid) = after.find? (·.uuid == uuid) := by
  have hnone : before.find? (·.uuid == uuid) = none :=
    List.find?_eq_none.2 fun rec hrec => by simpa using hbefore rec hrec
  rw [List.find?_append, hnone, Option.none_or]

/-- A record is found as long as fewer records came after it than the store holds. -/
theorem find?_insertAll_of_lt {capacity : Nat} {before after : List Record} {rec : Record}
    (hnew : ∀ other ∈ after, other.uuid ≠ rec.uuid) (hroom : after.length < capacity) :
    ((empty capacity).insertAll (before ++ rec :: after)).find? rec.uuid = some rec := by
  have hkept : (before ++ rec :: after).reverse.take capacity =
      after.reverse ++ (rec :: before.reverse).take (capacity - after.length) := by
    rw [List.reverse_append, List.reverse_cons, List.append_assoc, List.take_append,
      List.length_reverse, List.take_of_length_le (by rw [List.length_reverse]; omega)]
    rfl
  obtain ⟨room, hleft⟩ : ∃ room, capacity - after.length = room + 1 :=
    ⟨capacity - after.length - 1, by omega⟩
  rw [find?, records_insertAll_empty, hkept, find?_append_of_new, hleft, List.take_succ_cons,
    List.find?_cons_of_pos (by simp)]
  intro other hother
  exact hnew other (List.mem_reverse.1 hother)

/-- A record is gone once as many records came after it as the store holds. -/
theorem find?_insertAll_of_le {capacity : Nat} {before after : List Record} {rec : Record}
    (hnew : ∀ other ∈ after, other.uuid ≠ rec.uuid) (hfull : capacity ≤ after.length) :
    ((empty capacity).insertAll (before ++ rec :: after)).find? rec.uuid = none := by
  have hkept : (before ++ rec :: after).reverse.take capacity = after.reverse.take capacity := by
    rw [List.reverse_append, List.reverse_cons, List.append_assoc,
      List.take_append_of_le_length (by rw [List.length_reverse]; exact hfull)]
  rw [find?, records_insertAll_empty, hkept, List.find?_eq_none]
  intro other hother
  have hmem : other ∈ after := List.mem_reverse.1 (List.mem_of_mem_take hother)
  simpa using hnew other hmem

end Speedtest.Telemetry.Recent
